import Dcs.EncoderShaft
import Dcs.DriverFiles
import Dcs.Reads

/-!
# The position a reader of PID sees

`Encoder.vhd` starts at `0x20000000` and `PID_read` subtracts `536870911`, which is `0x1FFFFFFF`. While
the net count stays below the wrap-around the register is the start plus the net count, so the text
that `PID_read` delivers is always of one more than the net count.
-/

namespace Dcs
open Vhdl StdLogic StdLogicVector Clocked Decimal

namespace Encoder

/-- The up edges minus the down edges of the first `n` clocks after a reset. -/
def net (s₀ : Encoder) (inp : ℕ → Sample) (n : ℕ) : ℤ :=
  Clocked.count step UpEdge s₀.reset inp n - Clocked.count step DownEdge s₀.reset inp n

variable {s₀ : Encoder} {inp : ℕ → Sample}

theorem net_succ (n : ℕ) : net s₀ inp (n + 1) =
    net s₀ inp n + (if UpEdge (trace step s₀.reset inp n) (inp n) then 1 else 0 : ℕ) -
      (if DownEdge (trace step s₀.reset inp n) (inp n) then 1 else 0 : ℕ) := by
  rw [net, net, count_succ, count_succ, Nat.cast_add, Nat.cast_add]
  ring

/-- Where the net count has not been near the wrap-around, the position is the reset position plus
the net count, not only modulo the wrapped range. -/
theorem posInt_net {n : ℕ} (hnet : ∀ k ≤ n, |net s₀ inp k| ≤ 2 ^ 29 - 3) :
    ∃ p : ℕ, (trace step s₀.reset inp n).posInt = slv 32 p ∧ (p : ℤ) = resetPos + net s₀ inp n := by
  suffices h : ∃ p q, (trace step s₀.reset inp n).Inv p q ∧ (p : ℤ) = resetPos + net s₀ inp n by
    obtain ⟨p, q, hinv, hp⟩ := h
    exact ⟨p, hinv.posInt, hp⟩
  induction n with
  | zero => exact ⟨_, _, Inv.reset s₀, by simp [net]⟩
  | succ n ih =>
    obtain ⟨p, q, hinv, hp⟩ := ih fun k hk => hnet k (Nat.le_succ_of_le hk)
    have hbound := abs_le.1 (hnet n (Nat.le_succ n))
    have hinside : p ≠ topPos ∧ p ≠ 0 := by
      simp only [resetPos, topPos] at hp ⊢
      omega
    refine ⟨_, _, hinv.step (inp n), ?_⟩
    rw [nextPos, if_neg hinside.1, if_neg hinside.2, counted_cast _ (Nat.pos_of_ne_zero hinside.2), hp, net_succ]
    ring

end Encoder

/-- What `PID_read` prints for a register that holds the reset position plus `n`. -/
theorem printInt_position {p : ℕ} {n : ℤ} (hp : (p : ℤ) = resetPos + n) (hn : |n| ≤ 2 ^ 29 - 3) :
    printInt (.ofNat 32 p - 536870911) = intText (n + 1) := by
  have hbound := abs_le.1 hn
  have hvalue : BitVec.ofNat 32 p = BitVec.ofInt 32 (n + 1) + 536870911 := by
    rw [show (536870911 : BitVec 32) = BitVec.ofInt 32 536870911 from rfl, ← BitVec.ofInt_add,
      ← BitVec.ofInt_natCast, hp]
    congr 1
    simp only [resetPos]
    omega
  unfold printInt
  rw [hvalue, BitVec.add_sub_cancel, BitVec.toInt_ofInt, Int.bmod_eq_of_le (by omega) (by omega)]

namespace World

/-- `f` is open on the structure `x` and has not been read. -/
def Unread {Reg : Type} (w : World Reg) (f : FileId) (x : DevData Reg) : Prop :=
  (∃ p, w.files f >>= File.privateData = some p ∧ w.heap p = some x) ∧ x.messageRead = false

/-- A successful `open` of a registered device leaves the file unread. -/
theorem Wf.unread_open {w : World PidReg} (hw : w.Wf pid) {p : Ptr} {x : DevData PidReg} (hx : w.Entry p x)
    {f : FileId} (hopen : (w.open f x.devt).2 = .returns 0) :
    (w.open f x.devt).1.Unread f { x with messageRead := false } := by
  rcases open_cases w f x.devt with ⟨-, h⟩ | ⟨-, -, g, h⟩ | ⟨hlock, -, g, h⟩
  · rw [h] at hopen
    cases hopen
  · rw [h] at hopen
    cases hopen
  · refine ⟨⟨p, ?_, ?_⟩, rfl⟩
    · rw [h, ← lookup_of_entry hw hx]
      simp
    · rw [open_heap hlock, hx.2, Option.map_some, if_pos ⟨hx.1, rfl⟩]

end World

/-- The position register shows `Pos`, which has settled. -/
def Exposes (io : Io) (x : DevData PidReg) (s : Encoder) : Prop :=
  s.pos = s.posInt ∧ io (x.address .position) = .ofNat 32 s.pos.toNat

theorem World.Unread.shows {w : World PidReg} {f : FileId} {x : DevData PidReg} (h : w.Unread f x)
    {s₀ : Encoder} {inp : ℕ → Sample} {n : ℕ} (hnet : ∀ k ≤ n, |Encoder.net s₀ inp k| ≤ 2 ^ 29 - 3) {io : Io}
    (hio : Exposes io x (trace Encoder.step s₀.reset inp n)) :
    (pidRead w f io 0).2 = intText (Encoder.net s₀ inp n + 1) := by
  obtain ⟨⟨p, hp, hx⟩, hfirst⟩ := h
  obtain ⟨q, hq, hqnet⟩ := Encoder.posInt_net hnet
  have hbound := abs_le.1 (hnet n le_rfl)
  have hlt : q < 2 ^ 32 := by
    simp only [resetPos] at hqnet
    omega
  unfold pidRead
  rw [(nodeRead_first hp hx hfirst io).2, hio.2, hio.1, hq, toNat_slv, Nat.mod_eq_of_lt hlt,
    printInt_position hqnet (hnet n le_rfl)]

/-- The first `PID_read` after an `open`, and of any file that is still unread, delivers the text of the
net count plus one, and so never the text of the net count. -/
theorem pid_read_net (s₀ : Encoder) (inp : ℕ → Sample) (n : ℕ)
    (hnet : ∀ k ≤ n, |Encoder.net s₀ inp k| ≤ 2 ^ 29 - 3) :
    (∀ w f p x io, Lts.Reach (drive pid) (fun _ _ => True) w → w.Entry p x →
      (w.open f x.devt).2 = .returns 0 → Exposes io x (trace Encoder.step s₀.reset inp n) →
      (pidRead (w.open f x.devt).1 f io 0).2 = intText (Encoder.net s₀ inp n + 1)) ∧
    (∀ w f x io, w.Unread f x → Exposes io x (trace Encoder.step s₀.reset inp n) →
      (pidRead w f io 0).2 = intText (Encoder.net s₀ inp n + 1)) ∧
    intText (Encoder.net s₀ inp n + 1) ≠ intText (Encoder.net s₀ inp n) := by
  refine ⟨fun w f p x io hw hx hopen hio => ?_, fun w f x io h hio => h.shows hnet hio, ?_⟩
  · exact ((World.Wf.of_reach hw).unread_open hx hopen).shows hnet hio
  · rw [Ne, intText_inj]
    omega

/-- A shaft that does not move. -/
def still (_ : ℕ) : Sample := ⟨.zero, .zero⟩

theorem net_still (n : ℕ) : Encoder.net Encoder.powerUp still n = 0 := by
  have hno : ∀ k, ¬ (trace Encoder.step Encoder.powerUp.reset still k).UpEdge (still k) ∧
      ¬ (trace Encoder.step Encoder.powerUp.reset still k).DownEdge (still k) := fun k =>
    ⟨fun h => StdLogic.noConfusion h.2.1, fun h => StdLogic.noConfusion h.2.1⟩
  induction n with
  | zero => simp [Encoder.net]
  | succ n ih => rw [Encoder.net_succ, ih, if_neg (hno n).1, if_neg (hno n).2]; rfl

theorem net_still_le (n k : ℕ) (_ : k ≤ n) : |Encoder.net Encoder.powerUp still k| ≤ 2 ^ 29 - 3 := by
  rw [net_still, abs_zero]
  norm_num

theorem exposes_still (x : DevData PidReg) :
    Exposes (fun _ => 0x20000000) x (trace Encoder.step Encoder.powerUp.reset still 1) := by
  obtain ⟨p, hp, hnet⟩ := Encoder.posInt_net (net_still_le 1)
  have hpos : (trace Encoder.step Encoder.powerUp.reset still 1).pos = slv 32 resetPos := rfl
  obtain rfl : p = resetPos := by
    rw [net_still, add_zero] at hnet
    exact_mod_cast hnet
  refine ⟨hpos.trans hp.symm, ?_⟩
  rw [hpos, toNat_slv]
  rfl

theorem onePid_entry : ∃ x, (oneDevice pid).Entry 1 x ∧ x.devt = ⟨240, 0⟩ := ⟨_, ⟨by decide, rfl⟩, rfl⟩

theorem pid_read_net_still :
    (pidRead ((oneDevice pid).open 0 ⟨240, 0⟩).1 0 (fun _ => 0x20000000) 0).2 =
      intText (Encoder.net Encoder.powerUp still 1 + 1) := by
  obtain ⟨x, hx, hv⟩ := onePid_entry
  rw [← hv]
  exact (pid_read_net Encoder.powerUp still 1 (net_still_le 1)).1 (oneDevice pid) 0 1 x _ (oneDevice_reach pid) hx
    (by rw [hv]; decide) (exposes_still x)

/-- Directly after the reset the text is not `0` but `1`. -/
theorem pid_read_not_net :
    ¬ ∀ s₀ inp n, (∀ k ≤ n, |Encoder.net s₀ inp k| ≤ 2 ^ 29 - 3) →
      ∀ w f p x io, Lts.Reach (drive pid) (fun _ _ => True) w → w.Entry p x →
        (w.open f x.devt).2 = .returns 0 → Exposes io x (trace Encoder.step s₀.reset inp n) →
        (pidRead (w.open f x.devt).1 f io 0).2 = intText (Encoder.net s₀ inp n) := by
  intro h
  obtain ⟨x, hx, hv⟩ := onePid_entry
  have hread := h Encoder.powerUp still 1 (net_still_le 1) (oneDevice pid) 0 1 x _ (oneDevice_reach pid) hx
    (by rw [hv]; decide) (exposes_still x)
  rw [net_still, hv] at hread
  exact absurd hread (by decide)

end Dcs
