import Dcs.EncoderShaft

/-!
# The direction after the last edge

`Dir_Int` is found by comparing the position with the one before. An edge that reaches an end of the
wrapped range is followed by the jump to the other end, which is a movement against the edge, and two
clocks later the direction is that of the jump.
-/

namespace Dcs
open Vhdl StdLogic StdLogicVector Clocked

namespace Encoder
variable {s : Encoder} {p q : ℕ}

/-- A clock that counts nothing. -/
def Idle (s : Encoder) (i : Sample) : Prop := ¬ s.UpEdge i ∧ ¬ s.DownEdge i

instance (s : Encoder) (i : Sample) : Decidable (Idle s i) := inferInstanceAs (Decidable (_ ∧ _))

theorem Idle.nextPos {i : Sample} (hi : s.Idle i) (ht : p ≠ topPos) (h0 : p ≠ 0) : s.nextPos i p = p := by
  unfold Encoder.nextPos counted
  rw [if_neg ht, if_neg h0, if_neg hi.1, if_neg hi.2]

theorem Inv.dirInt_step (h : s.Inv p q) (i : Sample) :
    (s.step i).dirInt = if q < p then .zero else if p < q then .one else s.dirInt := by
  rw [step_of_nrstState h.nrstState, ← h.direction_eq]
  rfl

/-- The position has been the same for a clock, inside of the range, and `Dir_Int` is `d`. -/
structure Rests (s : Encoder) (p : ℕ) (d : StdLogic) : Prop where
  inv : s.Inv p p
  below : p ≠ topPos
  above : p ≠ 0
  dirInt : s.dirInt = d

theorem Rests.step {d : StdLogic} (h : s.Rests p d) {i : Sample} (hi : s.Idle i) : (s.step i).Rests p d := by
  have hinv := h.inv.step i
  rw [hi.nextPos h.below h.above] at hinv
  refine ⟨hinv, h.below, h.above, ?_⟩
  rw [h.inv.dirInt_step, if_neg (lt_irrefl p), if_neg (lt_irrefl p), h.dirInt]

variable {s₀ : Encoder} {inp : ℕ → Sample}

theorem Rests.trace {d : StdLogic} {m n : ℕ} (hmn : m ≤ n) (h : (trace Encoder.step s₀ inp m).Rests p d)
    (hidle : ∀ k, m ≤ k → k < n → (trace Encoder.step s₀ inp k).Idle (inp k)) :
    (Clocked.trace Encoder.step s₀ inp n).Rests p d := by
  induction n, hmn using Nat.le_induction with
  | base => exact h
  | succ n hmn ih => exact (ih fun k hk hkn => hidle k hk (by omega)).step (hidle n hmn (Nat.lt_succ_self n))

theorem Inv.rests (h : s.Inv p q) {d : StdLogic} (hd : (if q < p then .zero else if p < q then .one else s.dirInt) = d)
    (ht : p ≠ topPos) (h0 : p ≠ 0) {i : Sample} (hi : s.Idle i) : (s.step i).Rests p d := by
  have hinv := h.step i
  rw [hi.nextPos ht h0] at hinv
  exact ⟨hinv, ht, h0, (h.dirInt_step i).trans hd⟩

/-- The direction once an edge at clock `k` that moved the position from `q` to `p` is three clocks back. -/
theorem dirInt_after {k n : ℕ} (h : (trace step s₀ inp (k + 1)).Inv p q) (hpq : p ≠ q) (hkn : k + 3 ≤ n)
    (hidle : ∀ m, k < m → m < n → (trace step s₀ inp m).Idle (inp m)) :
    (trace step s₀ inp n).dirInt =
      if p = topPos then .one else if p = 0 then .zero else if q < p then .zero else .one := by
  have hidle1 := hidle (k + 1) (by omega) (by omega)
  have hidle2 := hidle (k + 2) (by omega) (by omega)
  have hstep := h.step (inp (k + 1))
  unfold nextPos at hstep
  by_cases ht : p = topPos
  · -- the clock after the edge wraps, and the one after that compares 1 with the top
    rw [if_pos ht, ht] at hstep
    have hrest : (trace step s₀ inp (k + 3)).Rests 1 .one :=
      hstep.rests ((if_neg (by decide)).trans (if_pos (by decide))) (by decide) (by decide) hidle2
    rw [if_pos ht]
    exact (Rests.trace hkn hrest fun m hm hmn => hidle m (by omega) hmn).dirInt
  by_cases h0 : p = 0
  · rw [if_neg ht, if_pos h0, h0] at hstep
    have hrest : (trace step s₀ inp (k + 3)).Rests (topPos - 1) .zero :=
      hstep.rests (if_pos (by decide)) (by decide) (by decide) hidle2
    rw [if_neg ht, if_pos h0]
    exact (Rests.trace hkn hrest fun m hm hmn => hidle m (by omega) hmn).dirInt
  · have hmove : (if q < p then .zero else if p < q then .one else (trace step s₀ inp (k + 1)).dirInt) =
        if q < p then StdLogic.zero else .one := by
      split
      · rfl
      · exact if_pos (by omega)
    have hrest : (trace step s₀ inp (k + 2)).Rests p (if q < p then .zero else .one) := h.rests hmove ht h0 hidle1
    rw [if_neg ht, if_neg h0]
    exact (Rests.trace (by omega) hrest fun m hm hmn => hidle m (by omega) hmn).dirInt

theorem dirInt_after_up {k n : ℕ} (h : (trace step s₀ inp k).Inv p q) (hu : (trace step s₀ inp k).UpEdge (inp k))
    (hkn : k + 3 ≤ n) (hidle : ∀ m, k < m → m < n → (trace step s₀ inp m).Idle (inp m)) :
    (trace step s₀ inp n).dirInt = if p = topPos - 1 then .one else .zero := by
  have ht : p ≠ topPos := fun hp => (h.no_edge_at_end (.inl hp) _).1 hu
  have h0 : p ≠ 0 := fun hp => (h.no_edge_at_end (.inr hp) _).1 hu
  have hnext := h.step (inp k)
  unfold nextPos counted at hnext
  rw [if_neg ht, if_neg h0, if_pos hu] at hnext
  rw [dirInt_after hnext (by omega) hkn hidle, if_neg (Nat.succ_ne_zero p), if_pos (Nat.lt_succ_self p)]
  exact if_congr (by unfold topPos; omega) rfl rfl

theorem dirInt_after_down {k n : ℕ} (h : (trace step s₀ inp k).Inv p q)
    (hd : (trace step s₀ inp k).DownEdge (inp k)) (hkn : k + 3 ≤ n)
    (hidle : ∀ m, k < m → m < n → (trace step s₀ inp m).Idle (inp m)) :
    (trace step s₀ inp n).dirInt = if p = 1 then .zero else .one := by
  have ht : p ≠ topPos := fun hp => (h.no_edge_at_end (.inl hp) _).2 hd
  have h0 : p ≠ 0 := fun hp => (h.no_edge_at_end (.inr hp) _).2 hd
  have hle := h.le_top
  have hnext := h.step (inp k)
  unfold nextPos counted at hnext
  rw [if_neg ht, if_neg h0, if_neg fun hu => not_up_and_down hu hd, if_pos hd] at hnext
  rw [dirInt_after hnext (by omega) hkn hidle, if_neg (by omega), if_neg (by omega : ¬ p < p - 1)]
  exact if_congr (by omega) rfl rfl

/-- Where the last edge lies at least three clocks back, `Dir_Int` is the direction of the edge if and
only if the edge was not one that reached an end of the wrapped range. -/
theorem direction_agrees (s₀ : Encoder) (inp : ℕ → Sample) (k n : ℕ) (hkn : k + 3 ≤ n)
    (hidle : ∀ m, k < m → m < n → (trace step s₀.reset inp m).Idle (inp m)) :
    ((trace step s₀.reset inp k).UpEdge (inp k) →
      ((trace step s₀.reset inp n).dirInt = .zero ↔
        (trace step s₀.reset inp k).posInt ≠ slv 32 (topPos - 1))) ∧
    ((trace step s₀.reset inp k).DownEdge (inp k) →
      ((trace step s₀.reset inp n).dirInt = .one ↔ (trace step s₀.reset inp k).posInt ≠ slv 32 1)) := by
  obtain ⟨p, q, h⟩ := trace_inv s₀ inp k
  have hp : p < 2 ^ 32 := Nat.lt_of_le_of_lt h.le_top (by decide)
  refine ⟨fun hu => ?_, fun hd => ?_⟩
  · rw [dirInt_after_up h hu hkn hidle, h.posInt, Ne, slv_inj hp (by decide)]
    split <;> simp_all
  · rw [dirInt_after_down h hd hkn hidle, h.posInt, Ne, slv_inj hp (by decide)]
    split <;> simp_all

/-- `n` turns up: channel A rises at the odd clocks before `2 * n`, channel B stays low. -/
def turns (n k : ℕ) : Sample := ⟨if k % 2 = 0 ∧ k < 2 * n then .zero else .one, .zero⟩

theorem chanAPrev_succ (s₀ : Encoder) (inp : ℕ → Sample) (n : ℕ) :
    (trace step s₀.reset inp (n + 1)).chanAPrev = (inp n).chanA := by
  obtain ⟨p, q, h⟩ := trace_inv s₀ inp n
  rw [trace_succ, step_of_nrstState h.nrstState]
  rfl

theorem idle_turns (s₀ : Encoder) {n m : ℕ} (hn : 0 < n) (hm : 2 * n ≤ m) :
    (trace step s₀.reset (turns n) m).Idle (turns n m) := by
  have hA : (trace step s₀.reset (turns n) m).chanAPrev = .one := by
    obtain ⟨m, rfl⟩ : ∃ m', m = m' + 1 := ⟨m - 1, by omega⟩
    rw [chanAPrev_succ]
    exact if_neg (by omega)
  refine ⟨fun hu => ?_, fun hd => ?_⟩
  · cases hA.symm.trans hu.1
  · cases hA.symm.trans hd.1

theorem upEdge_turns (s₀ : Encoder) {n m : ℕ} (hm : m < n) :
    (trace step s₀.reset (turns n) (2 * m + 1)).UpEdge (turns n (2 * m + 1)) := by
  refine ⟨?_, if_neg (by omega), rfl⟩
  rw [chanAPrev_succ]
  exact if_pos (by omega)

theorem inv_turns (s₀ : Encoder) {n m : ℕ} (hn : n ≤ 2 ^ 29 - 1) (hm : m < n) :
    (trace step s₀.reset (turns n) (2 * m + 1)).Inv (resetPos + m) (resetPos + m) := by
  have hreset : resetPos = 2 ^ 29 := rfl
  have htop : topPos = 2 ^ 30 - 1 := rfl
  have hlow : ∀ k < n, (trace step s₀.reset (turns n) (2 * k)).Idle (turns n (2 * k)) := fun k hk => by
    have hA : (turns n (2 * k)).chanA = .zero := if_pos (by omega)
    refine ⟨fun hu => ?_, fun hd => ?_⟩
    · cases hA.symm.trans hu.2.1
    · cases hA.symm.trans hd.2.1
  have hstart : ∃ q, (trace step s₀.reset (turns n) (2 * m)).Inv (resetPos + m) q := by
    induction m with
    | zero => exact ⟨resetPos, Inv.reset s₀⟩
    | succ m ih =>
      obtain ⟨q, h⟩ := ih (by omega)
      have hrest := h.step (turns n (2 * m))
      rw [(hlow m (by omega)).nextPos (by omega) (by omega)] at hrest
      have hnext := hrest.step (turns n (2 * m + 1))
      have hup : (trace step s₀.reset (turns n) (2 * m + 1)).nextPos (turns n (2 * m + 1)) (resetPos + m) =
          resetPos + (m + 1) := by
        rw [nextPos, if_neg (by omega), if_neg (by omega), counted, if_pos (upEdge_turns s₀ (by omega))]
        rfl
      exact ⟨_, hup ▸ hnext⟩
  obtain ⟨q, h⟩ := hstart
  have hnext := h.step (turns n (2 * m))
  rwa [(hlow m hm).nextPos (by omega) (by omega)] at hnext

theorem direction_agrees_turn : (trace step powerUp.reset (turns 1) 4).dirInt = .zero := by
  have hidle : ∀ m, 1 < m → m < 4 → (trace step powerUp.reset (turns 1) m).Idle (turns 1 m) := fun m hm _ =>
    idle_turns powerUp (by decide) (by omega)
  exact ((direction_agrees powerUp (turns 1) 1 4 (by decide) hidle).1 (upEdge_turns powerUp (m := 0) (by decide))).2
    (by decide)

/-- After 2^29 - 1 turns up from the reset the direction is down. -/
theorem direction_disagrees :
    ¬ ∀ s₀ inp k n, k + 3 ≤ n → (∀ m, k < m → m < n → (trace step (reset s₀) inp m).Idle (inp m)) →
      (trace step (reset s₀) inp k).UpEdge (inp k) → (trace step (reset s₀) inp n).dirInt = .zero := by
  intro h
  have hlast : 2 ^ 29 - 2 < 2 ^ 29 - 1 := by norm_num
  have hidle : ∀ m, 2 * (2 ^ 29 - 2) + 1 < m → m < 2 * (2 ^ 29 - 2) + 4 →
      (trace step powerUp.reset (turns (2 ^ 29 - 1)) m).Idle (turns (2 ^ 29 - 1) m) := fun m hm _ =>
    idle_turns powerUp (by norm_num) (by omega)
  have hup := upEdge_turns powerUp hlast
  have hdir := h powerUp (turns (2 ^ 29 - 1)) _ _ le_rfl hidle hup
  rw [dirInt_after_up (inv_turns powerUp le_rfl hlast) hup le_rfl hidle, if_pos (by norm_num)] at hdir
  cases hdir

end Encoder

end Dcs
