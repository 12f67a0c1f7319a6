import Dcs.EncoderText
import Dcs.Isolation

/-!
# What `read` promises

`PID_read`, `PWM_read` and `Encoder_read` copy a whole text, whatever length the caller has asked for,
return what `copy_to_user` has left as if it were a number of bytes read, and set the one-shot flag in any
case. `Encoder_read` copies all of the 12 bytes of its buffer, with the zeros behind the text.
-/

namespace Dcs
open Function Decimal

/-! ### Encoder -/

/-- `int_array` of `Encoder_read` and `sys_read_node` after `Encoder_itoa`. -/
def encoderText (memory : ℤ → UInt8) (value : BitVec 32) : Buffer := encoderItoa value memory (List.replicate 12 0)

def encoderRead (memory : ℤ → UInt8) : World EncoderReg → FileId → Io → ℕ → (World EncoderReg × Outcome) × Buffer :=
  nodeRead .position (encoderText memory)

/-- `sys_read_node` of Encoder. -/
def encoderSysRead (w : World EncoderReg) (v : DevT) (junk : IoAddr) (memory : ℤ → UInt8) : Io → ℕ → Outcome × Buffer :=
  sysRead (encoderReadAddress w v junk) (encoderText memory)

theorem length_strcpy {target source : Buffer} (hzero : 0 ∈ source) (hlen : source.length ≤ target.length) :
    (strcpy target source).length = target.length := by
  have hprefix : source.takeWhile (· ≠ 0) <+: source := List.takeWhile_prefix _
  have hlt : (source.takeWhile (· ≠ 0)).length < source.length := by
    refine lt_of_le_of_ne hprefix.length_le fun heq => ?_
    rw [← hprefix.eq_of_length heq] at hzero
    have hall : (source.takeWhile (· ≠ 0)).all (· ≠ 0) = true := List.all_takeWhile
    exact absurd (List.all_eq_true.1 hall 0 hzero) (by decide)
  simp only [strcpy, List.length_append, List.length_drop, List.length_singleton]
  omega

theorem length_encoderText (memory : ℤ → UInt8) (value : BitVec 32) : (encoderText memory value).length = 12 :=
  length_strcpy (Itoa.closing_zero value memory) (by simp)

/-! ### The contract -/

/-- What the caller of `read` with a buffer of `lenght` bytes may expect of the result `r`, if the text to be
read is `text`. -/
structure ReadContract {Reg : Type} (text : Buffer) (lenght left : ℕ) (p : Ptr) (x : DevData Reg)
    (r : (World Reg × Outcome) × Buffer) : Prop where
  fits : r.2.length ≤ lenght
  delivers : ∀ n : ℤ, r.1.2 = .returns n → 0 ≤ n → n = r.2.length ∧ r.2 <+: text
  incomplete : x.messageRead = false → left ≠ 0 →
    (∃ n, n < 0 ∧ r.1.2 = .returns n) ∧ ∃ y, r.1.1.heap p = some y ∧ y.messageRead = false

section
variable {Reg : Type} {w : World Reg} {r : Reg} {print : BitVec 32 → Buffer} {f : FileId} {p : Ptr}
  {x : DevData Reg}

/-- The handlers keep the contract if there is nothing to read, or if the copy is complete, fits and is a part
of the text. -/
theorem nodeRead_contract (hp : w.files f >>= File.privateData = some p) (hx : w.heap p = some x) (text : Buffer)
    (lenght left : ℕ) (io : Io) :
    ReadContract text lenght left p x (nodeRead r print w f io left) ↔
      x.messageRead = true ∨
        left = 0 ∧ (print (io (x.address r))).length ≤ lenght ∧ print (io (x.address r)) <+: text := by
  by_cases hread : x.messageRead = true
  · refine iff_of_true ?_ (.inl hread)
    have hend : nodeRead r print w f io left = ((w, .returns 0), []) := by simp [nodeRead, hp, hx, hread]
    rw [hend]
    refine ⟨Nat.zero_le lenght, fun n hn _ => ?_, fun hfirst => absurd hread (by simp [hfirst])⟩
    obtain rfl := Outcome.returns.inj hn
    exact ⟨rfl, List.nil_prefix⟩
  · have hfirst : x.messageRead = false := Bool.eq_false_of_not_eq_true hread
    by_cases hleft : left = 0
    · subst hleft
      obtain ⟨hret, hcopied⟩ : (nodeRead r print w f io 0).1.2 = .returns (print (io (x.address r))).length ∧
          (nodeRead r print w f io 0).2 = print (io (x.address r)) := nodeRead_first hp hx hfirst io
      refine ⟨fun h => .inr ⟨rfl, hcopied ▸ h.fits, ?_⟩, fun h => ?_⟩
      · exact hcopied ▸ (h.delivers _ hret (Int.natCast_nonneg _)).2
      · obtain ⟨-, hfits, hprefix⟩ := h.resolve_left hread
        refine ⟨hcopied ▸ hfits, fun n hn _ => ?_, fun _ h0 => absurd rfl h0⟩
        rw [hcopied]
        exact ⟨Outcome.returns.inj (hn.symm.trans hret), hprefix⟩
    · refine iff_of_false (fun h => ?_) fun h => hleft (h.resolve_left hread).1
      -- the number of bytes that are left is returned, and it is not negative
      obtain ⟨⟨n, hn, hret⟩, -⟩ := h.incomplete hfirst hleft
      have hres : (nodeRead r print w f io left).1.2 = .returns left := by
        simp [nodeRead, hp, hx, hfirst, copyOut, hleft]
      have hneg : (left : ℤ) = n := Outcome.returns.inj (hres.symm.trans hret)
      omega

/-- The first read does not look at the length. -/
theorem nodeRead_too_long (hp : w.files f >>= File.privateData = some p) (hx : w.heap p = some x)
    (hfirst : x.messageRead = false) {text : Buffer} {lenght left : ℕ} {io : Io}
    (hlong : lenght < (print (io (x.address r))).length) :
    ¬ ReadContract text lenght left p x (nodeRead r print w f io left) := by
  intro h
  rcases (nodeRead_contract hp hx text lenght left io).1 h with hread | ⟨-, hfits, -⟩
  · cases hfirst.symm.trans hread
  · omega

end

/-! ### The three handlers -/

/-- `%i` prints an unsigned number as one only if it is below 2^31. -/
theorem printInt_prefix (value : BitVec 32) :
    printInt value ++ [10] <+: natText value.toNat ++ [10] ↔ value.toNat < 2 ^ 31 := by
  refine ⟨fun h => ?_, fun h => ?_⟩
  · by_contra hge
    obtain ⟨n, hn⟩ : ∃ n, value.toInt = .negSucc n := by
      have hneg : value.toInt < 0 := by
        rw [BitVec.toInt_eq_toNat_cond]
        split <;> omega
      exact Int.eq_negSucc_of_lt_zero hneg
    obtain ⟨c, cs, hc⟩ := List.exists_cons_of_ne_nil (natText_ne_nil value.toNat)
    obtain ⟨rest, hrest⟩ := h
    unfold printInt at hrest
    rw [hn, hc] at hrest
    have hminus : 45 = c := (List.cons.inj hrest).1
    exact natText_ne_minus (hminus ▸ hc)
  · have hint : value.toInt = (value.toNat : ℤ) := BitVec.toInt_eq_toNat_of_lt (by omega)
    unfold printInt
    rw [hint]
    exact List.prefix_rfl

/-- The 12 bytes of Encoder are no part of a text and its newline, which have 11 at most. -/
theorem encoderText_not_prefix (memory : ℤ → UInt8) (value : BitVec 32) :
    ¬ encoderText memory value <+: natText value.toNat ++ [10] := fun h => by
  have hlt := value.isLt
  have hdigits : (natText value.toNat).length ≤ 10 := length_natText_le (by decide) (by omega)
  have hlen := h.length_le
  rw [length_encoderText, List.length_append, List.length_singleton] at hlen
  omega

/-- A read keeps the contract if and only if the value has been read before, or (PID, PWM) the copy is
complete and the caller's buffer is large enough, and the number is one that `%i` prints. -/
theorem read_contract (io : Io) (lenght left : ℕ) :
    (∀ w f p x, w.files f >>= File.privateData = some p → w.heap p = some x →
      (ReadContract (intText (io (x.address .position) - 536870911).toInt) lenght left p x (pidRead w f io left) ↔
        x.messageRead = true ∨
          left = 0 ∧ (intText (io (x.address .position) - 536870911).toInt).length ≤ lenght)) ∧
    (∀ w f p x, w.files f >>= File.privateData = some p → w.heap p = some x →
      (ReadContract (natText (io (x.address .pulsewidth)).toNat ++ [10]) lenght left p x (pwmRead w f io left) ↔
        x.messageRead = true ∨
          left = 0 ∧ (natText (io (x.address .pulsewidth)).toNat ++ [10]).length ≤ lenght ∧
            (io (x.address .pulsewidth)).toNat < 2 ^ 31)) ∧
    ∀ w f p x memory, w.files f >>= File.privateData = some p → w.heap p = some x →
      (ReadContract (natText (io (x.address .position)).toNat ++ [10]) lenght left p x
        (encoderRead memory w f io left) ↔ x.messageRead = true) := by
  refine ⟨fun w f p x hp hx => ?_, fun w f p x hp hx => ?_, fun w f p x memory hp hx => ?_⟩
  · unfold pidRead
    rw [nodeRead_contract hp hx]
    exact or_congr_right (and_congr_right fun _ => and_iff_left List.prefix_rfl)
  · unfold pwmRead
    rw [nodeRead_contract hp hx, printInt_prefix]
    refine or_congr_right (and_congr_right fun _ => and_congr_left fun hlt => ?_)
    unfold printInt
    rw [BitVec.toInt_eq_toNat_of_lt (by omega)]
    rfl
  · unfold encoderRead
    rw [nodeRead_contract hp hx]
    exact or_iff_left fun h => encoderText_not_prefix memory _ h.2.2

theorem oneDevice_opened :
    (((oneDevice pid).open 0 ⟨240, 0⟩).1.files 0 >>= File.privateData = some 1 ∧
      ∃ x, ((oneDevice pid).open 0 ⟨240, 0⟩).1.heap 1 = some x ∧ x.messageRead = false) ∧
    (((oneDevice pwm).open 0 ⟨240, 0⟩).1.files 0 >>= File.privateData = some 1 ∧
      ∃ x, ((oneDevice pwm).open 0 ⟨240, 0⟩).1.heap 1 = some x ∧ x.messageRead = false) ∧
    ((oneDevice encoder).open 0 ⟨240, 0⟩).1.files 0 >>= File.privateData = some 1 ∧
      ∃ x, ((oneDevice encoder).open 0 ⟨240, 0⟩).1.heap 1 = some x ∧ x.messageRead = false :=
  ⟨⟨by decide, _, rfl, rfl⟩, ⟨by decide, _, rfl, rfl⟩, by decide, _, rfl, rfl⟩

theorem read_contract_one :
    ∃ x, ReadContract (intText 1) 8 0 1 x
      (pidRead ((oneDevice pid).open 0 ⟨240, 0⟩).1 0 (fun _ => 0x20000000) 0) := by
  obtain ⟨⟨hp, x, hx, -⟩, -⟩ := oneDevice_opened
  exact ⟨x, ((read_contract (fun _ => 0x20000000) 8 0).1 _ 0 1 x hp hx).2 (.inr ⟨rfl, by decide⟩)⟩

/-- A caller that asks for no bytes gets some. -/
theorem read_contract_broken :
    ¬ (∀ (io : Io) lenght left w f p x, w.files f >>= File.privateData = some p → w.heap p = some x →
      ReadContract (intText (io (x.address .position) - 536870911).toInt) lenght left p x (pidRead w f io left)) ∧
    ¬ (∀ (io : Io) lenght left w f p x, w.files f >>= File.privateData = some p → w.heap p = some x →
      ReadContract (natText (io (x.address .pulsewidth)).toNat ++ [10]) lenght left p x (pwmRead w f io left)) ∧
    ¬ ∀ (io : Io) lenght left w f p x memory, w.files f >>= File.privateData = some p → w.heap p = some x →
      ReadContract (natText (io (x.address .position)).toNat ++ [10]) lenght left p x
        (encoderRead memory w f io left) := by
  obtain ⟨⟨hpid, x, hx, hxread⟩, ⟨hpwm, y, hy, hyread⟩, henc, z, hz, hzread⟩ := oneDevice_opened
  refine ⟨fun h => ?_, fun h => ?_, fun h => ?_⟩
  · have htext : (intText ((0x20000000 : BitVec 32) - 536870911).toInt) ≠ [] := by decide
    exact nodeRead_too_long hpid hx hxread (List.length_pos_of_ne_nil htext)
      (h (fun _ => 0x20000000) 0 0 _ 0 1 x hpid hx)
  · have htext : printInt 0 ++ [10] ≠ [] := by simp
    exact nodeRead_too_long hpwm hy hyread (List.length_pos_of_ne_nil htext) (h (fun _ => 0) 0 0 _ 0 1 y hpwm hy)
  · have hlong : 0 < (encoderText (fun _ => 0) 0).length := by rw [length_encoderText]; exact Nat.succ_pos 11
    exact nodeRead_too_long henc hz hzread hlong (h (fun _ => 0) 0 0 _ 0 1 z (fun _ => 0) henc hz)

end Dcs
