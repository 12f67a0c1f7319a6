import Dcs.EncoderInv

/-!
# `add` and `sub` as loops

`subLoop` and `addLoop` are the functions of `Encoder.vhd` as they stand: a loop over the elements of the
argument that assigns to a result of 32 elements and to 33 borrows or carries, all undefined before. An
index error of the source is `none`. Up to 32 elements there is none, and on 32 elements the loops are the
recursions `sub` and `add` of the decoder.
-/

namespace Dcs
open Vhdl StdLogic StdLogicVector Clocked

section
variable (cell : StdLogic → StdLogic → StdLogic × StdLogic) (in1 : StdLogicVector) (in2 : StdLogic)

/-- `tmp1` and `tmp2` after `tmp2(0) := in2`. -/
def tmp : Ripple.Arrays StdLogic StdLogic := ⟨.replicate 32 .U, (List.replicate 33 StdLogic.U).set 0 in2⟩

/-- The loop from `in1'LOW` to `in1'HIGH`. -/
def rippleLoop : Option StdLogicVector := do
  let v ← Ripple.rounds cell in1 (tmp in2) in1.length
  return v.out

def subLoop : Option StdLogicVector := rippleLoop subCell in1 in2

def addLoop : Option StdLogicVector := rippleLoop addCell in1 in2

variable {in1}

theorem rippleLoop_eq (hlen : in1.length ≤ 32) : rippleLoop cell in1 in2 =
    some (Ripple.digits cell in1 in2 ++ List.replicate (32 - in1.length) .U) := by
  obtain ⟨v, hrun, hv⟩ : ∃ v, Ripple.rounds cell in1 (tmp in2) in1.length = some v ∧
      Ripple.Filled cell in1 in2 (tmp in2) in1.length v :=
    Ripple.filled_rounds rfl le_rfl hlen (Nat.lt_succ_of_le hlen)
  have hout := hv.out
  rw [List.take_length, tmp, List.drop_replicate] at hout
  rw [rippleLoop, hrun, ← hout]
  rfl

theorem subLoop_eq (hlen : in1.length = 32) : subLoop in1 in2 = some (sub in1 in2) := by
  rw [subLoop, rippleLoop_eq subCell in2 hlen.le, hlen, sub_eq_digits]
  exact congrArg some (List.append_nil _)

theorem addLoop_eq (hlen : in1.length = 32) : addLoop in1 in2 = some (add in1 in2) := by
  rw [addLoop, rippleLoop_eq addCell in2 hlen.le, hlen, add_eq_digits]
  exact congrArg some (List.append_nil _)

end

/-- In every run from the reset the decoder's calls return what `count` assigns. -/
theorem Encoder.count_eq_loop (s₀ : Encoder) (inp : ℕ → Sample) (n : ℕ) :
    ((trace step s₀.reset inp n).UpEdge (inp n) → addLoop (trace step s₀.reset inp n).posInt .one =
      some ((trace step s₀.reset inp n).count (inp n))) ∧
    ((trace step s₀.reset inp n).DownEdge (inp n) → subLoop (trace step s₀.reset inp n).posInt .one =
      some ((trace step s₀.reset inp n).count (inp n))) := by
  obtain ⟨p, q, h⟩ := trace_inv s₀ inp n
  have hlen : (trace step s₀.reset inp n).posInt.length = 32 := by rw [h.posInt, length_slv]
  refine ⟨fun ⟨ha, hi, hb⟩ => ?_, fun ⟨ha, hi, hb⟩ => ?_⟩
  · rw [addLoop_eq .one hlen, count, if_pos ⟨ha, hi⟩, hb]
    rfl
  · rw [subLoop_eq .one hlen, count, if_pos ⟨ha, hi⟩, hb]
    rfl

/-! ### Arithmetic -/

section
variable {x : StdLogicVector} {n : ℕ} {c : StdLogic}

/-- At each element the borrow is the carry of the addition before, and the bit comes back. -/
theorem sub_add (hx : x.Bits n) (hc : c.Bit) : sub (add x c) c = x := by
  have hinv : ∀ b c, b.Bit → c.Bit → subCell (addCell b c).1 c = (b, (addCell b c).2) := by
    rintro b c (rfl | rfl) (rfl | rfl) <;> rfl
  rw [sub_eq_digits, add_eq_digits]
  exact keeps_addCell.digits_digits hinv hx.bit hc

theorem add_sub (hx : x.Bits n) (hc : c.Bit) : add (sub x c) c = x := by
  have hinv : ∀ b c, b.Bit → c.Bit → addCell (subCell b c).1 c = (b, (subCell b c).2) := by
    rintro b c (rfl | rfl) (rfl | rfl) <;> rfl
  rw [sub_eq_digits, add_eq_digits]
  exact keeps_subCell.digits_digits hinv hx.bit hc

end

/-- On 32 bits the functions return the sum and the difference modulo 2^32, and each undoes the other. -/
theorem ripple_arithmetic (x : StdLogicVector) (c : StdLogic) (hx : x.Bits 32) (hc : c.Bit) :
    (addLoop x c = some (add x c) ∧ StdLogicVector.Bits (add x c) 32 ∧
      (add x c).toNat = (x.toNat + c.toNat) % 2 ^ 32) ∧
    (subLoop x c = some (sub x c) ∧ StdLogicVector.Bits (sub x c) 32 ∧
      ((sub x c).toNat : ℤ) = (x.toNat - c.toNat) % 2 ^ 32) ∧
    subLoop (add x c) c = some x ∧ addLoop (sub x c) c = some x := by
  have hadd := bits_add hx hc
  have hsub := bits_sub hx hc
  refine ⟨⟨addLoop_eq c hx.length, hadd, toNat_add hx hc⟩, ⟨subLoop_eq c hx.length, hsub, toNat_sub hx hc⟩, ?_, ?_⟩
  · rw [subLoop_eq c hadd.length, sub_add hx hc]
  · rw [addLoop_eq c hsub.length, add_sub hx hc]

theorem ripple_arithmetic_wraps :
    (add (slv 32 0xFFFFFFFF) .one).toNat = 0 ∧ ((sub (slv 32 0) .one).toNat : ℤ) = 0xFFFFFFFF := by
  have hone : StdLogic.one.Bit := .inr rfl
  have hadd := (ripple_arithmetic (slv 32 0xFFFFFFFF) .one (bits_slv 32 _) hone).1.2.2
  have hsub := (ripple_arithmetic (slv 32 0) .one (bits_slv 32 _) hone).2.1.2.2
  rw [toNat_slv] at hadd hsub
  exact ⟨hadd, hsub⟩

end Dcs
