import Dcs.Lib.Clocked
import Dcs.Lib.Ripple
import Dcs.Lib.StdLogic

/-!
# The quadrature decoder (`Encoder.vhd`)

`Encoder` holds the signals of architecture `Functional`; `Encoder.process` is its process, every
right-hand side reading the old signal values. The position is a 32-bit vector that the hand-written
ripple functions `add` and `sub` count, and that wraps between `0` and `0x3FFFFFFF`.
-/

namespace Dcs
open Vhdl StdLogic StdLogicVector

/-! ### The ripple functions -/

/-- `sub (in1, in2)`: `in1 - in2`, borrow by borrow from element `0` up. -/
def sub : StdLogicVector → StdLogic → StdLogicVector
  | [], _ => []
  | b :: in1, borrow =>
    let xorout := b.xor .zero
    let andout2 := b.not.and .zero
    let andout := xorout.not.and borrow
    borrow.xor xorout :: sub in1 (andout.or andout2)

/-- `add (in1, in2)`: `in1 + in2`, carry by carry from element `0` up. -/
def add : StdLogicVector → StdLogic → StdLogicVector
  | [], _ => []
  | b :: in1, carry =>
    let xorout := b.xor .zero
    let andout2 := b.and .zero
    let andout := xorout.and carry
    carry.xor xorout :: add in1 (andout.or andout2)

/-- A round of `sub`: an element of `tmp1` and the next borrow. -/
def subCell (b borrow : StdLogic) : StdLogic × StdLogic :=
  let xorout := b.xor .zero
  let andout2 := b.not.and .zero
  let andout := xorout.not.and borrow
  (borrow.xor xorout, andout.or andout2)

/-- A round of `add`. -/
def addCell (b carry : StdLogic) : StdLogic × StdLogic :=
  let xorout := b.xor .zero
  let andout2 := b.and .zero
  let andout := xorout.and carry
  (carry.xor xorout, andout.or andout2)

theorem sub_eq_digits (x : StdLogicVector) (c : StdLogic) : sub x c = Ripple.digits subCell x c := by
  induction x generalizing c with
  | nil => rfl
  | cons b x ih => exact congrArg _ (ih _)

theorem add_eq_digits (x : StdLogicVector) (c : StdLogic) : add x c = Ripple.digits addCell x c := by
  induction x generalizing c with
  | nil => rfl
  | cons b x ih => exact congrArg _ (ih _)

theorem keeps_subCell : Ripple.Keeps subCell Bit Bit Bit := by
  constructor <;> rintro b c (rfl | rfl) (rfl | rfl) <;> simp [subCell, Bit, StdLogic.xor, StdLogic.and,
    StdLogic.or, StdLogic.not, toUX01]

theorem keeps_addCell : Ripple.Keeps addCell Bit Bit Bit := by
  constructor <;> rintro b c (rfl | rfl) (rfl | rfl) <;> simp [addCell, Bit, StdLogic.xor, StdLogic.and,
    StdLogic.or, toUX01]

section
variable {cell : StdLogic → StdLogic → StdLogic × StdLogic} {x : StdLogicVector} {n : ℕ} {c : StdLogic}

theorem bits_digits (h : Ripple.Keeps cell Bit Bit Bit) (hx : x.Bits n) (hc : c.Bit) :
    StdLogicVector.Bits (Ripple.digits cell x c) n :=
  ⟨(Ripple.length_digits cell x c).trans hx.length, h.digits hx.bit hc⟩

theorem toNat_digits (h : Ripple.Keeps cell Bit Bit Bit) {w : StdLogic → ℤ}
    (hsum : ∀ b c, b.Bit → c.Bit → ((cell b c).1.toNat : ℤ) + 2 * w (cell b c).2 = b.toNat + w c)
    (hx : x.Bits n) (hc : c.Bit) :
    (StdLogicVector.toNat (Ripple.digits cell x c) : ℤ) = (x.toNat + w c) % 2 ^ n := by
  have hlt : ∀ b : StdLogic, b.Bit → b.toNat < 2 := by
    rintro b (rfl | rfl) <;> decide
  rw [toNat_eq_ofDigits, toNat_eq_ofDigits, h.ofDigits_digits_emod one_lt_two hlt hsum hx.bit hc, hx.length]
  rfl

theorem bits_sub (hx : x.Bits n) (hc : c.Bit) : StdLogicVector.Bits (sub x c) n :=
  sub_eq_digits x c ▸ bits_digits keeps_subCell hx hc

theorem bits_add (hx : x.Bits n) (hc : c.Bit) : StdLogicVector.Bits (add x c) n :=
  add_eq_digits x c ▸ bits_digits keeps_addCell hx hc

/-- A borrow is worth -1. -/
theorem toNat_sub (hx : x.Bits n) (hc : c.Bit) : ((sub x c).toNat : ℤ) = (x.toNat - c.toNat) % 2 ^ n := by
  have hsum : ∀ b c : StdLogic, b.Bit → c.Bit →
      ((subCell b c).1.toNat : ℤ) + 2 * -((subCell b c).2.toNat : ℤ) = b.toNat + -(c.toNat : ℤ) := by
    rintro b c (rfl | rfl) (rfl | rfl) <;> decide
  have hvalue := toNat_digits (w := fun c => -(c.toNat : ℤ)) keeps_subCell hsum hx hc
  rw [sub_eq_digits, hvalue, sub_eq_add_neg]

theorem toNat_add (hx : x.Bits n) (hc : c.Bit) : (add x c).toNat = (x.toNat + c.toNat) % 2 ^ n := by
  have hsum : ∀ b c : StdLogic, b.Bit → c.Bit →
      ((addCell b c).1.toNat : ℤ) + 2 * ((addCell b c).2.toNat : ℤ) = b.toNat + (c.toNat : ℤ) := by
    rintro b c (rfl | rfl) (rfl | rfl) <;> decide
  have hvalue := toNat_digits (w := fun c => (c.toNat : ℤ)) keeps_addCell hsum hx hc
  rw [← add_eq_digits] at hvalue
  exact_mod_cast hvalue

end

theorem add_slv (n v : ℕ) (c : Bool) : add (slv n v) (ofBool c) = slv n (v + c.toNat) := by
  have hvalue := toNat_add (bits_slv n v) (bit_ofBool c)
  rw [toNat_slv, toNat_ofBool, Nat.mod_add_mod] at hvalue
  rw [(bits_add (bits_slv n v) (bit_ofBool c)).eq_slv, hvalue]
  exact slv_congr (Nat.mod_mod _ _)

theorem sub_slv (n v : ℕ) (c : Bool) : sub (slv n v) (ofBool c) = slv n (v + 2 ^ n - c.toNat) := by
  have hvalue := toNat_sub (bits_slv n v) (bit_ofBool c)
  rw [toNat_slv, toNat_ofBool] at hvalue
  have hle : c.toNat ≤ v + 2 ^ n := (Bool.toNat_le c).trans (Nat.le_add_left_of_le Nat.one_le_two_pow)
  have hmod : ((v % 2 ^ n : ℕ) - c.toNat : ℤ) % 2 ^ n = ((v + 2 ^ n - c.toNat : ℕ) : ℤ) % 2 ^ n := by
    push_cast [Nat.cast_sub hle]
    rw [Int.emod_sub_emod, add_sub_right_comm, Int.add_emod_right]
  rw [hmod] at hvalue
  have hnat : (sub (slv n v) (ofBool c)).toNat = (v + 2 ^ n - c.toNat) % 2 ^ n := by exact_mod_cast hvalue
  rw [(bits_sub (bits_slv n v) (bit_ofBool c)).eq_slv, hnat]
  exact slv_congr (Nat.mod_mod _ _)

/-! ### The process -/

structure Encoder where
  nrstState : StdLogic
  chanAPrev : StdLogic
  chanBPrev : StdLogic
  dirInt : StdLogic
  posInt : StdLogicVector
  prevPos : StdLogicVector
  pos : StdLogicVector
  dir : StdLogic
deriving DecidableEq, Repr

/-- `"00100000…"`, the position at reset. -/
abbrev resetPos : ℕ := 0x20000000

/-- `"00111111…"`, the position that wraps to `1`. -/
abbrev topPos : ℕ := 0x3FFFFFFF

structure Sample where
  chanA : StdLogic
  chanB : StdLogic
deriving DecidableEq, Repr

namespace Encoder

/-- The assignment to `Pos_Int` in the edge decoder: a rising edge of channel A counts down while
channel B is high and up while it is low. -/
def count (s : Encoder) (i : Sample) : StdLogicVector :=
  if s.chanAPrev = .zero ∧ i.chanA = .one then
    if i.chanB = .one then sub s.posInt .one
    else if i.chanB = .zero then add s.posInt .one
    else s.posInt
  else s.posInt

/-- The wrap assignments to `Pos_Int`. They come last and so replace what `count` assigned. -/
def wrap (s : Encoder) (counted : StdLogicVector) : StdLogicVector :=
  if ge s.posInt (slv 32 topPos) ∧ s.dirInt = .zero then slv 32 1
  else if s.posInt = slv 32 0 ∧ s.dirInt = .one then slv 32 (topPos - 1)
  else counted

/-- The assignment to `Dir_Int`, one clock behind the movement it reports. -/
def direction (s : Encoder) : StdLogic :=
  if lt s.prevPos s.posInt then .zero
  else if lt s.posInt s.prevPos then .one
  else s.dirInt

/-- The asynchronous reset branch: the edge memory, the direction and the outputs keep their values. -/
def reset (s : Encoder) : Encoder :=
  { s with posInt := slv 32 resetPos, prevPos := slv 32 resetPos, nrstState := .one }

def clock (s : Encoder) (i : Sample) : Encoder :=
  { s with
    posInt := s.wrap (s.count i)
    dirInt := s.direction
    prevPos := s.posInt
    pos := s.posInt
    dir := s.dirInt
    chanAPrev := i.chanA
    chanBPrev := i.chanB }

/-- `process (nrst, clk)`; `rising` is `clk'event and clk = '1'`. -/
def process (s : Encoder) (nrst : StdLogic) (rising : Bool) (i : Sample) : Encoder :=
  if nrst = .one then s.reset
  else if s.nrstState = .one ∧ rising then s.clock i
  else s

/-- One rising clock with `nrst = '0'`. -/
def step (s : Encoder) (i : Sample) : Encoder := s.process .zero true i

/-- The clock counts up: a rising edge of channel A while channel B is low. -/
def UpEdge (s : Encoder) (i : Sample) : Prop :=
  s.chanAPrev = .zero ∧ i.chanA = .one ∧ i.chanB = .zero

/-- The clock counts down: a rising edge of channel A while channel B is high. -/
def DownEdge (s : Encoder) (i : Sample) : Prop :=
  s.chanAPrev = .zero ∧ i.chanA = .one ∧ i.chanB = .one

instance (s : Encoder) (i : Sample) : Decidable (UpEdge s i) :=
  inferInstanceAs (Decidable (_ ∧ _ ∧ _))

instance (s : Encoder) (i : Sample) : Decidable (DownEdge s i) :=
  inferInstanceAs (Decidable (_ ∧ _ ∧ _))

theorem step_of_nrstState {s : Encoder} (h : s.nrstState = .one) (i : Sample) : s.step i = s.clock i := by
  simp [step, process, h]

end Encoder

end Dcs
