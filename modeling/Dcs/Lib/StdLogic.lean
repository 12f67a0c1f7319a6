import Mathlib.Tactic.Ring
import Mathlib.Data.Nat.Digits.Defs
import Mathlib.Data.Nat.ModEq

/-!
# `std_logic`, `std_logic_vector` and `integer`

The part of VHDL's predefined types that synchronous designs compute with: the nine-valued
`std_logic` with the operators of `IEEE.STD_LOGIC_1164`, vectors of it with the predefined
(lexicographic) ordering, and 32-bit integers. `slv n v` is the vector of the `n` low bits of `v`;
the lemmas say what the vector operations are on such vectors.
-/

namespace Vhdl

/-- `std_logic`, in declaration order: `'U' 'X' '0' '1' 'Z' 'W' 'L' 'H' '-'`. -/
inductive StdLogic
  | U | X | zero | one | Z | W | L | H | dontCare
deriving DecidableEq, Repr

namespace StdLogic

/-- The position of a value in the enumeration, by which `<` compares. -/
def pos : StdLogic → Nat
  | U => 0 | X => 1 | zero => 2 | one => 3 | Z => 4 | W => 5 | L => 6 | H => 7 | dontCare => 8

/-- `To_UX01`: the strength of a value is dropped before a table lookup. -/
def toUX01 : StdLogic → StdLogic
  | U => U
  | zero | L => zero
  | one | H => one
  | X | Z | W | dontCare => X

def and (a b : StdLogic) : StdLogic :=
  match a.toUX01, b.toUX01 with
  | zero, _ | _, zero => zero
  | U, _ | _, U => U
  | one, one => one
  | _, _ => X

def or (a b : StdLogic) : StdLogic :=
  match a.toUX01, b.toUX01 with
  | one, _ | _, one => one
  | U, _ | _, U => U
  | zero, zero => zero
  | _, _ => X

def xor (a b : StdLogic) : StdLogic :=
  match a.toUX01, b.toUX01 with
  | U, _ | _, U => U
  | zero, zero | one, one => zero
  | zero, one | one, zero => one
  | _, _ => X

def not (a : StdLogic) : StdLogic :=
  match a.toUX01 with
  | zero => one
  | one => zero
  | a => a

def ofBool (b : Bool) : StdLogic := if b then one else zero

@[simp] theorem ofBool_eq_one {b : Bool} : ofBool b = one ↔ b = true := by cases b <;> decide

@[simp] theorem ofBool_eq_zero {b : Bool} : ofBool b = zero ↔ b = false := by cases b <;> decide

/-- `'0'` or `'1'`. -/
def Bit (b : StdLogic) : Prop := b = zero ∨ b = one

theorem bit_ofBool (b : Bool) : (ofBool b).Bit := by cases b <;> simp [Bit, ofBool]

/-- The value of a bit, as in `StdLogicVector.toNat`. -/
def toNat (b : StdLogic) : Nat := if b = one then 1 else 0

@[simp] theorem toNat_ofBool (b : Bool) : (ofBool b).toNat = b.toNat := by cases b <;> rfl

end StdLogic

/-- A `std_logic_vector (n-1 downto 0)`; the head of the list is element `0`. -/
abbrev StdLogicVector := List StdLogic

namespace StdLogicVector

/-- The ordering of arrays of a discrete type: lexicographic from the leftmost element. -/
def lexLt : List StdLogic → List StdLogic → Bool
  | [], [] => false
  | [], _ :: _ => true
  | _ :: _, [] => false
  | a :: as, b :: bs => decide (a.pos < b.pos) || (decide (a = b) && lexLt as bs)

/-- `x < y`; the leftmost element of a `downto` vector is the last one of the list. -/
def lt (x y : StdLogicVector) : Bool := lexLt x.reverse y.reverse

def ge (x y : StdLogicVector) : Bool := !lt x y

/-- The unsigned value of a vector, reading every value but `'1'` as a zero bit. -/
def toNat : StdLogicVector → Nat
  | [] => 0
  | b :: bs => (if b = .one then 1 else 0) + 2 * toNat bs

theorem toNat_cons (b : StdLogic) (x : StdLogicVector) : toNat (b :: x) = b.toNat + 2 * x.toNat := rfl

theorem toNat_eq_ofDigits (x : StdLogicVector) : x.toNat = Nat.ofDigits 2 (x.map StdLogic.toNat) := by
  induction x with
  | nil => rfl
  | cons b x ih =>
    rw [toNat_cons, ih]
    rfl

/-- A vector of `n` bits. -/
structure Bits (x : StdLogicVector) (n : Nat) : Prop where
  length : x.length = n
  bit : ∀ b ∈ x, b.Bit

theorem lexLt_append_singleton : ∀ {as bs : List StdLogic} (a b : StdLogic),
    as.length = bs.length →
    lexLt (as ++ [a]) (bs ++ [b]) = (lexLt as bs || (decide (as = bs) && decide (a.pos < b.pos)))
  | [], [], a, b, _ => by simp [lexLt]
  | x :: as, y :: bs, a, b, h => by
    simp only [List.cons_append, lexLt, lexLt_append_singleton a b (by simpa using h)]
    by_cases hxy : x = y
    · subst hxy; simp
    · simp [hxy]

end StdLogicVector

open StdLogicVector

/-- The vector of the `n` low bits of `v`. -/
def slv : Nat → Nat → StdLogicVector
  | 0, _ => []
  | n + 1, v => StdLogic.ofBool (v % 2 == 1) :: slv n (v / 2)

@[simp] theorem length_slv (n v : Nat) : (slv n v).length = n := by
  induction n generalizing v with
  | zero => rfl
  | succ n ih => simp [slv, ih]

@[simp] theorem toNat_slv (n v : Nat) : (slv n v).toNat = v % 2 ^ n := by
  induction n generalizing v with
  | zero => simp [slv, StdLogicVector.toNat, Nat.mod_one]
  | succ n ih =>
    have hmod : v % 2 ^ (n + 1) = v % 2 + 2 * (v / 2 % 2 ^ n) := by
      rw [Nat.pow_succ', Nat.mod_mul]
    rw [hmod]
    rcases Nat.mod_two_eq_zero_or_one v with h | h <;> simp [slv, StdLogicVector.toNat, ih, h]

theorem slv_congr {n u v : Nat} (h : u % 2 ^ n = v % 2 ^ n) : slv n u = slv n v := by
  induction n generalizing u v with
  | zero => rfl
  | succ n ih =>
    rw [Nat.pow_succ', Nat.mod_mul, Nat.mod_mul] at h
    have hlow : u % 2 = v % 2 := by omega
    have hhigh : u / 2 % 2 ^ n = v / 2 % 2 ^ n := by omega
    simp only [slv, hlow, ih hhigh]

theorem slv_inj {n u v : Nat} (hu : u < 2 ^ n) (hv : v < 2 ^ n) : slv n u = slv n v ↔ u = v := by
  refine ⟨fun h => ?_, fun h => h ▸ rfl⟩
  have := congrArg StdLogicVector.toNat h
  rwa [toNat_slv, toNat_slv, Nat.mod_eq_of_lt hu, Nat.mod_eq_of_lt hv] at this

theorem bits_slv (n v : Nat) : (slv n v).Bits n := by
  refine ⟨length_slv n v, ?_⟩
  induction n generalizing v with
  | zero => simp [slv]
  | succ n ih => exact List.forall_mem_cons.2 ⟨StdLogic.bit_ofBool _, ih (v / 2)⟩

/-- A vector of bits is the one of its value. -/
theorem StdLogicVector.Bits.eq_slv {x : StdLogicVector} {n : Nat} (hx : x.Bits n) : x = slv n x.toNat := by
  obtain ⟨rfl, hbit⟩ := hx
  induction x with
  | nil => rfl
  | cons b x ih =>
    obtain ⟨hb, hx⟩ := List.forall_mem_cons.1 hbit
    have hdiv : (b.toNat + 2 * StdLogicVector.toNat x) / 2 = StdLogicVector.toNat x := by
      unfold StdLogic.toNat
      split <;> omega
    have hlow : StdLogic.ofBool ((b.toNat + 2 * StdLogicVector.toNat x) % 2 == 1) = b := by
      rcases hb with rfl | rfl <;> simp [StdLogic.toNat, StdLogic.ofBool, Nat.add_mod]
    rw [List.length_cons, slv, toNat_cons, hdiv, hlow, ← ih hx]

/-- On vectors of bits the predefined ordering is the one of the unsigned values. -/
theorem lt_slv {n u v : Nat} (hu : u < 2 ^ n) (hv : v < 2 ^ n) :
    lt (slv n u) (slv n v) = decide (u < v) := by
  induction n generalizing u v with
  | zero =>
    simp only [Nat.pow_zero, Nat.lt_one_iff] at hu hv
    subst hu hv; rfl
  | succ n ih =>
    have hu' : u / 2 < 2 ^ n := by rw [Nat.pow_succ] at hu; omega
    have hv' : v / 2 < 2 ^ n := by rw [Nat.pow_succ] at hv; omega
    have ih := ih hu' hv'
    simp only [lt] at ih
    simp only [lt, slv, List.reverse_cons]
    rw [lexLt_append_singleton _ _ (by simp), ih]
    have hinj : (slv n (u / 2)).reverse = (slv n (v / 2)).reverse ↔ u / 2 = v / 2 := by
      rw [List.reverse_inj, slv_inj hu' hv']
    have hbit : (StdLogic.ofBool (u % 2 == 1)).pos < (StdLogic.ofBool (v % 2 == 1)).pos ↔
        u % 2 < v % 2 := by
      rcases Nat.mod_two_eq_zero_or_one u with h | h <;>
        rcases Nat.mod_two_eq_zero_or_one v with h' | h' <;> simp [h, h', StdLogic.ofBool, StdLogic.pos]
    have hsplit : u < v ↔ u / 2 < v / 2 ∨ u / 2 = v / 2 ∧ u % 2 < v % 2 := by omega
    simp only [hinj, hbit, hsplit, Bool.decide_or, Bool.decide_and]

theorem ge_slv {n u v : Nat} (hu : u < 2 ^ n) (hv : v < 2 ^ n) :
    ge (slv n u) (slv n v) = decide (v ≤ u) := by
  rw [ge, lt_slv hu hv, ← decide_not, decide_eq_decide]
  omega

/-! ### `integer` -/

/-- An `integer` is a 32-bit two's complement word: what leaves its range wraps around. -/
def wrapInt (x : Int) : Int := x.bmod (2 ^ 32)

theorem wrapInt_of_range {x : Int} (h : -2 ^ 31 ≤ x) (h' : x < 2 ^ 31) : wrapInt x = x := by
  unfold wrapInt; rw [Int.bmod_def]; split <;> omega

end Vhdl
