import Mathlib.Tactic.Ring
import Mathlib.Data.List.Basic

/-!
# The memory of a C program

Memory is a set of objects, each a sequence of bytes; a pointer is an object and an offset into it,
and integers are stored with the low byte first. `storeEach` is the loop that assigns to the elements
of an array of integers one after another.
-/

namespace CMem

variable {Obj : Type*}

abbrev Memory (Obj : Type*) := Obj → ℕ → UInt8

structure Pointer (Obj : Type*) where
  obj : Obj
  offset : ℕ
deriving DecidableEq

def Pointer.add (p : Pointer Obj) (n : ℕ) : Pointer Obj := ⟨p.obj, p.offset + n⟩

/-- The `n` low bytes of `v`. -/
def leBytes : ℕ → ℕ → List UInt8
  | 0, _ => []
  | n + 1, v => UInt8.ofNat v :: leBytes n (v / 256)

/-- The value of bytes with the low one first. -/
def ofBytes : List UInt8 → ℕ
  | [] => 0
  | b :: bs => b.toNat + 256 * ofBytes bs

theorem getElem?_leBytes (n v i : ℕ) :
    (leBytes n v)[i]? = if i < n then some (UInt8.ofNat (v / 256 ^ i)) else none := by
  induction n generalizing v i with
  | zero => simp [leBytes]
  | succ n ih =>
    cases i with
    | zero => simp [leBytes]
    | succ i => simp [leBytes, ih, Nat.div_div_eq_div_mul, ← Nat.pow_succ']

@[simp] theorem length_leBytes (n v : ℕ) : (leBytes n v).length = n := by
  induction n generalizing v with
  | zero => rfl
  | succ n ih => rw [leBytes, List.length_cons, ih]

theorem ofBytes_leBytes (n v : ℕ) : ofBytes (leBytes n v) = v % 256 ^ n := by
  induction n generalizing v with
  | zero => rw [leBytes, ofBytes, Nat.pow_zero, Nat.mod_one]
  | succ n ih => rw [leBytes, ofBytes, ih, Nat.pow_succ', Nat.mod_mul, UInt8.toNat_ofNat']

namespace Memory

/-- The `n` bytes from `p` on. -/
def load (m : Memory Obj) (p : Pointer Obj) (n : ℕ) : List UInt8 :=
  (List.range n).map fun i => m p.obj (p.offset + i)

theorem load_eq_iff {m m' : Memory Obj} {p q : Pointer Obj} {n : ℕ} :
    m.load p n = m'.load q n ↔ ∀ i < n, m p.obj (p.offset + i) = m' q.obj (q.offset + i) := by
  simp [load]

variable [DecidableEq Obj]

/-- The assignment of the bytes `bs` to the place that `p` points to. -/
def store (m : Memory Obj) (p : Pointer Obj) (bs : List UInt8) : Memory Obj := fun o k =>
  if o = p.obj ∧ p.offset ≤ k then bs[k - p.offset]?.getD (m o k) else m o k

/-- `for (i = 0; i < n; i++) p[i] = v(i)` for elements of `size` bytes. -/
def storeEach (m : Memory Obj) (p : Pointer Obj) (size : ℕ) (v : ℕ → ℕ) : ℕ → Memory Obj
  | 0 => m
  | n + 1 => (storeEach m p size v n).store (p.add (size * n)) (leBytes size (v n))

variable {m : Memory Obj} {p : Pointer Obj} {o : Obj} {k : ℕ}

theorem store_outside {bs : List UInt8} (h : ¬ (o = p.obj ∧ p.offset ≤ k)) : m.store p bs o k = m o k :=
  if_neg h

theorem store_add (bs : List UInt8) (k : ℕ) :
    m.store p bs p.obj (p.offset + k) = bs[k]?.getD (m p.obj (p.offset + k)) := by
  rw [store, if_pos ⟨rfl, Nat.le_add_right _ _⟩, Nat.add_sub_cancel_left]

theorem store_add_add (bs : List UInt8) (a k : ℕ) : m.store (p.add a) bs p.obj (p.offset + k) =
    if a ≤ k then bs[k - a]?.getD (m p.obj (p.offset + k)) else m p.obj (p.offset + k) := by
  by_cases h : a ≤ k
  · obtain ⟨j, rfl⟩ := Nat.exists_eq_add_of_le h
    rw [if_pos h, Nat.add_sub_cancel_left, ← Nat.add_assoc]
    exact store_add (p := p.add a) bs j
  · rw [if_neg h, store_outside fun h' => h (Nat.le_of_add_le_add_left h'.2)]

theorem load_store (bs : List UInt8) : (m.store p bs).load p bs.length = bs := by
  refine List.ext_getElem? fun i => ?_
  rcases Nat.lt_or_ge i bs.length with hi | hi
  · rw [load, List.getElem?_map, List.getElem?_range hi, Option.map_some, store_add,
      List.getElem?_eq_getElem hi, Option.getD_some]
  · rw [List.getElem?_eq_none hi, List.getElem?_eq_none (by rwa [load, List.length_map, List.length_range])]

variable {size : ℕ} {v : ℕ → ℕ}

theorem storeEach_outside (h : ¬ (o = p.obj ∧ p.offset ≤ k)) (n : ℕ) : m.storeEach p size v n o k = m o k := by
  induction n with
  | zero => rfl
  | succ n ih =>
    have hout : ¬ (o = (p.add (size * n)).obj ∧ (p.add (size * n)).offset ≤ k) := fun h' =>
      h ⟨h'.1, Nat.le_trans (Nat.le_add_right _ _) h'.2⟩
    rw [storeEach, store_outside hout, ih]

/-- After the loop byte `k` of the array is byte `k % size` of element `k / size`. -/
theorem storeEach_add (hsize : 0 < size) (n k : ℕ) :
    m.storeEach p size v n p.obj (p.offset + k) =
      if k < size * n then UInt8.ofNat (v (k / size) / 256 ^ (k % size)) else m p.obj (p.offset + k) := by
  induction n with
  | zero => rw [if_neg (by omega)]; rfl
  | succ n ih =>
    rw [storeEach, store_add_add, ih, Nat.mul_succ]
    rcases Nat.lt_or_ge k (size * n) with hk | hk
    · rw [if_neg (by omega), if_pos hk, if_pos (by omega)]
    · obtain ⟨j, rfl⟩ := Nat.exists_eq_add_of_le hk
      have hlt : ¬ size * n + j < size * n := by omega
      rw [if_pos hk, Nat.add_sub_cancel_left, getElem?_leBytes, if_neg hlt]
      by_cases hj : j < size
      · have hdiv : (size * n + j) / size = n := by
          rw [Nat.mul_add_div hsize, Nat.div_eq_of_lt hj, Nat.add_zero]
        have hmod : (size * n + j) % size = j := by rw [Nat.mul_add_mod, Nat.mod_eq_of_lt hj]
        rw [if_pos hj, if_pos (Nat.add_lt_add_left hj _), hdiv, hmod, Option.getD_some]
      · rw [if_neg hj, if_neg fun h => hj (Nat.lt_of_add_lt_add_left h), Option.getD_none]

end Memory

end CMem
