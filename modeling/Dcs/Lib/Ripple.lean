import Mathlib.Data.Nat.Digits.Defs
import Mathlib.Tactic.LinearCombination

/-!
# Ripple circuits

A cell makes a digit and a carry of a digit and a carry. `digits` runs cells along a number, least digit
first, each on the carry of the one before. Where a cell keeps the sum of its digit and `r` times its
carry, the chain keeps the value of the number to the radix `r` (`Keeps.ofDigits_digits`): the carry of an
adder is worth 1, the borrow of a subtractor -1.

`rounds` is the same computation as a loop over the positions that assigns into arrays, and fails at an
index outside of them.
-/

namespace Ripple
universe u
variable {α β σ : Type u} (cell : α → σ → β × σ)

def digits : List α → σ → List β
  | [], _ => []
  | a :: as, s => (cell a s).1 :: digits as (cell a s).2

/-- The carry out of the last cell. -/
def lastCarry : List α → σ → σ
  | [], s => s
  | a :: as, s => lastCarry as (cell a s).2

@[simp] theorem length_digits (as : List α) (s : σ) : (digits cell as s).length = as.length := by
  induction as generalizing s with
  | nil => rfl
  | cons a as ih => simp [digits, ih]

theorem digits_append (as bs : List α) (s : σ) :
    digits cell (as ++ bs) s = digits cell as s ++ digits cell bs (lastCarry cell as s) := by
  induction as generalizing s with
  | nil => rfl
  | cons a as ih => exact congrArg _ (ih _)

theorem lastCarry_append (as bs : List α) (s : σ) :
    lastCarry cell (as ++ bs) s = lastCarry cell bs (lastCarry cell as s) := by
  induction as generalizing s with
  | nil => rfl
  | cons a as ih => exact ih _

/-! ### Cells that keep something -/

/-- On digits in `P` and carries in `Q` the cell yields digits in `P'` and carries in `Q`. -/
structure Keeps (P : α → Prop) (Q : σ → Prop) (P' : β → Prop) : Prop where
  digit : ∀ {a s}, P a → Q s → P' (cell a s).1
  carry : ∀ {a s}, P a → Q s → Q (cell a s).2

variable {cell} {P : α → Prop} {Q : σ → Prop} {P' : β → Prop}

theorem Keeps.digits (h : Keeps cell P Q P') {as : List α} (has : ∀ a ∈ as, P a) {s : σ} (hs : Q s) :
    ∀ b ∈ Ripple.digits cell as s, P' b := by
  induction as generalizing s with
  | nil => exact fun b hb => absurd hb List.not_mem_nil
  | cons a as ih =>
    obtain ⟨ha, has⟩ := List.forall_mem_cons.1 has
    exact List.forall_mem_cons.2 ⟨h.digit ha hs, ih has (h.carry ha hs)⟩

/-- A cell that takes back what another one does from the same carry undoes the whole chain. -/
theorem Keeps.digits_digits (h : Keeps cell P Q P') {cell' : β → σ → α × σ}
    (hinv : ∀ a s, P a → Q s → cell' (cell a s).1 s = (a, (cell a s).2)) {as : List α} (has : ∀ a ∈ as, P a)
    {s : σ} (hs : Q s) : Ripple.digits cell' (Ripple.digits cell as s) s = as := by
  induction as generalizing s with
  | nil => rfl
  | cons a as ih =>
    obtain ⟨ha, has⟩ := List.forall_mem_cons.1 has
    simp only [Ripple.digits, hinv a s ha hs, ih has (h.carry ha hs)]

section
variable {R : Type*} [CommRing R] {r : R} {u : α → ℕ} {v : β → ℕ} {w : σ → R}

/-- The value of the digits and of the last carry is that of the number and the first carry. -/
theorem Keeps.ofDigits_digits (h : Keeps cell P Q P')
    (hsum : ∀ a s, P a → Q s → (v (cell a s).1 : R) + r * w (cell a s).2 = u a + w s) {as : List α}
    (has : ∀ a ∈ as, P a) {s : σ} (hs : Q s) :
    Nat.ofDigits r ((Ripple.digits cell as s).map v) + r ^ as.length * w (lastCarry cell as s) =
      Nat.ofDigits r (as.map u) + w s := by
  induction as generalizing s with
  | nil => simp [Ripple.digits, lastCarry]
  | cons a as ih =>
    obtain ⟨ha, has⟩ := List.forall_mem_cons.1 has
    have hrest := ih has (h.carry ha hs)
    have hcell := hsum a s ha hs
    simp only [Ripple.digits, lastCarry, List.map_cons, Nat.ofDigits, List.length_cons, pow_succ]
    linear_combination r * hrest + hcell

end

/-- Where the digits are below the radix, the chain computes modulo its power to the length. -/
theorem Keeps.ofDigits_digits_emod (h : Keeps cell P Q P') {r : ℕ} (hr : 1 < r) {u : α → ℕ} {v : β → ℕ}
    (hv : ∀ b, P' b → v b < r) {w : σ → ℤ}
    (hsum : ∀ a s, P a → Q s → (v (cell a s).1 : ℤ) + r * w (cell a s).2 = u a + w s) {as : List α}
    (has : ∀ a ∈ as, P a) {s : σ} (hs : Q s) :
    ((Nat.ofDigits r ((Ripple.digits cell as s).map v) : ℕ) : ℤ) =
      ((Nat.ofDigits r (as.map u) : ℕ) + w s) % (r : ℤ) ^ as.length := by
  have hlt : Nat.ofDigits r ((Ripple.digits cell as s).map v) < r ^ as.length := by
    have hbelow : ∀ d ∈ (Ripple.digits cell as s).map v, d < r := List.forall_mem_map.2 fun b hb =>
      hv b (h.digits has hs b hb)
    have hlen := Nat.ofDigits_lt_base_pow_length hr hbelow
    rwa [List.length_map, length_digits] at hlen
  have hsum := h.ofDigits_digits hsum has hs
  rw [← Nat.coe_ofDigits, ← Nat.coe_ofDigits] at hsum
  rw [← hsum, Int.add_mul_emod_self_left, Int.emod_eq_of_lt (Int.natCast_nonneg _) (by exact_mod_cast hlt)]

/-! ### The loop -/

structure Arrays (β σ : Type u) where
  out : List β
  carry : List σ

/-- `l(i) := c`. -/
def assign {γ : Type*} (l : List γ) (i : ℕ) (c : γ) : Option (List γ) :=
  if i < l.length then some (l.set i c) else none

variable (cell)

/-- The body of the loop at position `i`. -/
def round (as : List α) (v : Arrays β σ) (i : ℕ) : Option (Arrays β σ) := do
  let a ← as[i]?
  let s ← v.carry[i]?
  let out ← assign v.out i (cell a s).1
  let carry ← assign v.carry (i + 1) (cell a s).2
  return ⟨out, carry⟩

/-- The first `n` rounds. -/
def rounds (as : List α) (v : Arrays β σ) : ℕ → Option (Arrays β σ)
  | 0 => some v
  | n + 1 => rounds as v n >>= fun v => round cell as v n

/-- The arrays after `n` rounds from `v₀`, whose first carry is `s`. -/
structure Filled (as : List α) (s : σ) (v₀ : Arrays β σ) (n : ℕ) (v : Arrays β σ) : Prop where
  out : v.out = digits cell (as.take n) s ++ v₀.out.drop n
  carry : v.carry[n]? = some (lastCarry cell (as.take n) s)
  length_carry : v.carry.length = v₀.carry.length

theorem assign_append_drop {γ : Type*} {l m : List γ} {n : ℕ} (hl : l.length = n) (hn : n < m.length) (c : γ) :
    assign (l ++ m.drop n) n c = some (l ++ [c] ++ m.drop (n + 1)) := by
  subst hl
  have hin : l.length < (l ++ m.drop l.length).length := by
    rw [List.length_append, List.length_drop]
    omega
  rw [assign, if_pos hin, List.set_append_right _ _ le_rfl, Nat.sub_self, List.drop_eq_getElem_cons hn,
    List.set_cons_zero, List.append_assoc, List.singleton_append]

variable {cell} {as : List α} {s : σ} {v v₀ : Arrays β σ} {n : ℕ}

theorem Filled.round (h : Filled cell as s v₀ n v) (hn : n < as.length) (hout : n < v₀.out.length)
    (hcarry : n + 1 < v₀.carry.length) :
    ∃ v', Ripple.round cell as v n = some v' ∧ Filled cell as s v₀ (n + 1) v' := by
  have htake : as.take (n + 1) = as.take n ++ [as[n]] := (List.take_append_getElem hn).symm
  have hlen : (Ripple.digits cell (as.take n) s).length = n := by
    rw [length_digits, List.length_take]
    omega
  have hnext : n + 1 < v.carry.length := h.length_carry ▸ hcarry
  have hround : Ripple.round cell as v n = some
      ⟨Ripple.digits cell (as.take n) s ++ [(cell as[n] (lastCarry cell (as.take n) s)).1] ++ v₀.out.drop (n + 1),
        v.carry.set (n + 1) (cell as[n] (lastCarry cell (as.take n) s)).2⟩ := by
    unfold Ripple.round
    rw [List.getElem?_eq_getElem hn, h.carry, h.out]
    simp only [Option.bind_eq_bind, Option.bind_some, assign_append_drop hlen hout]
    rw [assign, if_pos hnext]
    rfl
  refine ⟨_, hround, ?_, ?_, ?_⟩
  · rw [htake, digits_append]
    rfl
  · rw [htake, lastCarry_append, List.getElem?_set_self hnext]
    rfl
  · rw [List.length_set, h.length_carry]

/-- The loop fills the array with the digits of the chain. -/
theorem filled_rounds (hs : v₀.carry[0]? = some s) (hn : n ≤ as.length) (hout : n ≤ v₀.out.length)
    (hcarry : n < v₀.carry.length) : ∃ v, rounds cell as v₀ n = some v ∧ Filled cell as s v₀ n v := by
  induction n with
  | zero => exact ⟨v₀, rfl, rfl, hs, rfl⟩
  | succ n ih =>
    obtain ⟨v, hrun, hv⟩ := ih (by omega) (by omega) (by omega)
    obtain ⟨v', hround, hv'⟩ := hv.round (by omega) (by omega) hcarry
    exact ⟨v', by rw [rounds, hrun]; exact hround, hv'⟩

end Ripple
