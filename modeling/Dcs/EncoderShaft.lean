import Dcs.EncoderInv
import Mathlib.Algebra.Order.Group.Abs

/-!
# The counter and the shaft

The decoder counts one edge in four, the rising edge of channel A, by the level of channel B. A shaft
that leaves a high phase of A and comes back through the edge it left by is counted again although it
has not moved on (the branch for the falling edge, which would take the count back, is commented out).
`Shaft.turnBacks` counts these returns with their sign; up to them the counter follows the shaft.
-/

namespace Dcs
open Vhdl StdLogic StdLogicVector Clocked

/-- A shaft phase for each clock, at most one phase further or back per clock. -/
structure Shaft where
  x : ℕ → ℤ
  start : x 0 = 0
  slow : ∀ k, |x (k + 1) - x k| ≤ 1

/-- The two edges of channel A in a turn: between phases 0 and 1, and between phases 2 and 3. -/
inductive AEdge
  | zeroOne | twoThree
deriving DecidableEq, Repr

namespace Shaft

def highA (x : ℤ) : Bool := x % 4 = 1 ∨ x % 4 = 2

def highB (x : ℤ) : Bool := x % 4 = 2 ∨ x % 4 = 3

def sample (x : ℤ) : Sample := ⟨ofBool (highA x), ofBool (highB x)⟩

/-- The edge of channel A next to phase `x`. -/
def edge (x : ℤ) : AEdge := if x % 4 = 0 ∨ x % 4 = 1 then .zeroOne else .twoThree

/-- The edge channel A last fell through, after the shaft went from `x` to `x'`. -/
def fallen (e : Option AEdge) (x x' : ℤ) : Option AEdge :=
  if highA x = true ∧ highA x' = false then some (edge x) else e

/-- Channel A rises through the edge `e` it last fell through. -/
def Returns (e : Option AEdge) (x x' : ℤ) : Prop :=
  highA x = false ∧ highA x' = true ∧ e = some (edge x')

instance (e : Option AEdge) (x x' : ℤ) : Decidable (Returns e x x') :=
  inferInstanceAs (Decidable (_ ∧ _ ∧ _))

/-- The count such a return makes: one up through the edge of phases 0 and 1, one down through the
edge of phases 2 and 3. -/
def returnCount (e : Option AEdge) (x x' : ℤ) : ℤ :=
  if Returns e x x' then (match edge x' with | .zeroOne => 1 | .twoThree => -1) else 0

variable (w : Shaft)

/-- The edge channel A last fell through, up to sample `n`. -/
def lastFall : ℕ → Option AEdge
  | 0 => none
  | n + 1 => fallen (lastFall n) (w.x n) (w.x (n + 1))

/-- Between samples `n` and `n + 1` the shaft turns back through the edge by which it left channel A. -/
def TurnsBack (n : ℕ) : Prop := Returns (w.lastFall n) (w.x n) (w.x (n + 1))

/-- The counts made by turning back, up to sample `n`. -/
def turnBacks : ℕ → ℤ
  | 0 => 0
  | n + 1 => turnBacks n + returnCount (w.lastFall n) (w.x n) (w.x (n + 1))

theorem highA_iff {x : ℤ} : highA x = true ↔ x % 4 = 1 ∨ x % 4 = 2 := by simp [highA]

theorem not_highA_iff {x : ℤ} : highA x = false ↔ x % 4 = 0 ∨ x % 4 = 3 := by
  simp only [highA, decide_eq_false_iff_not]; omega

theorem turnBacks_eq_zero {n : ℕ} (h : ∀ k < n, ¬ w.TurnsBack k) : w.turnBacks n = 0 := by
  induction n with
  | zero => rfl
  | succ n ih =>
    have hn : ¬ Returns (w.lastFall n) (w.x n) (w.x (n + 1)) := h n (by omega)
    rw [turnBacks, ih fun k hk => h k (by omega), returnCount, if_neg hn, add_zero]

end Shaft

namespace Encoder
open Shaft

def position (s : Encoder) : ℕ := s.posInt.toNat

/-- The counter stands at neither of its wrap bounds. -/
def NotAtEnd (s : Encoder) : Prop := 0 < s.position ∧ s.position < topPos

/-- The decoder after a reset and the samples `x 0 … x n`. -/
def follow (w : Shaft) (s₀ : Encoder) (n : ℕ) : Encoder :=
  trace step s₀.reset (fun k => sample (w.x k)) (n + 1)

variable {w : Shaft} {s₀ s : Encoder} {p q n : ℕ}

theorem Inv.position_eq (h : s.Inv p q) : s.position = p := by
  rw [position, h.posInt, toNat_slv]
  exact Nat.mod_eq_of_lt (Nat.lt_of_le_of_lt h.le_top (by decide))

def edgeCount (x x' : ℤ) : ℤ :=
  if highA x = false ∧ x' % 4 = 1 then 1 else if highA x = false ∧ x' % 4 = 2 then -1 else 0

theorem Inv.position_step (h : s.Inv p q) (hp : 0 < p ∧ p < topPos) {x x' : ℤ}
    (hA : s.chanAPrev = ofBool (highA x)) :
    ((s.step (sample x')).position : ℤ) = p + edgeCount x x' := by
  have hup : s.UpEdge (sample x') ↔ highA x = false ∧ x' % 4 = 1 := by
    simp only [UpEdge, hA, sample, ofBool_eq_zero, ofBool_eq_one, highA_iff, highB,
      decide_eq_false_iff_not]
    exact and_congr_right fun _ => by omega
  have hdown : s.DownEdge (sample x') ↔ highA x = false ∧ x' % 4 = 2 := by
    simp only [DownEdge, hA, sample, ofBool_eq_zero, ofBool_eq_one, highA_iff, highB, decide_eq_true_eq]
    exact and_congr_right fun _ => by omega
  rw [(h.step _).position_eq, nextPos, if_neg (by omega), if_neg (by omega), counted, edgeCount]
  simp only [hup, hdown]
  split
  · simp
  split
  · rw [Nat.cast_sub (by omega : 1 ≤ p)]; simp; ring
  · simp

theorem chanAPrev_follow (w : Shaft) (s₀ : Encoder) (n : ℕ) :
    (follow w s₀ n).chanAPrev = ofBool (highA (w.x n)) := by
  obtain ⟨p, q, h⟩ := trace_inv s₀ (fun k => sample (w.x k)) n
  rw [follow, trace_succ, step_of_nrstState h.nrstState]
  rfl

theorem follow_succ (w : Shaft) (s₀ : Encoder) (n : ℕ) :
    follow w s₀ (n + 1) = (follow w s₀ n).step (sample (w.x (n + 1))) := rfl

theorem position_follow_zero (w : Shaft) (hA : s₀.chanAPrev = .zero) :
    (follow w s₀ 0).position = resetPos := by
  have hlow : s₀.reset.chanAPrev = ofBool (highA 0) := hA.trans (by simp [highA, ofBool])
  have h : ((follow w s₀ 0).position : ℤ) = resetPos + edgeCount 0 (w.x 0) :=
    (Inv.reset s₀).position_step (by decide) hlow
  have hcount : edgeCount 0 (w.x 0) = 0 := by rw [w.start]; decide
  rw [hcount, add_zero] at h
  exact_mod_cast h

theorem position_follow_succ (hend : NotAtEnd (follow w s₀ n)) :
    ((follow w s₀ (n + 1)).position : ℤ) =
      (follow w s₀ n).position + edgeCount (w.x n) (w.x (n + 1)) := by
  obtain ⟨p, q, h⟩ := trace_inv s₀ (fun k => sample (w.x k)) (n + 1)
  have hp : (follow w s₀ n).position = p := h.position_eq
  rw [NotAtEnd, hp] at hend
  rw [follow_succ, hp]
  exact h.position_step hend (chanAPrev_follow w s₀ n)

/-! ### The counter follows the shaft up to its turn-backs -/

/-- How the count `o` (turn-backs taken off) and the phase `x` are related: they agree on the number
of the turn, up to the constant `b` that depends on the side by which channel A was first entered.
While channel A is low, the edge it last fell through says which turn the count still shows. -/
def Tracks (o x : ℤ) : Option AEdge → Prop
  | none => (x = 0 ∨ x = -1) ∧ o = 0 ∨ highA x = true ∧ (o = x / 4 ∨ o = x / 4 + 1)
  | some e => ∃ b : ℤ, (b = 0 ∨ b = 1) ∧
      if highA x = true then o = x / 4 + b
      else match e with
        | .zeroOne => x % 4 = 0 ∧ o = x / 4 + b ∨ x % 4 = 3 ∧ o = x / 4 + 1 + b
        | .twoThree => x % 4 = 3 ∧ o = x / 4 + b ∨ x % 4 = 0 ∧ o = x / 4 - 1 + b

theorem Tracks.bound {o x : ℤ} {e : Option AEdge} (h : Tracks o x e) :
    -4 ≤ 4 * o - x ∧ 4 * o - x ≤ 5 := by
  cases e with
  | none =>
    rcases h with ⟨hx, ho⟩ | ⟨-, ho⟩ <;> omega
  | some e =>
    obtain ⟨b, hb, h⟩ := h
    split at h
    · omega
    · cases e <;> simp only at h <;> omega

theorem Tracks.of_high {o x : ℤ} {e : Option AEdge} (h : Tracks o x e) (hx : highA x = true) :
    o = x / 4 ∨ o = x / 4 + 1 := by
  cases e with
  | none =>
    rcases h with ⟨h0, -⟩ | ⟨-, ho⟩
    · rw [highA_iff] at hx; omega
    · exact ho
  | some e =>
    obtain ⟨b, hb, h⟩ := h
    rw [if_pos hx] at h; omega

theorem Tracks.stay {o x x' : ℤ} {e : Option AEdge} (h : Tracks o x e) (hx : |x' - x| ≤ 1)
    (hA : highA x' = highA x) : Tracks o x' e := by
  rw [abs_le] at hx
  cases hlow : highA x with
  | true =>
    rw [hlow] at hA
    have ho := h.of_high hlow
    rw [highA_iff] at hlow
    have hturn : x' / 4 = x / 4 := by rw [highA_iff] at hA; omega
    cases e with
    | none => exact .inr ⟨hA, by rwa [hturn]⟩
    | some e =>
      rcases ho with ho | ho
      · exact ⟨0, .inl rfl, by rw [if_pos hA]; omega⟩
      · exact ⟨1, .inr rfl, by rw [if_pos hA]; omega⟩
  | false =>
    rw [hlow] at hA
    cases e with
    | none =>
      rcases h with ⟨h0, ho⟩ | ⟨hx, -⟩
      · rw [not_highA_iff] at hA
        exact .inl ⟨by omega, ho⟩
      · rw [hlow] at hx; cases hx
    | some e =>
      obtain ⟨b, hb, h⟩ := h
      rw [if_neg (by simp [hlow])] at h
      refine ⟨b, hb, ?_⟩
      rw [if_neg (by simp [hA])]
      rw [not_highA_iff] at hA hlow
      cases e <;> simp only at h ⊢ <;> omega

/-- Channel A falls: from now on the edge of the fall says which turn the count shows. -/
theorem Tracks.fall {o x x' : ℤ} {e : Option AEdge} (h : Tracks o x e) (hx : |x' - x| ≤ 1)
    (hA : highA x = true) (hA' : highA x' = false) : Tracks o x' (some (edge x)) := by
  obtain ⟨b, hb, ho⟩ : ∃ b : ℤ, (b = 0 ∨ b = 1) ∧ o = x / 4 + b := by
    rcases h.of_high hA with ho | ho
    · exact ⟨0, .inl rfl, by omega⟩
    · exact ⟨1, .inr rfl, ho⟩
  refine ⟨b, hb, ?_⟩
  rw [if_neg (by simp [hA'])]
  rw [abs_le] at hx
  rw [highA_iff] at hA
  rw [not_highA_iff] at hA'
  rcases hA with hA | hA <;> simp only [edge, hA] <;> norm_num <;> omega

/-- Channel A rises: an edge is counted, and is taken off again if the shaft turned back. -/
theorem Tracks.rise {o x x' : ℤ} {e : Option AEdge} (h : Tracks o x e) (hx : |x' - x| ≤ 1)
    (hA : highA x = false) (hA' : highA x' = true) :
    Tracks (o + edgeCount x x' - returnCount e x x') x' e := by
  have hreturns : Returns e x x' ↔ e = some (edge x') := by simp [Returns, hA, hA']
  have hlow : ¬ highA x = true := by simp [hA]
  rw [abs_le] at hx
  rw [returnCount, edgeCount]
  simp only [hreturns, hA, true_and]
  rw [not_highA_iff] at hA
  have hhigh := highA_iff.1 hA'
  cases e with
  | none =>
    rcases h with ⟨h0, ho⟩ | ⟨hx, -⟩
    · refine .inr ⟨hA', ?_⟩
      rw [if_neg (by simp : ¬ (none : Option AEdge) = some (edge x'))]
      rcases hhigh with hhigh | hhigh <;> simp [hhigh] <;> omega
    · exact absurd hx hlow
  | some e =>
    obtain ⟨b, hb, h⟩ := h
    rw [if_neg hlow] at h
    refine ⟨b, hb, ?_⟩
    rw [if_pos hA']
    rcases hhigh with hhigh | hhigh <;> cases e <;> simp [edge, hhigh] at h ⊢ <;> omega

theorem edgeCount_of_not_rise {x x' : ℤ} (h : ¬ (highA x = false ∧ highA x' = true)) :
    edgeCount x x' = 0 := by
  rw [highA_iff] at h
  rw [edgeCount, if_neg fun h' => h ⟨h'.1, .inl h'.2⟩, if_neg fun h' => h ⟨h'.1, .inr h'.2⟩]

theorem returnCount_of_not_rise {e : Option AEdge} {x x' : ℤ}
    (h : ¬ (highA x = false ∧ highA x' = true)) : returnCount e x x' = 0 :=
  if_neg fun h' => h ⟨h'.1, h'.2.1⟩

theorem Tracks.step {o x x' : ℤ} {e : Option AEdge} (h : Tracks o x e) (hx : |x' - x| ≤ 1) :
    Tracks (o + edgeCount x x' - returnCount e x x') x' (fallen e x x') := by
  by_cases hrise : highA x = false ∧ highA x' = true
  · rw [fallen, if_neg (by simp [hrise.1])]
    exact h.rise hx hrise.1 hrise.2
  · rw [edgeCount_of_not_rise hrise, returnCount_of_not_rise hrise, add_zero, sub_zero, fallen]
    split
    · rename_i hfall
      exact h.fall hx hfall.1 hfall.2
    · rename_i hfall
      refine h.stay hx ?_
      cases hA : highA x <;> cases hA' : highA x' <;> simp_all

theorem tracks_follow (hA : s₀.chanAPrev = .zero) (hend : ∀ j ≤ n, NotAtEnd (follow w s₀ j)) :
    Tracks ((follow w s₀ n).position - resetPos - w.turnBacks n) (w.x n) (w.lastFall n) := by
  induction n with
  | zero =>
    rw [position_follow_zero w hA, w.start]
    exact .inl ⟨.inl rfl, by simp [turnBacks]⟩
  | succ n ih =>
    have h := (ih fun j hj => hend j (by omega)).step (w.slow n)
    rw [position_follow_succ (hend n (by omega)), turnBacks, lastFall]
    convert h using 1
    ring

/-- For every shaft and every run in which the counter stays off its wrap bounds, four times the
count less the turn-backs stays within five phases of the shaft. So a shaft that returns to its start
leaves the counter, turn-backs taken off, at most one count away, and a shaft that never turns back
through an edge of channel A keeps the counter with it. -/
theorem position_follows_shaft (w : Shaft) (s₀ : Encoder) (n : ℕ) (hA : s₀.chanAPrev = .zero)
    (hend : ∀ j ≤ n, NotAtEnd (follow w s₀ j)) :
    (-4 ≤ 4 * ((follow w s₀ n).position - resetPos - w.turnBacks n) - w.x n ∧
      4 * ((follow w s₀ n).position - resetPos - w.turnBacks n) - w.x n ≤ 5) ∧
    (w.x n = 0 → |((follow w s₀ n).position : ℤ) - resetPos - w.turnBacks n| ≤ 1) ∧
    ((∀ k < n, ¬ w.TurnsBack k) → |4 * (((follow w s₀ n).position : ℤ) - resetPos) - w.x n| ≤ 5) := by
  have h := (tracks_follow hA hend).bound
  refine ⟨h, fun h0 => ?_, fun hturn => ?_⟩
  · rw [abs_le]; omega
  · rw [w.turnBacks_eq_zero hturn] at h
    rw [abs_le]; omega

/-! ### A shaft the counter loses -/

/-- A shaft that goes back one phase in each turn, over the edge of phases 2 and 3:
`0 1 2 3 2 3 4 5 6 7 6 7 8 …`. -/
def stumbling : Shaft where
  x n := 4 * (n / 6 : ℕ) + if n % 6 < 4 then (n % 6 : ℕ) else (n % 6 : ℕ) - 2
  start := by decide
  slow n := by
    rw [abs_le]
    split <;> split <;> omega

/-- The count goes up at each entry of phase 1 and is taken back at each return to phase 2. -/
theorem position_stumbling (s₀ : Encoder) (hA : s₀.chanAPrev = .zero) (n : ℕ) :
    (follow stumbling s₀ n).position = resetPos + if 1 ≤ n % 6 ∧ n % 6 ≤ 3 then 1 else 0 := by
  induction n with
  | zero => rw [position_follow_zero stumbling hA]; rfl
  | succ n ih =>
    have htop : topPos = 0x3FFFFFFF := rfl
    have hreset : resetPos = 0x20000000 := rfl
    have hend : NotAtEnd (follow stumbling s₀ n) := by
      rw [NotAtEnd, ih]; split <;> omega
    have hcount : edgeCount (stumbling.x n) (stumbling.x (n + 1)) =
        (if 1 ≤ (n + 1) % 6 ∧ (n + 1) % 6 ≤ 3 then 1 else 0) - if 1 ≤ n % 6 ∧ n % 6 ≤ 3 then 1 else 0 := by
      simp only [edgeCount, not_highA_iff, stumbling]
      split_ifs <;> omega
    have h := position_follow_succ hend
    rw [hcount, ih] at h
    split_ifs at h ⊢ <;> omega

theorem notAtEnd_stumbling (s₀ : Encoder) (hA : s₀.chanAPrev = .zero) (n : ℕ) :
    NotAtEnd (follow stumbling s₀ n) := by
  have htop : topPos = 0x3FFFFFFF := rfl
  have hreset : resetPos = 0x20000000 := rfl
  rw [NotAtEnd, position_stumbling s₀ hA]
  split <;> omega

/-- A decoder as it comes out of power-up, with the edge memory low. -/
def powerUp : Encoder where
  nrstState := .U
  chanAPrev := .zero
  chanBPrev := .U
  dirInt := .U
  posInt := []
  prevPos := []
  pos := []
  dir := .U

theorem position_follows_shaft_stumbling :
    (-4 ≤ 4 * ((follow stumbling powerUp 9).position - resetPos - stumbling.turnBacks 9) - stumbling.x 9 ∧
      4 * ((follow stumbling powerUp 9).position - resetPos - stumbling.turnBacks 9) - stumbling.x 9 ≤ 5) ∧
    (stumbling.x 9 = 0 →
      |((follow stumbling powerUp 9).position : ℤ) - resetPos - stumbling.turnBacks 9| ≤ 1) ∧
    ((∀ k < 9, ¬ stumbling.TurnsBack k) →
      |4 * (((follow stumbling powerUp 9).position : ℤ) - resetPos) - stumbling.x 9| ≤ 5) :=
  position_follows_shaft stumbling powerUp 9 rfl fun j _ => notAtEnd_stumbling powerUp rfl j

/-- The count, turn-backs included, does not stay within any distance of the shaft. -/
theorem position_drifts : ¬ ∃ C : ℤ, ∀ (w : Shaft) (s₀ : Encoder) (n : ℕ), s₀.chanAPrev = .zero →
    (∀ j ≤ n, NotAtEnd (follow w s₀ j)) →
    |4 * (((follow w s₀ n).position : ℤ) - resetPos) - w.x n| ≤ C := by
  rintro ⟨C, hC⟩
  -- after `C + 1` turns the count is back at the reset position
  have h := hC stumbling powerUp (6 * (C.toNat + 1)) rfl fun j _ => notAtEnd_stumbling powerUp rfl j
  rw [position_stumbling powerUp rfl, abs_le] at h
  have hx : stumbling.x (6 * (C.toNat + 1)) = 4 * (C.toNat + 1) := by simp [stumbling]
  rw [hx, if_neg (by omega)] at h
  push_cast at h
  omega

end Encoder

end Dcs
