import Dcs.EncoderCore
import Mathlib.Data.Int.ModEq

/-!
# The position counter across its wrap-around

`Encoder.Inv p q`: the counter shows `p` and showed `q` one clock ago. The wrap assignment replaces a
count made in the same clock, so the invariant says that no count can be made there: the two end
positions are left after one clock, because `Dir_Int` already agrees with the movement that reached
them, and channel A cannot rise in that clock because it rose in the one before.
-/

namespace Dcs
open Vhdl StdLogic StdLogicVector Clocked

namespace Encoder

structure Inv (s : Encoder) (p q : ℕ) : Prop where
  nrstState : s.nrstState = .one
  posInt : s.posInt = slv 32 p
  prevPos : s.prevPos = slv 32 q
  le_top : p ≤ topPos
  prev_le_top : q ≤ topPos
  /-- At an end the direction is that of the movement that led there, and no edge is due. -/
  at_top : p = topPos → s.dirInt = .zero ∧ s.chanAPrev ≠ .zero
  at_zero : p = 0 → s.dirInt = .one ∧ s.chanAPrev ≠ .zero
  /-- Next to an end the direction is, or is about to be, the one away from it. -/
  below_top : p = topPos - 1 → q < p ∨ q = p ∧ s.dirInt = .zero
  above_zero : p = 1 → p < q ∨ q = p ∧ s.dirInt = .one

def counted (s : Encoder) (i : Sample) (p : ℕ) : ℕ :=
  if s.UpEdge i then p + 1 else if s.DownEdge i then p - 1 else p

/-- What a whole clock makes of position `p`. -/
def nextPos (s : Encoder) (i : Sample) (p : ℕ) : ℕ :=
  if p = topPos then 1 else if p = 0 then topPos - 1 else s.counted i p

variable {s : Encoder} {p q : ℕ}

theorem not_up_and_down {i : Sample} (hu : s.UpEdge i) (hd : s.DownEdge i) : False := by
  have := hu.2.2.symm.trans hd.2.2
  cases this

theorem count_eq (i : Sample) (hp : s.posInt = slv 32 p) (h0 : 0 < p) :
    s.count i = slv 32 (s.counted i p) := by
  have hsub : sub (slv 32 p) .one = slv 32 (p - 1) := by
    rw [show StdLogic.one = ofBool true from rfl, sub_slv]
    exact slv_congr (by simp only [Bool.toNat_true]; omega)
  have hadd : add (slv 32 p) .one = slv 32 (p + 1) := add_slv 32 p true
  rw [Encoder.count, hp, hsub, hadd, counted]
  by_cases hrise : s.chanAPrev = .zero ∧ i.chanA = .one
  · rw [if_pos hrise]
    by_cases hB : i.chanB = .one
    · have hd : s.DownEdge i := ⟨hrise.1, hrise.2, hB⟩
      rw [if_pos hB, if_neg fun hu => not_up_and_down hu hd, if_pos hd]
    · rw [if_neg hB, if_neg (fun hd : s.DownEdge i => hB hd.2.2)]
      by_cases hB' : i.chanB = .zero
      · rw [if_pos hB', if_pos ⟨hrise.1, hrise.2, hB'⟩]
      · rw [if_neg hB', if_neg fun hu : s.UpEdge i => hB' hu.2.2]
  · rw [if_neg hrise, if_neg fun hu : s.UpEdge i => hrise ⟨hu.1, hu.2.1⟩,
      if_neg fun hd : s.DownEdge i => hrise ⟨hd.1, hd.2.1⟩]

theorem Inv.posInt_next (h : s.Inv p q) (i : Sample) :
    s.wrap (s.count i) = slv 32 (s.nextPos i p) := by
  have htop : (topPos : ℕ) < 2 ^ 32 := by decide
  have hp : p < 2 ^ 32 := Nat.lt_of_le_of_lt h.le_top htop
  have hge : ge s.posInt (slv 32 topPos) = true ↔ p = topPos := by
    rw [h.posInt, ge_slv hp htop, decide_eq_true_eq]
    exact ⟨fun h' => le_antisymm h.le_top h', fun h' => h'.ge⟩
  have hzero : s.posInt = slv 32 0 ↔ p = 0 := by rw [h.posInt, slv_inj hp (by decide)]
  unfold wrap nextPos
  by_cases ht : p = topPos
  · rw [if_pos ⟨hge.2 ht, (h.at_top ht).1⟩, if_pos ht]
  by_cases h0 : p = 0
  · rw [if_neg fun h' => ht (hge.1 h'.1), if_pos ⟨hzero.2 h0, (h.at_zero h0).1⟩, if_neg ht, if_pos h0]
  · rw [if_neg fun h' => ht (hge.1 h'.1), if_neg fun h' => h0 (hzero.1 h'.1), if_neg ht, if_neg h0,
      count_eq i h.posInt (Nat.pos_of_ne_zero h0)]

theorem Inv.direction_eq (h : s.Inv p q) :
    s.direction = if q < p then .zero else if p < q then .one else s.dirInt := by
  have hp : p < 2 ^ 32 := Nat.lt_of_le_of_lt h.le_top (by decide)
  have hq : q < 2 ^ 32 := Nat.lt_of_le_of_lt h.prev_le_top (by decide)
  simp only [Encoder.direction, h.posInt, h.prevPos, lt_slv hp hq, lt_slv hq hp, decide_eq_true_eq]

theorem Inv.direction_below_top (h : s.Inv p q) (hp : p = topPos - 1) : s.direction = .zero := by
  rw [h.direction_eq]
  rcases h.below_top hp with hlt | ⟨heq, hd⟩
  · rw [if_pos hlt]
  · rw [if_neg (by omega), if_neg (by omega), hd]

theorem Inv.direction_above_zero (h : s.Inv p q) (hp : p = 1) : s.direction = .one := by
  rw [h.direction_eq]
  rcases h.above_zero hp with hlt | ⟨heq, hd⟩
  · rw [if_neg (by omega), if_pos hlt]
  · rw [if_neg (by omega), if_neg (by omega), hd]

theorem counted_near (i : Sample) (p : ℕ) : s.counted i p ≤ p + 1 ∧ p ≤ s.counted i p + 1 := by
  unfold counted; split
  · omega
  · split <;> omega

theorem nextPos_cases (s : Encoder) (i : Sample) (p : ℕ) :
    (p = topPos ∧ s.nextPos i p = 1) ∨ (p = 0 ∧ s.nextPos i p = topPos - 1) ∨
      (p ≠ topPos ∧ p ≠ 0 ∧ s.nextPos i p = s.counted i p) := by
  unfold nextPos
  by_cases ht : p = topPos
  · exact .inl ⟨ht, if_pos ht⟩
  · by_cases h0 : p = 0
    · exact .inr (.inl ⟨h0, by rw [if_neg ht, if_pos h0]⟩)
    · exact .inr (.inr ⟨ht, h0, by rw [if_neg ht, if_neg h0]⟩)

/-- Away from the ends the position moves by a rise of channel A, so the edge memory is set after it. -/
theorem chanAPrev_of_nextPos_ne {i : Sample} (hne : s.nextPos i p ≠ p) (ht : p ≠ topPos) (h0 : p ≠ 0) :
    (s.clock i).chanAPrev ≠ .zero := by
  have hrise : i.chanA = .one := by
    rw [nextPos, if_neg ht, if_neg h0, counted] at hne
    split at hne
    · rename_i hu; exact hu.2.1
    split at hne
    · rename_i hd; exact hd.2.1
    · exact absurd rfl hne
  intro hz
  rw [show (s.clock i).chanAPrev = i.chanA from rfl, hrise] at hz
  cases hz

theorem Inv.step (h : s.Inv p q) (i : Sample) : (s.step i).Inv (s.nextPos i p) p := by
  rw [step_of_nrstState h.nrstState]
  have htop : topPos = 0x3FFFFFFF := rfl
  have hle := h.le_top
  have hnear := counted_near (s := s) i p
  have hcases := nextPos_cases s i p
  refine ⟨h.nrstState, h.posInt_next i, h.posInt, ?_, h.le_top, ?_, ?_, ?_, ?_⟩
  · rcases hcases with ⟨hp, e⟩ | ⟨hp, e⟩ | ⟨ht, h0, e⟩ <;> omega
  · -- the top is reached from the position below it, where the direction is fixed
    intro hnew
    have hp : p = topPos - 1 := by rcases hcases with ⟨hp, e⟩ | ⟨hp, e⟩ | ⟨ht, h0, e⟩ <;> omega
    exact ⟨h.direction_below_top hp, chanAPrev_of_nextPos_ne (p := p) (by omega) (by omega) (by omega)⟩
  · intro hnew
    have hp : p = 1 := by rcases hcases with ⟨hp, e⟩ | ⟨hp, e⟩ | ⟨ht, h0, e⟩ <;> omega
    exact ⟨h.direction_above_zero hp, chanAPrev_of_nextPos_ne (p := p) (by omega) (by omega) (by omega)⟩
  · intro hnew
    by_cases heq : p = topPos - 1
    · exact .inr ⟨by omega, h.direction_below_top heq⟩
    · left; rcases hcases with ⟨hp, e⟩ | ⟨hp, e⟩ | ⟨ht, h0, e⟩ <;> omega
  · intro hnew
    by_cases heq : p = 1
    · exact .inr ⟨by omega, h.direction_above_zero heq⟩
    · left; rcases hcases with ⟨hp, e⟩ | ⟨hp, e⟩ | ⟨ht, h0, e⟩ <;> omega

/-! ### Counted edges -/

theorem Inv.no_edge_at_end (h : s.Inv p q) (hp : p = topPos ∨ p = 0) (i : Sample) :
    ¬ s.UpEdge i ∧ ¬ s.DownEdge i := by
  have hA : s.chanAPrev ≠ .zero := by
    rcases hp with hp | hp
    · exact (h.at_top hp).2
    · exact (h.at_zero hp).2
  exact ⟨fun hu => hA hu.1, fun hd => hA hd.1⟩

theorem counted_cast (i : Sample) (hp : 0 < p) :
    (s.counted i p : ℤ) =
      p + (if s.UpEdge i then 1 else 0 : ℕ) - (if s.DownEdge i then 1 else 0 : ℕ) := by
  rw [counted]
  by_cases hu : s.UpEdge i
  · rw [if_pos hu, if_pos hu, if_neg fun hd => not_up_and_down hu hd]
    push_cast
    ring
  by_cases hd : s.DownEdge i
  · rw [if_neg hu, if_neg hu, if_pos hd, if_pos hd]
    push_cast [Nat.cast_sub hp]
    ring
  · rw [if_neg hu, if_neg hu, if_neg hd, if_neg hd]
    simp

/-- A clock moves the position by the edge it counts, modulo the length of the wrapped range. -/
theorem Inv.nextPos_modEq (h : s.Inv p q) (i : Sample) :
    (s.nextPos i p : ℤ) ≡
      p + (if s.UpEdge i then 1 else 0 : ℕ) - (if s.DownEdge i then 1 else 0 : ℕ) [ZMOD 0x3FFFFFFE] := by
  unfold nextPos
  by_cases ht : p = topPos
  · obtain ⟨hu, hd⟩ := h.no_edge_at_end (.inl ht) i
    rw [if_pos ht, if_neg hu, if_neg hd, ht]; decide
  by_cases h0 : p = 0
  · obtain ⟨hu, hd⟩ := h.no_edge_at_end (.inr h0) i
    rw [if_neg ht, if_pos h0, if_neg hu, if_neg hd, h0]; decide
  · rw [if_neg ht, if_neg h0, counted_cast i (Nat.pos_of_ne_zero h0)]

theorem Inv.reset (s : Encoder) : s.reset.Inv resetPos resetPos := by
  refine ⟨rfl, rfl, rfl, by decide, by decide, ?_, ?_, ?_, ?_⟩ <;> intro h <;> cases h

theorem trace_inv (s₀ : Encoder) (inp : ℕ → Sample) (n : ℕ) :
    ∃ p q, (trace step s₀.reset inp n).Inv p q :=
  trace_induction (I := fun _ (s : Encoder) => ∃ p q, s.Inv p q) ⟨_, _, Inv.reset s₀⟩
    (fun n _ ⟨_, _, h⟩ => ⟨_, _, h.step (inp n)⟩) n

/-- In every run from a reset the position is the reset position plus the up edges minus the down
edges so far, modulo the length of the wrapped range: no edge is lost or counted twice, at the wrap
neither. -/
theorem posInt_counts_edges (s₀ : Encoder) (inp : ℕ → Sample) (n : ℕ) :
    ∃ p : ℕ, (trace step s₀.reset inp n).posInt = slv 32 p ∧ p ≤ topPos ∧
      (p : ℤ) ≡ resetPos + Clocked.count step UpEdge s₀.reset inp n -
        Clocked.count step DownEdge s₀.reset inp n [ZMOD 0x3FFFFFFE] := by
  suffices h : ∃ p q, (trace step s₀.reset inp n).Inv p q ∧
      (p : ℤ) ≡ resetPos + Clocked.count step UpEdge s₀.reset inp n -
        Clocked.count step DownEdge s₀.reset inp n [ZMOD 0x3FFFFFFE] by
    obtain ⟨p, q, hinv, hp⟩ := h
    exact ⟨p, hinv.posInt, hinv.le_top, hp⟩
  induction n with
  | zero => exact ⟨_, _, Inv.reset s₀, by simp [Int.ModEq]⟩
  | succ n ih =>
    obtain ⟨p, q, hinv, hp⟩ := ih
    refine ⟨_, _, hinv.step (inp n), (hinv.nextPos_modEq (inp n)).trans ?_⟩
    have hedges := (hp.add_right (if UpEdge (trace step s₀.reset inp n) (inp n) then 1 else 0 : ℕ)).sub_right
      (if DownEdge (trace step s₀.reset inp n) (inp n) then 1 else 0 : ℕ)
    rw [count_succ, count_succ, Nat.cast_add, Nat.cast_add]
    convert hedges using 1
    ring

end Encoder

end Dcs
