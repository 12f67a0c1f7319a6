import Dcs.PwmDuty
import Mathlib.Data.Finset.Lattice.Fold

/-!
# Widths that change while the pulse runs

The width in effect may be another one at every clock. The output falls only at a clock at which the
counter equals the width in effect, so a pulse lasts up to the first such clock of its period, and for
the whole period if there is none.
-/

namespace Dcs
open Vhdl StdLogic StdLogicVector Clocked

namespace Pwm

/-- The core in front of clock `n` of the run in which `w k` is the width in effect at clock `k`. -/
def changing (f : ℕ) (w : ℕ → ℕ) (c : ℤ) (p : StdLogic) (n : ℕ) : Option Pwm :=
  tryTrace step ⟨f, w 0, c, p⟩ (fun k => ports f (w (k + 1))) n

/-- A clock at a constant period, with the width that the ports show for the next one. -/
def retune (s : Pwm) (i : PwmPorts) : Pwm := { s.next i with widthInt := bin2int i.width }

def tuned (f : ℕ) (w : ℕ → ℕ) (c : ℤ) (p : StdLogic) (n : ℕ) : Pwm :=
  trace retune ⟨f, w 0, c, p⟩ (fun k => ports f (w (k + 1))) n

variable {f : ℕ} {w : ℕ → ℕ} {c : ℤ} {p : StdLogic}

theorem tuned_succ (n : ℕ) : tuned f w c p (n + 1) = (tuned f w c p n).retune (ports f (w (n + 1))) := rfl

theorem step_retune (hf : 0 < f) (hf' : f < 2 ^ 31) {s : Pwm} (hs : s.freqInt = f) (v : ℕ) :
    s.step (ports f v) = some (s.retune (ports f v)) := by
  have hne : s.freqInt ≠ 0 := by rw [hs]; omega
  simp only [step, process, reduceCtorEq, ↓reduceIte, and_self, clock, if_neg hne, Option.map_some,
    ports, bin2int_slv_of_lt hf', retune, Pwm.next, ← hs]

theorem changing_eq (hf : 0 < f) (hf' : f < 2 ^ 31) (n : ℕ) :
    changing f w c p n = some (tuned f w c p n) :=
  tryTrace_eq_some (I := fun s : Pwm => s.freqInt = (f : ℤ)) rfl (fun n _ h => step_retune hf hf' h (w (n + 1)))
    (fun _ _ h => h) n

theorem tuned_holds (hw : ∀ n, w n < 2 ^ 31) (n : ℕ) : (tuned f w c p n).Holds f (w n) := by
  induction n with
  | zero => exact ⟨rfl, rfl⟩
  | succ n ih => exact ⟨ih.1, bin2int_slv_of_lt (hw (n + 1))⟩

theorem tuned_counter (n : ℕ) : (tuned f w c p n).counter = (run f 0 c p n).counter := by
  suffices h : (tuned f w c p n).freqInt = f ∧ (tuned f w c p n).counter = (run f 0 c p n).counter from h.2
  induction n with
  | zero => exact ⟨rfl, rfl⟩
  | succ n ih =>
    refine ⟨ih.1, ?_⟩
    rw [tuned_succ, counter_succ, ← ih.2]
    show (wrapInt ((tuned f w c p n).counter + 1)).tmod (tuned f w c p n).freqInt = _
    rw [ih.1]

theorem tuned_pulseOut_succ (hw : ∀ n, w n < 2 ^ 31) (n : ℕ) : (tuned f w c p (n + 1)).pulseOut =
    if (tuned f w c p n).counter = w n then .zero
    else if (tuned f w c p n).counter = 0 then .one else (tuned f w c p n).pulseOut := by
  rw [tuned_succ, ← (tuned_holds hw n).2]
  rfl

/-- In the period that starts at clock `t` the output is high until the counter meets the width. -/
theorem tuned_pulseOut_iff (hf : 0 < f) (hf' : f < 2 ^ 31) (hw : ∀ n, w n < 2 ^ 31) {t : ℕ}
    (ht : (tuned f w c p t).counter = 0) {j : ℕ} (hj : j < f) :
    (tuned f w c p (t + 1 + j)).pulseOut = .one ↔ ∀ i ≤ j, w (t + i) ≠ i := by
  have hcounter : ∀ i < f, (tuned f w c p (t + i)).counter = i := fun i hi => by
    rw [tuned_counter] at ht ⊢
    rw [counter_add hf hf' (z := 0) ht hf, zero_add, Nat.mod_eq_of_lt hi]
  induction j with
  | zero =>
    rw [add_zero, tuned_pulseOut_succ hw, ht]
    by_cases h0 : w t = 0
    · rw [if_pos (by omega)]
      exact ⟨fun h => (by cases h), fun h => absurd h0 (h 0 le_rfl)⟩
    · rw [if_neg (by omega), if_pos rfl]
      refine ⟨fun _ i hi => ?_, fun _ => rfl⟩
      obtain rfl : i = 0 := by omega
      exact h0
  | succ j ih =>
    have ih := ih (by omega)
    have hsplit : (∀ i ≤ j + 1, w (t + i) ≠ i) ↔ (∀ i ≤ j, w (t + i) ≠ i) ∧ w (t + (j + 1)) ≠ j + 1 := by
      simp only [Nat.le_succ_iff, or_imp, forall_and, forall_eq]
    rw [show t + 1 + (j + 1) = t + (j + 1) + 1 by ring, tuned_pulseOut_succ hw, hcounter (j + 1) hj, hsplit]
    by_cases hfall : w (t + (j + 1)) = j + 1
    · rw [if_pos (by omega)]
      exact ⟨fun h => (by cases h), fun h => absurd hfall h.2⟩
    · rw [if_neg (by omega), if_neg (by omega), show t + (j + 1) = t + 1 + j by ring]
      exact ih.trans ⟨fun h => ⟨h, by rwa [add_right_comm, add_assoc]⟩, fun h => h.1⟩

theorem card_before_first {P : ℕ → Prop} [DecidablePred P] {k : ℕ} (hk : k ≤ f) (hbefore : ∀ i < k, ¬ P i)
    (hfirst : k < f → P k) : ((Finset.range f).filter fun j => ∀ i ≤ j, ¬ P i).card = k := by
  have hset : (Finset.range f).filter (fun j => ∀ i ≤ j, ¬ P i) = Finset.range k := by
    ext j
    rw [Finset.mem_filter, Finset.mem_range, Finset.mem_range]
    constructor
    · rintro ⟨hj, h⟩
      by_contra hkj
      exact h k (by omega) (hfirst (by omega))
    · intro hj
      exact ⟨by omega, fun i hi => hbefore i (by omega)⟩
  rw [hset, Finset.card_range]

/-- The high clocks of the period that starts at clock `t`. -/
def pulse (f : ℕ) (w : ℕ → ℕ) (c : ℤ) (p : StdLogic) (t : ℕ) : ℕ :=
  ((Finset.range f).filter fun j => high (changing f w c p (t + 1 + j))).card

/-- The largest width in effect during the period that starts at clock `t`. -/
def largest (f : ℕ) (w : ℕ → ℕ) (t : ℕ) : ℕ := (Finset.range f).sup fun j => w (t + j)

/-- A pulse is at most as long as the largest width in effect during its period if and only if the
width in effect meets the counter, or was the whole period, at a clock of the period. -/
theorem pulse_le_largest (f : ℕ) (hf : 1 ≤ f) (hf' : f < 2 ^ 31) (w : ℕ → ℕ) (hw : ∀ n, w n ≤ f) (c : ℤ)
    (p : StdLogic) :
    (∀ n, (changing f w c p n).isSome) ∧
    (∃ t ≤ f, ∀ m, atZero (changing f w c p (t + m * f))) ∧
    ∀ t, atZero (changing f w c p t) →
      (pulse f w c p t ≤ largest f w t ↔ ∃ j < f, w (t + j) = j ∨ w (t + j) = f) := by
  have hw' : ∀ n, w n < 2 ^ 31 := fun n => Nat.lt_of_le_of_lt (hw n) hf'
  have hstate : ∀ n, changing f w c p n = some (tuned f w c p n) := changing_eq hf hf'
  have hzero : ∀ n, atZero (changing f w c p n) = true ↔ (tuned f w c p n).counter = 0 := fun n => by
    simp [hstate, atZero]
  refine ⟨fun n => by rw [hstate]; rfl, ?_, fun t ht => ?_⟩
  · obtain ⟨t, ht, hcounter⟩ := exists_counter_zero (w := 0) (p := p) hf hf' c
    refine ⟨t, ht, fun m => ?_⟩
    rw [hzero, tuned_counter, counter_add hf hf' (z := 0) hcounter hf]
    simp
  have hhigh : ∀ j ∈ Finset.range f, (high (changing f w c p (t + 1 + j)) = true ↔
      ∀ i ≤ j, ¬ w (t + i) = i) := fun j hj => by
    rw [← tuned_pulseOut_iff hf hf' hw' ((hzero t).1 ht) (Finset.mem_range.1 hj)]
    simp [hstate, high]
  have hle : ∀ j < f, w (t + j) ≤ largest f w t := fun j hj =>
    Finset.le_sup (f := fun j => w (t + j)) (Finset.mem_range.2 hj)
  rw [pulse, Finset.filter_congr hhigh]
  by_cases hmeet : ∃ j, j < f ∧ w (t + j) = j
  · -- the output falls at the first clock at which the counter meets the width
    obtain ⟨hk, hwk⟩ := Nat.find_spec hmeet
    rw [card_before_first hk.le (fun i hi hwi => Nat.find_min hmeet hi ⟨by omega, hwi⟩) fun _ => hwk]
    refine ⟨fun _ => ?_, fun _ => ?_⟩
    · exact ⟨Nat.find hmeet, hk, .inl hwk⟩
    · calc Nat.find hmeet = w (t + Nat.find hmeet) := hwk.symm
        _ ≤ largest f w t := hle _ hk
  · -- the output stays high for the whole period
    have hmiss : ∀ i < f, ¬ w (t + i) = i := fun i hi hwi => hmeet ⟨i, hi, hwi⟩
    rw [card_before_first le_rfl hmiss fun h => absurd h (lt_irrefl f)]
    constructor
    · intro h
      obtain ⟨j, hj, hsup⟩ := Finset.exists_mem_eq_sup (Finset.range f) ⟨0, Finset.mem_range.2 hf⟩
        fun j => w (t + j)
      have hlargest : largest f w t = w (t + j) := hsup
      exact ⟨j, Finset.mem_range.1 hj, .inr (le_antisymm (hw _) (by omega))⟩
    · rintro ⟨j, hj, hwj | hwj⟩
      · exact absurd hwj (hmiss j hj)
      · exact hwj.symm.le.trans (hle j hj)

/-- The width goes from 8 to 3 at clock 5 of a period of 10, from 3 to 9 at clock 14. -/
def lowered (n : ℕ) : ℕ := if n < 5 then 8 else if n < 14 then 3 else 9

theorem lowered_le (n : ℕ) : lowered n ≤ 10 := by
  unfold lowered; split
  · decide
  · split <;> decide

theorem pulse_le_largest_lowered :
    (∀ n, (changing 10 lowered 0 .zero n).isSome) ∧
    (∃ t ≤ 10, ∀ m, atZero (changing 10 lowered 0 .zero (t + m * 10))) ∧
    ∀ t, atZero (changing 10 lowered 0 .zero t) →
      (pulse 10 lowered 0 .zero t ≤ largest 10 lowered t ↔ ∃ j < 10, lowered (t + j) = j ∨ lowered (t + j) = 10) :=
  pulse_le_largest 10 (by decide) (by decide) lowered lowered_le 0 .zero

/-- Lowered from 8 to 3 in the second period, after the counter has passed 3, the pulse lasts for the whole period
of 10. -/
theorem pulse_over_long :
    ¬ ∀ f w c p t, 1 ≤ f → f < 2 ^ 31 → (∀ n, w n ≤ f) → atZero (changing f w c p t) →
      atZero (changing f w c p (t + f)) → pulse f w c p (t + f) ≤ largest f w (t + f) := by
  intro h
  have hbad := h 10 (fun n => if n < 15 then 8 else 3) 0 .zero 0 (by decide) (by decide)
    (fun n => by split <;> decide) (by decide) (by decide +kernel)
  exact absurd hbad (by decide +kernel)

end Pwm

end Dcs
