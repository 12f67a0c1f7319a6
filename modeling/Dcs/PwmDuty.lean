import Dcs.PwmCore
import Mathlib.Data.Nat.Periodic

/-!
# The duty cycle

With a constant period `f` and width `w` the counter passes `0` within `f` clocks of any state, and
from there it runs through `0 … f-1` for ever. The output after a clock is high exactly when the
counter in front of the clock was below `w`.
-/

namespace Dcs
open Vhdl StdLogic StdLogicVector Clocked

namespace Pwm

def ports (f w : ℕ) : PwmPorts := ⟨slv 32 f, slv 32 w⟩

/-- A clock at a constant period and width. -/
def next (s : Pwm) (_ : PwmPorts) : Pwm :=
  { s with
    counter := (wrapInt (s.counter + 1)).tmod s.freqInt
    pulseOut := if s.counter = s.widthInt then .zero else if s.counter = 0 then .one else s.pulseOut }

def run (f w : ℕ) (c : ℤ) (p : StdLogic) (n : ℕ) : Pwm :=
  trace next ⟨f, w, c, p⟩ (fun _ => ports f w) n

variable {f w : ℕ} {c : ℤ} {p : StdLogic} {n : ℕ}

theorem run_succ (n : ℕ) : run f w c p (n + 1) = (run f w c p n).next (ports f w) := rfl

/-- The core has taken over the period `f` and the width `w`. -/
def Holds (f w : ℕ) (s : Pwm) : Prop := s.freqInt = f ∧ s.widthInt = w

theorem Holds.next {s : Pwm} (h : s.Holds f w) (i : PwmPorts) : (s.next i).Holds f w := h

theorem run_holds (n : ℕ) : (run f w c p n).Holds f w :=
  trace_invariant (I := Holds f w) ⟨rfl, rfl⟩ (fun _ i h => h.next i) n

theorem step_ports (hf : 0 < f) (hf' : f < 2 ^ 31) (hw : w < 2 ^ 31) {s : Pwm} (hs : s.Holds f w) :
    s.step (ports f w) = some (s.next (ports f w)) := by
  have hne : s.freqInt ≠ 0 := by rw [hs.1]; omega
  simp only [step, process, reduceCtorEq, ↓reduceIte, and_self, clock, if_neg hne, Option.map_some,
    ports, bin2int_slv_of_lt hf', bin2int_slv_of_lt hw, Pwm.next, ← hs.1, ← hs.2]

theorem tryTrace_eq_run (hf : 0 < f) (hf' : f < 2 ^ 31) (hw : w < 2 ^ 31) (n : ℕ) :
    tryTrace step ⟨f, w, c, p⟩ (fun _ => ports f w) n = some (run f w c p n) :=
  tryTrace_eq_some (I := Holds f w) ⟨rfl, rfl⟩ (fun _ _ h => step_ports hf hf' hw h)
    (fun _ _ h => h.next _) n

theorem counter_succ (n : ℕ) :
    (run f w c p (n + 1)).counter = (wrapInt ((run f w c p n).counter + 1)).tmod f := by
  rw [run_succ, Pwm.next, (run_holds n).1]

theorem pulseOut_succ (n : ℕ) : (run f w c p (n + 1)).pulseOut =
    if (run f w c p n).counter = w then .zero
    else if (run f w c p n).counter = 0 then .one else (run f w c p n).pulseOut := by
  rw [run_succ, Pwm.next, (run_holds n).2]

theorem counter_add (hf : 0 < f) (hf' : f < 2 ^ 31) {t z : ℕ} (ht : (run f w c p t).counter = z)
    (hz : z < f) (j : ℕ) : (run f w c p (t + j)).counter = ((z + j) % f : ℕ) := by
  induction j with
  | zero => rw [add_zero, add_zero, ht, Nat.mod_eq_of_lt hz]
  | succ j ih =>
    have hlt : (z + j) % f < f := Nat.mod_lt _ hf
    rw [← add_assoc, counter_succ, ih, wrapInt_of_range (by omega) (by omega)]
    rw [Int.tmod_eq_emod_of_nonneg (by omega)]
    norm_cast
    rw [Nat.mod_add_mod, add_assoc]

theorem counter_add_of_neg (hf' : f < 2 ^ 31) {t k : ℕ} (ht : (run f w c p t).counter = -k)
    (hk : k < f) {j : ℕ} (hj : j ≤ k) : (run f w c p (t + j)).counter = -k + j := by
  induction j with
  | zero => rw [add_zero, ht]; simp
  | succ j ih =>
    rw [← add_assoc, counter_succ, ih (by omega), wrapInt_of_range (by omega) (by omega)]
    have hneg : (-(k : ℤ) + j + 1).tmod f = -(((k : ℤ) - (j + 1)).tmod f) := by
      rw [← Int.neg_tmod]; congr 1; ring
    rw [hneg, Int.tmod_eq_of_lt (by omega) (by omega)]
    push_cast
    ring

/-- The counter passes `0` within a period, whatever it starts from. -/
theorem exists_counter_zero (hf : 0 < f) (hf' : f < 2 ^ 31) (c : ℤ) :
    ∃ t ≤ f, (run f w c p t).counter = 0 := by
  have hfirst : (run f w c p 1).counter = (wrapInt (c + 1)).tmod f := counter_succ 0
  have hub := Int.tmod_lt_of_pos (wrapInt (c + 1)) (by omega : (0 : ℤ) < f)
  have hlb := Int.lt_tmod_of_pos (wrapInt (c + 1)) (by omega : (0 : ℤ) < f)
  rw [← hfirst] at hub hlb
  rcases le_or_gt 0 (run f w c p 1).counter with hpos | hneg
  · obtain ⟨z, hz⟩ := Int.eq_ofNat_of_zero_le hpos
    rcases Nat.eq_zero_or_pos z with h0 | h0
    · exact ⟨1, hf, by rw [hz, h0]; rfl⟩
    · refine ⟨1 + (f - z), by omega, ?_⟩
      rw [counter_add hf hf' hz (by omega), Nat.add_sub_cancel' (by omega), Nat.mod_self]
      rfl
  · obtain ⟨k, hk⟩ := Int.eq_ofNat_of_zero_le (by omega : 0 ≤ -(run f w c p 1).counter)
    have hk' : (run f w c p 1).counter = -k := by omega
    exact ⟨1 + k, by omega, by rw [counter_add_of_neg hf' hk' (by omega) le_rfl]; omega⟩

/-- From a clock at which the counter passes `0` on, the output is high in the first `w` clocks of
each period. -/
theorem pulseOut_iff (hf : 0 < f) (hf' : f < 2 ^ 31) {t : ℕ} (ht : (run f w c p t).counter = 0)
    (j : ℕ) : (run f w c p (t + 1 + j)).pulseOut = .one ↔ j % f < w := by
  have hcounter : ∀ j, (run f w c p (t + j)).counter = (j % f : ℕ) := fun j => by
    rw [counter_add hf hf' (z := 0) ht hf, zero_add]
  have hout : ∀ j, (run f w c p (t + 1 + j)).pulseOut = if j % f = w then .zero
      else if j % f = 0 then .one else (run f w c p (t + j)).pulseOut := fun j => by
    rw [add_right_comm, pulseOut_succ, hcounter]
    norm_cast
  induction j with
  | zero =>
    rw [hout, Nat.zero_mod]
    rcases Nat.eq_zero_or_pos w with hw | hw
    · simp [hw]
    · rw [if_neg (by omega), if_pos rfl]; simp [hw]
  | succ j ih =>
    rw [hout]
    by_cases hw : (j + 1) % f = w
    · rw [if_pos hw]; simp [hw]
    by_cases h0 : (j + 1) % f = 0
    · rw [if_neg hw, if_pos h0, h0]
      rw [h0] at hw
      exact ⟨fun _ => by omega, fun _ => rfl⟩
    · rw [if_neg hw, if_neg h0, show t + (j + 1) = t + 1 + j by ring]
      refine ih.trans ?_
      have hlt : j % f < f := Nat.mod_lt _ hf
      have hmod : (j + 1) % f = (j % f + 1) % f := (Nat.mod_add_mod j f 1).symm
      rcases Nat.lt_or_ge (j % f + 1) f with h | h
      · rw [Nat.mod_eq_of_lt h] at hmod; omega
      · exact absurd (by rw [hmod, show j % f + 1 = f by omega, Nat.mod_self]) h0

/-- A window of `f` consecutive numbers meets the residues below `w` in `min w f` places. -/
theorem card_filter_window (f w : ℕ) {a t : ℕ} (hat : a ≤ t) :
    ((Finset.Ico t (t + f)).filter fun k => (k - a) % f < w).card = min w f := by
  have hshift : ((Finset.Ico t (t + f)).filter fun k => (k - a) % f < w).card =
      ((Finset.Ico (t - a) (t - a + f)).filter fun k => k % f < w).card := by
    refine Finset.card_nbij' (fun k => k - a) (fun k => k + a) ?_ ?_ ?_ ?_
    · intro k hk
      simp only [Finset.coe_filter, Finset.mem_Ico, Set.mem_ofPred_eq] at hk ⊢
      exact ⟨by omega, hk.2⟩
    · intro k hk
      simp only [Finset.coe_filter, Finset.mem_Ico, Set.mem_ofPred_eq] at hk ⊢
      exact ⟨by omega, by rw [Nat.add_sub_cancel]; exact hk.2⟩
    · intro k hk
      simp only [Finset.coe_filter, Finset.mem_Ico, Set.mem_ofPred_eq] at hk
      exact Nat.sub_add_cancel (by omega)
    · intro k _
      exact Nat.add_sub_cancel k a
  have hperiod : Function.Periodic (fun k => k % f < w) f := fun k => by
    simp only [Nat.add_mod_right]
  have hrange : (Finset.range f).filter (fun k => k % f < w) = Finset.range (min w f) := by
    ext k
    simp only [Finset.mem_filter, Finset.mem_range]
    constructor
    · rintro ⟨hk, hw⟩
      rw [Nat.mod_eq_of_lt hk] at hw
      omega
    · intro hk
      have hkf : k < f := by omega
      exact ⟨hkf, by rw [Nat.mod_eq_of_lt hkf]; omega⟩
  rw [hshift, Nat.filter_Ico_card_eq_of_periodic _ _ _ hperiod, Nat.count_eq_card_filter_range, hrange,
    Finset.card_range]

def high (s : Option Pwm) : Bool := s.any fun t => t.pulseOut = .one

/-- The counter passes `0` at the next clock. -/
def atZero (s : Option Pwm) : Bool := s.any fun t => t.counter = 0

/-- The core after `n` rising clocks at a constant period and width; `none` if it has failed. -/
def state (f w : ℕ) (c : ℤ) (p : StdLogic) (n : ℕ) : Option Pwm :=
  tryTrace step ⟨f, w, c, p⟩ (fun _ => ports f w) n

/-- With a constant period `f` and width `w`, from every state of the counter and the output: the
core never fails; after `f + 1` clocks every window of `f` clocks has exactly `min w f` high ones; and
they are one block in each period, which starts with the clock at which the counter passes `0`. -/
theorem pulse_duty_cycle (f w : ℕ) (hf : 1 ≤ f) (hf' : f < 2 ^ 31) (hw : w < 2 ^ 31) (c : ℤ) (p : StdLogic) :
    (∀ n, (state f w c p n).isSome) ∧
    (∀ t, f + 1 ≤ t →
      ((Finset.Ico t (t + f)).filter fun k => high (state f w c p k)).card = min w f) ∧
    (∃ t ≤ f, ∀ m, atZero (state f w c p (t + m * f))) ∧
    (∀ t, atZero (state f w c p t) → ∀ j < f, (high (state f w c p (t + 1 + j)) ↔ j < min w f)) := by
  have hstate : ∀ n, state f w c p n = some (run f w c p n) := tryTrace_eq_run hf hf' hw
  have hhigh : ∀ n, high (state f w c p n) = true ↔ (run f w c p n).pulseOut = .one := fun n => by
    simp [hstate, high]
  have hzero : ∀ n, atZero (state f w c p n) = true ↔ (run f w c p n).counter = 0 := fun n => by
    simp [hstate, atZero]
  obtain ⟨t₀, ht₀, hcounter⟩ := exists_counter_zero (w := w) (p := p) hf hf' c
  refine ⟨fun n => by rw [hstate]; rfl, fun t ht => ?_, ⟨t₀, ht₀, fun m => ?_⟩, fun t ht j hj => ?_⟩
  · have hlate : ∀ k ∈ Finset.Ico t (t + f),
        (high (state f w c p k) = true ↔ (k - (t₀ + 1)) % f < w) := by
      intro k hk
      rw [Finset.mem_Ico] at hk
      have h := pulseOut_iff (w := w) hf hf' hcounter (k - (t₀ + 1))
      rwa [show t₀ + 1 + (k - (t₀ + 1)) = k by omega, ← hhigh] at h
    rw [Finset.filter_congr hlate]
    exact card_filter_window f w (by omega)
  · rw [hzero, counter_add hf hf' (z := 0) hcounter hf]; simp
  · rw [hhigh, pulseOut_iff hf hf' ((hzero t).1 ht), Nat.mod_eq_of_lt hj]
    omega

/-- The driver's longest pulse over a period of twice that length, from the initial values of
`counter` and `pulse_out`. -/
theorem pulse_duty_cycle_half :
    (∀ n, (state 16384 8192 (-1) .U n).isSome) ∧
    (∀ t, 16384 + 1 ≤ t →
      ((Finset.Ico t (t + 16384)).filter fun k => high (state 16384 8192 (-1) .U k)).card =
        min 8192 16384) ∧
    (∃ t ≤ 16384, ∀ m, atZero (state 16384 8192 (-1) .U (t + m * 16384))) ∧
    (∀ t, atZero (state 16384 8192 (-1) .U t) → ∀ j < 16384,
      (high (state 16384 8192 (-1) .U (t + 1 + j)) ↔ j < min 8192 16384)) :=
  pulse_duty_cycle 16384 8192 (by decide) (by decide) (by decide) (-1) .U

end Pwm

end Dcs
