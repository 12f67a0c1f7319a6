import Mathlib.Data.Set.Defs

/-!
# Labelled transition systems

A system has initial states, a condition under which an action can happen, and the state after it.
`Reach L P` are the states reached by runs every step of which meets the condition `P` on the state
before the step and the action; `P` is what a run is assumed to respect.
-/

namespace Lts

structure System (σ α : Type*) where
  Init : σ → Prop
  Enabled : σ → α → Prop
  next : σ → α → σ

variable {σ α : Type*} {L : System σ α} {P : σ → α → Prop} {s : σ}

inductive Reach (L : System σ α) (P : σ → α → Prop) : σ → Prop
  | init {s : σ} : L.Init s → Reach L P s
  | step {s : σ} {a : α} : Reach L P s → L.Enabled s a → P s a → Reach L P (L.next s a)

/-- The state after a list of actions, and that they can all happen and respect `P`. -/
def System.run (L : System σ α) (s : σ) : List α → σ
  | [] => s
  | a :: as => L.run (L.next s a) as

def System.Runs (L : System σ α) (P : σ → α → Prop) (s : σ) : List α → Prop
  | [] => True
  | a :: as => L.Enabled s a ∧ P s a ∧ L.Runs P (L.next s a) as

instance System.decidableRuns (L : System σ α) (P : σ → α → Prop) [∀ s a, Decidable (L.Enabled s a)]
    [∀ s a, Decidable (P s a)] : ∀ s as, Decidable (L.Runs P s as)
  | _, [] => inferInstanceAs (Decidable True)
  | s, a :: as =>
    have := System.decidableRuns L P (L.next s a) as
    inferInstanceAs (Decidable (L.Enabled s a ∧ P s a ∧ L.Runs P (L.next s a) as))

theorem System.Runs.mono {Q : σ → α → Prop} (hPQ : ∀ s a, P s a → Q s a) {as : List α} (h : L.Runs P s as) :
    L.Runs Q s as := by
  induction as generalizing s with
  | nil => exact trivial
  | cons a as ih => exact ⟨h.1, hPQ s a h.2.1, ih h.2.2⟩

theorem System.Runs.invariant {I : σ → Prop} (hstep : ∀ s a, I s → L.Enabled s a → P s a → I (L.next s a))
    {as : List α} (has : L.Runs P s as) (hs : I s) : I (L.run s as) := by
  induction as generalizing s with
  | nil => exact hs
  | cons a as ih => exact ih has.2.2 (hstep s a hs has.1 has.2.1)

/-- An invariant that may speak of all actions so far. -/
theorem System.Runs.history {I : List α → σ → Prop}
    (hstep : ∀ as s a, I as s → L.Enabled s a → P s a → I (as ++ [a]) (L.next s a))
    {as : List α} (has : L.Runs P s as) (hs : I [] s) : I as (L.run s as) := by
  have hfrom : ∀ as bs s, I bs s → L.Runs P s as → I (bs ++ as) (L.run s as) := by
    intro as
    induction as with
    | nil => intro bs s hI _; rwa [List.append_nil]
    | cons a as ih =>
      intro bs s hI hruns
      have hnext := ih (bs ++ [a]) (L.next s a) (hstep bs s a hI hruns.1 hruns.2.1) hruns.2.2
      rwa [List.append_assoc] at hnext
  exact hfrom as [] s hs has

namespace Reach

theorem run (as : List α) (h : Reach L P s) (has : L.Runs P s as) : Reach L P (L.run s as) := by
  induction as generalizing s with
  | nil => exact h
  | cons a as ih => exact ih (h.step has.1 has.2.1) has.2.2

theorem invariant {I : σ → Prop} (hinit : ∀ s, L.Init s → I s)
    (hstep : ∀ s a, I s → L.Enabled s a → P s a → I (L.next s a)) (h : Reach L P s) : I s := by
  induction h with
  | init hs => exact hinit _ hs
  | step _ he hP ih => exact hstep _ _ ih he hP

/-- An invariant of all runs may be used to prove one of the runs that respect `P`. -/
theorem invariant_of {I J : σ → Prop} (hI : ∀ s, Reach L P s → I s) (hinit : ∀ s, L.Init s → J s)
    (hstep : ∀ s a, I s → J s → L.Enabled s a → P s a → J (L.next s a)) (h : Reach L P s) : J s := by
  induction h with
  | init hs => exact hinit _ hs
  | step hr he hP ih => exact hstep _ _ (hI _ hr) ih he hP

/-- A system that does what `M` does, through the view `φ` of its states, reaches states that `M` does. -/
theorem simulates {τ β : Type*} {M : System τ β} {Q : τ → β → Prop} {I : σ → Prop} (φ : σ → τ) (ψ : α → β)
    (hI : ∀ s, Reach L P s → I s) (hinit : ∀ s, L.Init s → M.Init (φ s))
    (hstep : ∀ s a, I s → L.Enabled s a → P s a →
      M.Enabled (φ s) (ψ a) ∧ Q (φ s) (ψ a) ∧ φ (L.next s a) = M.next (φ s) (ψ a))
    (h : Reach L P s) : Reach M Q (φ s) := by
  induction h with
  | init hs => exact .init (hinit _ hs)
  | step hr he hP ih =>
    obtain ⟨hen, hQ, hnext⟩ := hstep _ _ (hI _ hr) he hP
    rw [hnext]
    exact ih.step hen hQ

/-- Here one action may take several of `M`, or none. -/
theorem simulates_runs {τ β : Type*} {M : System τ β} {Q : τ → β → Prop} {I : σ → Prop} (φ : σ → τ)
    (hI : ∀ s, Reach L P s → I s) (hinit : ∀ s, L.Init s → M.Init (φ s))
    (hstep : ∀ s a, I s → L.Enabled s a → P s a →
      ∃ bs, M.Runs Q (φ s) bs ∧ φ (L.next s a) = M.run (φ s) bs)
    (h : Reach L P s) : Reach M Q (φ s) := by
  induction h with
  | init hs => exact .init (hinit _ hs)
  | step hr he hP ih =>
    obtain ⟨bs, hruns, hnext⟩ := hstep _ _ (hI _ hr) he hP
    rw [hnext]
    exact ih.run bs hruns

end Reach

end Lts
