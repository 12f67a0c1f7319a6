import Mathlib.Logic.Function.Basic

/-!
# Independence of domains

The actions of a machine belong to domains. `outputs v` are the outputs of the actions of domain `v` in a
run, `purge v` is the run without the actions of the other domains. A run of independent domains keeps its
outputs under every `purge`. `Agrees q s` says so of the rest of a run that has reached `s`, while the run
purged to `v` has reached `q v`; `agrees_cons` is the induction step.
-/

namespace Purge
open Function

variable {σ τ α δ ο : Type*} [DecidableEq δ] (dom : α → δ)

section
variable (step : σ → α → σ) (out : σ → α → ο)

def outputs (v : δ) (s : σ) : List α → List ο
  | [] => []
  | a :: as => if dom a = v then out s a :: outputs v (step s a) as else outputs v (step s a) as

def purge (v : δ) (as : List α) : List α := as.filter fun a => dom a = v

def Agrees (q : δ → σ) (s : σ) (as : List α) : Prop :=
  ∀ v, outputs dom step out v s as = outputs dom step out v (q v) (purge dom v as)

theorem agrees_nil (q : δ → σ) (s : σ) : Agrees dom step out q s [] := fun _ => rfl

theorem agrees_cons (q : δ → σ) (s : σ) (a : α) (as : List α) :
    Agrees dom step out q s (a :: as) ↔ out s a = out (q (dom a)) a ∧
      Agrees dom step out (update q (dom a) (step (q (dom a)) a)) (step s a) as := by
  have hown : outputs dom step out (dom a) s (a :: as) =
      outputs dom step out (dom a) (q (dom a)) (purge dom (dom a) (a :: as)) ↔ out s a = out (q (dom a)) a ∧
        outputs dom step out (dom a) (step s a) as =
          outputs dom step out (dom a) (step (q (dom a)) a) (purge dom (dom a) as) := by
    simp [outputs, purge]
  have hother : ∀ v, v ≠ dom a → (outputs dom step out v s (a :: as) =
      outputs dom step out v (q v) (purge dom v (a :: as)) ↔
        outputs dom step out v (step s a) as = outputs dom step out v (q v) (purge dom v as)) := fun v hv => by
    simp [outputs, purge, Ne.symm hv]
  refine ⟨fun h => ⟨(hown.1 (h (dom a))).1, fun v => ?_⟩, fun h v => ?_⟩
  · by_cases hv : v = dom a
    · subst hv
      rw [update_self]
      exact (hown.1 (h (dom a))).2
    · rw [update_of_ne hv]
      exact (hother v hv).1 (h v)
  · by_cases hv : v = dom a
    · subst hv
      refine hown.2 ⟨h.1, ?_⟩
      have hrest := h.2 (dom a)
      rwa [update_self] at hrest
    · refine (hother v hv).2 ?_
      have hrest := h.2 v
      rwa [update_of_ne hv] at hrest

end

/-- Machines that stay in a relation under which their outputs are equal. -/
theorem outputs_eq {step : σ → α → σ} {out : σ → α → ο} {step' : τ → α → τ} {out' : τ → α → ο} {R : σ → τ → Prop}
    (hR : ∀ s t a, R s t → R (step s a) (step' t a) ∧ out s a = out' t a) (v : δ) {s : σ} {t : τ} (hst : R s t)
    (as : List α) : outputs dom step out v s as = outputs dom step' out' v t as := by
  induction as generalizing s t with
  | nil => rfl
  | cons a as ih =>
    obtain ⟨hnext, hout⟩ := hR s t a hst
    simp only [outputs, hout, ih hnext]

theorem agrees_congr {step : σ → α → σ} {out : σ → α → ο} {step' : τ → α → τ} {out' : τ → α → ο}
    {R : σ → τ → Prop} (hR : ∀ s t a, R s t → R (step s a) (step' t a) ∧ out s a = out' t a) {s : σ} {t : τ}
    (hst : R s t) (as : List α) :
    Agrees dom step out (fun _ => s) s as ↔ Agrees dom step' out' (fun _ => t) t as :=
  forall_congr' fun v => by rw [outputs_eq dom hR v hst, outputs_eq dom hR v hst]

end Purge
