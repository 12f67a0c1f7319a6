import Mathlib.Data.Nat.Count

/-!
# Runs of clocked machines

A synchronous machine is a function `step s i`: the state after a clock edge from the state before
it and the inputs sampled at the edge. `trace step s inp n` is the state in front of clock `n` of
the run from `s` on the input stream `inp`, and `count step P s inp n` is the number of the first
`n` clocks at which `P` holds of the state and the inputs. A machine whose step may fail has
`tryTrace`.
-/

namespace Clocked

variable {σ ι : Type*}

def trace (step : σ → ι → σ) (s : σ) (inp : ℕ → ι) : ℕ → σ
  | 0 => s
  | n + 1 => step (trace step s inp n) (inp n)

section
variable {step : σ → ι → σ} {s : σ} {inp : ℕ → ι}

theorem trace_succ (n : ℕ) : trace step s inp (n + 1) = step (trace step s inp n) (inp n) := rfl

theorem trace_induction {I : ℕ → σ → Prop} (h0 : I 0 s)
    (hstep : ∀ n t, I n t → I (n + 1) (step t (inp n))) (n : ℕ) : I n (trace step s inp n) := by
  induction n with
  | zero => exact h0
  | succ n ih => exact hstep n _ ih

theorem trace_invariant {I : σ → Prop} (h0 : I s) (hstep : ∀ t i, I t → I (step t i)) (n : ℕ) :
    I (trace step s inp n) :=
  trace_induction (I := fun _ => I) h0 (fun n t => hstep t (inp n)) n

/-- Two runs on the same inputs that meet stay together. -/
theorem trace_eq_of_meet {s' : σ} {m n : ℕ} (h : trace step s inp m = trace step s' inp m) (hmn : m ≤ n) :
    trace step s inp n = trace step s' inp n := by
  induction n, hmn using Nat.le_induction with
  | base => exact h
  | succ n _ ih => rw [trace_succ, ih, trace_succ]

end

/-- How many of the first `n` clocks of a run satisfy `P`. -/
def count (step : σ → ι → σ) (P : σ → ι → Prop) [∀ t i, Decidable (P t i)] (s : σ) (inp : ℕ → ι)
    (n : ℕ) : ℕ :=
  Nat.count (fun k => P (trace step s inp k) (inp k)) n

section
variable {step : σ → ι → σ} {P : σ → ι → Prop} [∀ t i, Decidable (P t i)] {s : σ} {inp : ℕ → ι}

@[simp] theorem count_zero : count step P s inp 0 = 0 := Nat.count_zero _

theorem count_succ (n : ℕ) : count step P s inp (n + 1) =
    count step P s inp n + if P (trace step s inp n) (inp n) then 1 else 0 :=
  Nat.count_succ _ _

/-- Requests and answers of a machine that has room for one answer: each request is answered, is the one
that is pending, or was made while another one was pending. -/
theorem count_balance (A B : σ → ι → Prop) (pending : σ → Prop) [∀ t i, Decidable (A t i)]
    [∀ t i, Decidable (B t i)] [∀ t, Decidable (pending t)] (h0 : ¬ pending s) (hB : ∀ t i, B t i → pending t)
    (hstep : ∀ n, pending (trace step s inp (n + 1)) ↔
      A (trace step s inp n) (inp n) ∧ ¬ pending (trace step s inp n) ∨
        pending (trace step s inp n) ∧ ¬ B (trace step s inp n) (inp n)) (n : ℕ) :
    count step A s inp n = count step B s inp n + (if pending (trace step s inp n) then 1 else 0) +
      count step (fun t i => A t i ∧ pending t) s inp n := by
  induction n with
  | zero => simp [show trace step s inp 0 = s from rfl, h0]
  | succ n ih =>
    have hanswer := hB (trace step s inp n) (inp n)
    rw [count_succ, count_succ, count_succ, ih, if_congr (hstep n) rfl rfl]
    by_cases hp : pending (trace step s inp n)
    · by_cases ha : A (trace step s inp n) (inp n) <;> by_cases hb : B (trace step s inp n) (inp n) <;>
        simp [hp, ha, hb] <;> omega
    · have hb : ¬ B (trace step s inp n) (inp n) := fun h => hp (hanswer h)
      by_cases ha : A (trace step s inp n) (inp n) <;> simp [hp, ha, hb]
      omega

theorem count_eq_zero {n : ℕ} : count step P s inp n = 0 ↔ ∀ k < n, ¬ P (trace step s inp k) (inp k) := by
  rw [count, Nat.count_iff_forall_not]

end

/-- The run of a machine whose step may fail; `none` from the failing clock on. -/
def tryTrace (step : σ → ι → Option σ) (s : σ) (inp : ℕ → ι) : ℕ → Option σ
  | 0 => some s
  | n + 1 => (tryTrace step s inp n).bind fun t => step t (inp n)

/-- Where an invariant excludes the failure, the run is the one of a total machine. -/
theorem tryTrace_eq_some {step : σ → ι → Option σ} {next : σ → ι → σ} {s : σ} {inp : ℕ → ι}
    {I : σ → Prop} (h0 : I s) (hstep : ∀ n t, I t → step t (inp n) = some (next t (inp n)))
    (hI : ∀ n t, I t → I (next t (inp n))) (n : ℕ) :
    tryTrace step s inp n = some (trace next s inp n) := by
  have hinv : ∀ n, I (trace next s inp n) := trace_induction (I := fun _ => I) h0 fun n t => hI n t
  induction n with
  | zero => rfl
  | succ n ih => rw [tryTrace, ih, Option.bind_some, hstep n _ (hinv n), trace_succ]

end Clocked
