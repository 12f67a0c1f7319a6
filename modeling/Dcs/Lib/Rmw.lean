import Dcs.Lib.Lts
import Mathlib.Logic.Function.Basic

/-!
# Updates that read first and write later

A process reads a shared value and later writes what its update makes of the value it has read; other
processes read and write in between. `serial`: the updates are as if each were made at once, in the
order of their writes, in every run in which no write is of a stale value (`Fresh`).
-/

namespace Rmw
open Function

structure State (σ υ ι : Type*) where
  start : σ
  value : σ
  /-- The update of a process that has read, and the value it has read. -/
  pending : ι → Option (υ × σ)
  /-- The updates whose write is done, the last one first. -/
  done : List υ

inductive Act (υ ι : Type*)
  | read (i : ι) (u : υ)
  | write (i : ι)

variable {σ υ ι : Type*} [DecidableEq ι]

def next (f : υ → σ → σ) (s : State σ υ ι) : Act υ ι → State σ υ ι
  | .read i u => { s with pending := update s.pending i (some (u, s.value)) }
  | .write i =>
    match s.pending i with
    | none => s
    | some (u, seen) => { s with value := f u seen, pending := update s.pending i none, done := u :: s.done }

def Enabled (s : State σ υ ι) : Act υ ι → Prop
  | .read i _ => s.pending i = none
  | .write i => s.pending i ≠ none

def system (f : υ → σ → σ) : Lts.System (State σ υ ι) (Act υ ι) where
  Init s := s.value = s.start ∧ (∀ i, s.pending i = none) ∧ s.done = []
  Enabled := Enabled
  next := next f

/-- A write is of what its update makes of the current value, too. -/
def Fresh (f : υ → σ → σ) (s : State σ υ ι) : Act υ ι → Prop
  | .read _ _ => True
  | .write i => ∀ q ∈ s.pending i, f q.1 q.2 = f q.1 s.value

def Serial (f : υ → σ → σ) (s : State σ υ ι) : Prop := s.value = s.done.foldr f s.start

variable {f : υ → σ → σ} {s : State σ υ ι}

theorem next_serial (hs : Serial f s) {a : Act υ ι} (ha : Enabled s a) :
    Serial f (next f s a) ↔ Fresh f s a := by
  cases a with
  | read i u => exact iff_of_true hs trivial
  | write i =>
    obtain ⟨⟨u, seen⟩, hq⟩ := Option.ne_none_iff_exists'.1 ha
    have hnext : next f s (.write i) =
        { s with value := f u seen, pending := update s.pending i none, done := u :: s.done } := by
      simp only [next, hq]
    have hfresh : Fresh f s (.write i) ↔ f u seen = f u s.value := by
      simp [Fresh, hq]
    rw [hnext, hfresh, Serial, List.foldr_cons, ← show s.value = s.done.foldr f s.start from hs]

theorem serial (h : Lts.Reach (system f) (Fresh f) s) : Serial f s := by
  refine h.invariant (I := Serial f) ?_ ?_
  · rintro s ⟨hvalue, -, hdone⟩
    rw [Serial, hdone]
    exact hvalue
  · intro s a hs ha hfresh
    exact (next_serial hs ha).2 hfresh

end Rmw
