import Dcs.AxiSlave

/-!
# Accepted and answered bus transactions

The ready signals do not depend on the response channels. A write that is accepted while `axi_bvalid` is
still up gets no response of its own, and so does a read while `axi_rvalid` is up: `answered_iff` counts
exactly these.
-/

namespace Dcs
open Vhdl StdLogic Clocked

namespace S00Axi
variable {R U : Type}

def count (M : RegBank R U) (s₀ : S00Axi R) (i₀ : AxiMaster × U) (inp : ℕ → AxiMaster × U)
    (P : S00Axi R → AxiMaster → Prop) [∀ s i, Decidable (P s i)] (n : ℕ) : ℕ :=
  Clocked.count (cycle M .one) (fun s i => P s i.1) (cycle M .zero s₀ i₀) inp n

/-- In front of clock `n` every accepted transaction has been answered, or is being answered. -/
def Answered (M : RegBank R U) (s₀ : S00Axi R) (i₀ : AxiMaster × U) (inp : ℕ → AxiMaster × U) (n : ℕ) : Prop :=
  count M s₀ i₀ inp AcceptsWrite n =
      count M s₀ i₀ inp AnswersWrite n + (if (run M s₀ i₀ inp n).axiBvalid = .one then 1 else 0) ∧
    count M s₀ i₀ inp AcceptsRead n =
      count M s₀ i₀ inp AnswersRead n + (if (run M s₀ i₀ inp n).axiRvalid = .one then 1 else 0)

/-- A transaction is accepted while the response to the one before is still there. -/
def Drops (s : S00Axi R) (i : AxiMaster) : Prop :=
  s.AcceptsWrite i ∧ s.axiBvalid = .one ∨ s.AcceptsRead i ∧ s.axiRvalid = .one

instance (s : S00Axi R) (i : AxiMaster) : Decidable (Drops s i) := inferInstanceAs (Decidable (_ ∧ _ ∨ _ ∧ _))

variable {M : RegBank R U} {s₀ : S00Axi R} {i₀ : AxiMaster × U} {inp : ℕ → AxiMaster × U}

theorem bvalid_succ (n : ℕ) : (run M s₀ i₀ inp (n + 1)).axiBvalid = .one ↔
    (run M s₀ i₀ inp n).AcceptsWrite (inp n).1 ∧ ¬ (run M s₀ i₀ inp n).axiBvalid = .one ∨
      (run M s₀ i₀ inp n).axiBvalid = .one ∧ ¬ (run M s₀ i₀ inp n).AnswersWrite (inp n).1 := by
  have hbin : (run M s₀ i₀ inp n).Binary := binary_run n
  rw [run_succ]
  unfold clock AnswersWrite
  dsimp only
  rcases hbin.bvalid with h | h <;> by_cases ha : (run M s₀ i₀ inp n).AcceptsWrite (inp n).1 <;>
    by_cases hr : (inp n).1.bready = .one <;> simp [h, ha, hr]

theorem rvalid_succ (n : ℕ) : (run M s₀ i₀ inp (n + 1)).axiRvalid = .one ↔
    (run M s₀ i₀ inp n).AcceptsRead (inp n).1 ∧ ¬ (run M s₀ i₀ inp n).axiRvalid = .one ∨
      (run M s₀ i₀ inp n).axiRvalid = .one ∧ ¬ (run M s₀ i₀ inp n).AnswersRead (inp n).1 := by
  have hbin : (run M s₀ i₀ inp n).Binary := binary_run n
  rw [run_succ]
  unfold clock AnswersRead
  dsimp only
  rcases hbin.rvalid with h | h <;> by_cases ha : (run M s₀ i₀ inp n).AcceptsRead (inp n).1 <;>
    by_cases hr : (inp n).1.rready = .one <;> simp [h, ha, hr]

theorem write_balance (n : ℕ) : count M s₀ i₀ inp AcceptsWrite n =
    count M s₀ i₀ inp AnswersWrite n + (if (run M s₀ i₀ inp n).axiBvalid = .one then 1 else 0) +
      count M s₀ i₀ inp (fun s i => s.AcceptsWrite i ∧ s.axiBvalid = .one) n := by
  have hstart : ¬ (cycle M .zero s₀ i₀).axiBvalid = .one := StdLogic.noConfusion
  exact count_balance (fun (s : S00Axi R) (i : AxiMaster × U) => s.AcceptsWrite i.1) (fun s i => s.AnswersWrite i.1)
    (fun s => s.axiBvalid = .one) hstart (fun _ _ h => h.1) bvalid_succ n

theorem read_balance (n : ℕ) : count M s₀ i₀ inp AcceptsRead n =
    count M s₀ i₀ inp AnswersRead n + (if (run M s₀ i₀ inp n).axiRvalid = .one then 1 else 0) +
      count M s₀ i₀ inp (fun s i => s.AcceptsRead i ∧ s.axiRvalid = .one) n := by
  have hstart : ¬ (cycle M .zero s₀ i₀).axiRvalid = .one := StdLogic.noConfusion
  exact count_balance (fun (s : S00Axi R) (i : AxiMaster × U) => s.AcceptsRead i.1) (fun s i => s.AnswersRead i.1)
    (fun s => s.axiRvalid = .one) hstart (fun _ _ h => h.1) rvalid_succ n

/-- In front of clock `n` all accepted transactions are answered if and only if at none of the clocks before
a transaction has been accepted while the response to another one was still there. -/
theorem answered_iff (M : RegBank R U) (s₀ : S00Axi R) (i₀ : AxiMaster × U) (inp : ℕ → AxiMaster × U) (n : ℕ) :
    Answered M s₀ i₀ inp n ↔ ∀ k < n, ¬ (run M s₀ i₀ inp k).Drops (inp k).1 := by
  have hw : count M s₀ i₀ inp (fun s i => s.AcceptsWrite i ∧ s.axiBvalid = .one) n = 0 ↔ _ := count_eq_zero
  have hr : count M s₀ i₀ inp (fun s i => s.AcceptsRead i ∧ s.axiRvalid = .one) n = 0 ↔ _ := count_eq_zero
  unfold Answered
  rw [write_balance, read_balance, Nat.add_eq_left, Nat.add_eq_left, hw, hr]
  unfold Drops
  refine ⟨fun h k hk hdrop => ?_, fun h => ⟨fun k hk hdrop => ?_, fun k hk hdrop => ?_⟩⟩
  · exact hdrop.elim (h.1 k hk) (h.2 k hk)
  · exact h k hk (.inl hdrop)
  · exact h k hk (.inr hdrop)

/-- A master that requests a write and a read at every clock and takes no response. -/
def impatient : AxiMaster := ⟨slv 4 0, .one, slv 32 5, slv 4 15, .one, .zero, slv 4 0, .one, .zero, rfl, rfl, rfl, rfl⟩

theorem stable_impatient (M : RegBank R U) (s₀ : S00Axi R) (i₀ : AxiMaster × U) (u : U) :
    Stable M s₀ i₀ fun _ => (impatient, u) :=
  ⟨fun _ h _ => ⟨h, rfl⟩, fun _ h _ => ⟨h, rfl, rfl⟩, fun _ h _ => ⟨h, rfl⟩⟩

/-- Its second write is accepted at clock 3, when the response to the first one is there. -/
theorem unanswered_impatient (M : RegBank R U) (s₀ : S00Axi R) (i₀ : AxiMaster × U) (u : U) :
    ¬ Answered M s₀ i₀ (fun _ => (impatient, u)) 4 := by
  intro h
  have hnone := h.1
  rw [write_balance, Nat.add_eq_left] at hnone
  exact count_eq_zero.1 hnone 3 (by decide) ⟨⟨rfl, rfl, rfl, rfl⟩, rfl⟩

theorem not_answered :
    ¬ (∀ s₀ i₀ inp n, Stable pwmBank s₀ i₀ inp → Answered pwmBank s₀ i₀ inp n) ∧
    ¬ ∀ s₀ i₀ inp n, Stable encoderBank s₀ i₀ inp → Answered encoderBank s₀ i₀ inp n := by
  refine ⟨fun h => ?_, fun h => ?_⟩
  · exact unanswered_impatient pwmBank (powerUp .powerUp) (impatient, ()) ()
      (h _ _ _ 4 (stable_impatient _ _ _ ()))
  · let u : EncoderPorts := ⟨slv 32 0, .zero, .zero⟩
    exact unanswered_impatient encoderBank (powerUp .powerUp) (impatient, u) u (h _ _ _ 4 (stable_impatient _ _ _ u))

end S00Axi

end Dcs
