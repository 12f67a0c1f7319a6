import Dcs.DriverWf

/-!
# Loading a module

`PID_init`, `PWM_init` and `Encoder_init` publish the character device first and the device nodes
second, and initialise the device mutex last. From `register_chrdev` on other processes open and
release files between the steps. The mutex admits one file at a time, if no file is open when
`mutex_init` runs.
-/

namespace Dcs
open Function

variable {Reg : Type} {D : Driver Reg}

/-- The places between the steps of `PID_init`. The second half of `platform_driver_register` runs with
the driver registered and probes the devices that are present. -/
inductive InitPc
  | start | chrdevRegistered | classCreated | registering | driverRegistered | loaded | failed
deriving DecidableEq, Repr

structure Module (Reg : Type) where
  pc : InitPc
  chrdev : Bool
  cls : Bool
  world : World Reg

inductive InitAct
  | registerChrdev (major : ℤ)
  /-- `class_create`, with its `PTR_ERR` or 0. -/
  | classCreate (err : ℤ)
  | platformDriverRegister
  | platformDriverRegistered (retval : ℤ)
  | mutexInit
  | call (c : Call)
deriving DecidableEq, Repr

namespace Module

/-- One step of `PID_init`, `PWM_init` or `Encoder_init`, or a call by some process. -/
def next (D : Driver Reg) (s : Module Reg) : InitAct → Module Reg
  | .registerChrdev major =>
    if major < 0 then { s with pc := .failed }
    else { s with pc := .chrdevRegistered, chrdev := true, world := { s.world with major := major.toNat } }
  | .classCreate err =>
    if err = 0 then { s with pc := .classCreated, cls := true } else { s with pc := .failed, chrdev := false }
  | .platformDriverRegister => { s with pc := .registering }
  | .platformDriverRegistered retval =>
    if retval = 0 then { s with pc := .driverRegistered }
    else { s with pc := .failed, cls := false, chrdev := false }
  | .mutexInit => { s with pc := .loaded, world := { s.world with deviceMutex := false } }
  | .call c => { s with world := (s.world.call D c).1 }

/-- Which calls can come: an `open` needs the character device, `probe` and `remove` the driver. -/
def Accepts (s : Module Reg) : Call → Prop
  | .open _ _ => s.chrdev = true
  | .release _ | .read _ _ | .write _ _ => True
  | .probe _ _ | .remove _ => s.pc = .registering ∨ s.pc = .driverRegistered ∨ s.pc = .loaded

def Enabled (s : Module Reg) : InitAct → Prop
  | .registerChrdev _ => s.pc = .start
  | .classCreate _ => s.pc = .chrdevRegistered
  | .platformDriverRegister => s.pc = .classCreated
  | .platformDriverRegistered _ => s.pc = .registering
  | .mutexInit => s.pc = .driverRegistered
  | .call c => s.Accepts c ∧ s.world.Issues c

instance (s : Module Reg) (c : Call) : Decidable (s.Accepts c) :=
  match c with
  | .open _ _ => inferInstanceAs (Decidable (_ = _))
  | .release _ | .read _ _ | .write _ _ => inferInstanceAs (Decidable True)
  | .probe _ _ | .remove _ => inferInstanceAs (Decidable (_ ∨ _))

instance (s : Module Reg) (a : InitAct) : Decidable (s.Enabled a) :=
  match a with
  | .registerChrdev _ | .classCreate _ | .platformDriverRegister | .platformDriverRegistered _ | .mutexInit =>
    inferInstanceAs (Decidable (_ = _))
  | .call _ => inferInstanceAs (Decidable (_ ∧ _))

def load (D : Driver Reg) : Lts.System (Module Reg) InitAct where
  Init s := s = ⟨.start, false, false, .initial 0⟩
  Enabled := Enabled
  next := next D

instance (s : Module Reg) (a : InitAct) : Decidable ((load D).Enabled s a) :=
  inferInstanceAs (Decidable (s.Enabled a))

end Module

namespace World
variable {w : World Reg}

/-- At most one file is open, and the device mutex is locked if and only if one is. -/
structure Exclusive (w : World Reg) : Prop where
  unique : ∀ f g, w.files f ≠ none → w.files g ≠ none → f = g
  locked : w.deviceMutex = true ↔ ∃ f, w.files f ≠ none

theorem Exclusive.initial (major : ℕ) : (World.initial major : World Reg).Exclusive :=
  ⟨fun f _ hf => absurd rfl hf, by simp [World.initial]⟩

theorem Exclusive.call (h : w.Exclusive) {c : Call} (hc : w.Issues c) : (w.call D c).1.Exclusive := by
  rcases call_files D w c with ⟨hfiles, hmutex, -⟩ | ⟨f, v, rfl, -, hfree, hfiles, hmutex, -⟩ |
    ⟨f, rfl, hfiles, hmutex⟩
  · exact ⟨by rw [hfiles]; exact h.unique, by rw [hfiles, hmutex]; exact h.locked⟩
  · -- the mutex was free, so no file was open
    have hnone : ∀ g, w.files g = none := fun g => by
      by_contra hg
      simp [h.locked.2 ⟨g, hg⟩] at hfree
    have honly : ∀ g, (w.call D (.open f v)).1.files g ≠ none → g = f := fun g hg => by
      by_contra hgf
      simp [hfiles, hgf, hnone] at hg
    refine ⟨fun g g' hg hg' => (honly g hg).trans (honly g' hg').symm, ?_⟩
    simp only [hmutex, true_iff]
    exact ⟨f, by simp [hfiles]⟩
  · -- the released file was the only one
    have hnone : ∀ g, (w.call D (.release f)).1.files g = none := fun g => by
      by_cases hgf : g = f
      · simp [hfiles, hgf]
      · by_contra hg
        rw [hfiles, update_of_ne hgf] at hg
        exact hgf (h.unique g f hg hc)
    exact ⟨fun g _ hg => absurd (hnone g) hg, by simp [hmutex, hnone]⟩

theorem exclusive_of_reach {P : World Reg → Call → Prop} (h : Lts.Reach (drive D) P w) : w.Exclusive := by
  refine h.invariant (I := Exclusive) ?_ fun _ _ hw hc _ => hw.call hc
  rintro _ ⟨major, rfl⟩
  exact .initial major

end World

namespace Module

/-- `mutex_init` finds no file open. -/
def Quiet (s : Module Reg) : InitAct → Prop
  | .mutexInit => ∀ f, s.world.files f = none
  | _ => True

theorem next_exclusive {s : Module Reg} (h : s.world.Exclusive) {a : InitAct} (ha : s.Enabled a) :
    (s.next D a).world.Exclusive ↔ s.Quiet a := by
  cases a with
  | mutexInit =>
    refine ⟨fun h' f => ?_, fun hq => ⟨h.unique, ?_⟩⟩
    · by_contra hf
      exact absurd (h'.locked.2 ⟨f, hf⟩) (by simp [next])
    · simp [next, show ∀ f, s.world.files f = none from hq]
  | call c => exact iff_of_true (h.call ha.2) trivial
  | registerChrdev major =>
    refine iff_of_true ?_ trivial
    unfold next
    dsimp only
    split
    · exact h
    · exact ⟨h.unique, h.locked⟩
  | classCreate err =>
    refine iff_of_true ?_ trivial
    unfold next
    dsimp only
    split <;> exact h
  | platformDriverRegister => exact iff_of_true h trivial
  | platformDriverRegistered retval =>
    refine iff_of_true ?_ trivial
    unfold next
    dsimp only
    split <;> exact h

/-- If no file is open when `mutex_init` runs, at most one file is open at any time, and the mutex is
locked as long as it is. A `mutex_init` that finds a file open unlocks the mutex under it. -/
theorem one_file_open (D : Driver Reg) (s : Module Reg) (h : Lts.Reach (load D) Quiet s) :
    (∀ f g, s.world.files f ≠ none → s.world.files g ≠ none → f = g) ∧
    (s.world.deviceMutex = true ↔ ∃ f, s.world.files f ≠ none) ∧
    ∀ a, s.Enabled a → ((s.next D a).world.Exclusive ↔ s.Quiet a) := by
  have hex : s.world.Exclusive := by
    refine h.invariant (I := fun s => s.world.Exclusive) ?_ ?_
    · rintro _ rfl
      exact .initial 0
    · intro s a hex ha hq
      exact (next_exclusive hex ha).2 hq
  exact ⟨hex.unique, hex.locked, fun a ha => next_exclusive hex ha⟩

theorem one_file_open_loaded :
    let s := (load pid).run ⟨.start, false, false, .initial 0⟩ [.registerChrdev 240, .call (.open 0 ⟨240, 0⟩),
      .call (.release 0), .classCreate 0, .platformDriverRegister,
      .call (.probe ⟨0, 0x43C00000⟩ ⟨some 1, 0, true, some 7⟩), .platformDriverRegistered 0, .mutexInit,
      .call (.open 1 ⟨240, 0⟩)]
    (∀ f g, s.world.files f ≠ none → s.world.files g ≠ none → f = g) ∧
    (s.world.deviceMutex = true ↔ ∃ f, s.world.files f ≠ none) ∧
    ∀ a, s.Enabled a → ((s.next pid a).world.Exclusive ↔ s.Quiet a) := by
  refine one_file_open pid _ (.run _ (.init rfl) ⟨by decide, trivial, by decide, trivial, by decide, trivial,
    by decide, trivial, by decide, trivial, by decide, trivial, by decide, trivial, by decide, ?_,
    by decide, trivial, trivial⟩)
  intro f
  cases f <;> rfl

/-- A process that opens a device before `mutex_init` shares it with the next one that does. -/
theorem two_files_open :
    ¬ (∀ s, Lts.Reach (load pid) (fun _ _ => True) s →
      ∀ f g, s.world.files f ≠ none → s.world.files g ≠ none → f = g) ∧
    ¬ (∀ s, Lts.Reach (load pwm) (fun _ _ => True) s →
      ∀ f g, s.world.files f ≠ none → s.world.files g ≠ none → f = g) ∧
    ¬ ∀ s, Lts.Reach (load encoder) (fun _ _ => True) s →
      ∀ f g, s.world.files f ≠ none → s.world.files g ≠ none → f = g := by
  have hrun : ∀ {Reg : Type} (D : Driver Reg) (s : Module Reg), Lts.Reach (load D) (fun _ _ => True) s →
      s.world.files 0 ≠ none → s.world.files 1 ≠ none →
      ¬ ∀ s, Lts.Reach (load D) (fun _ _ => True) s →
        ∀ f g, s.world.files f ≠ none → s.world.files g ≠ none → f = g :=
    fun D s hs h0 h1 h => absurd (h s hs 0 1 h0 h1) (by decide)
  refine ⟨hrun pid _ (.run [.registerChrdev 240, .classCreate 0, .platformDriverRegister,
      .call (.probe ⟨0, 0x43C00000⟩ ⟨some 1, 0, true, some 7⟩), .call (.open 0 ⟨240, 0⟩),
      .platformDriverRegistered 0, .mutexInit, .call (.open 1 ⟨240, 0⟩)] (.init rfl) (by decide))
      (by decide) (by decide),
    hrun pwm _ (.run [.registerChrdev 241, .classCreate 0, .platformDriverRegister,
      .call (.probe ⟨0, 0x43C10000⟩ ⟨some 1, 0, true, some 7⟩), .platformDriverRegistered 0,
      .call (.open 0 ⟨241, 0⟩), .mutexInit, .call (.open 1 ⟨241, 0⟩)] (.init rfl) (by decide))
      (by decide) (by decide),
    hrun encoder _ (.run [.registerChrdev 242, .call (.open 0 ⟨242, 3⟩), .classCreate 0,
      .platformDriverRegister, .platformDriverRegistered 0, .mutexInit, .call (.open 1 ⟨242, 4⟩)] (.init rfl)
      (by decide)) (by decide) (by decide)⟩

end Module

end Dcs
