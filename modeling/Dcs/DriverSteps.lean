import Dcs.DriverWf

/-!
# probe and remove step by step

Here `probe` and `remove` are sequences of steps, and steps of different devices interleave.
`Label` is the place a `probe` or a `remove` has reached, `Steps.step` is the statement that comes
next there, and `stepwise` is the system of all interleavings.
-/

namespace Dcs
open Function

/-- What the last step of a `probe` or a `remove` was. -/
inductive Label
  | kzalloced | locked | createFailed | unlockedFailed
  | created (minor : ℕ) | bitSet | listed | refused | refusedDestroyed | requested | mapped | unlocked
  | bound
  | removing | iounmapped | unlisted | destroyed | bitCleared | released
deriving DecidableEq, Repr

/-- The place of a device, with the local pointer of its `probe` or `remove`. -/
inductive Pc
  | idle
  | at (l : Label) (p : Ptr)
  | freed
deriving DecidableEq, Repr

/-- How far the addresses are: as `kzalloc` left them, set up, or unmapped. -/
inductive Mapping
  | unset | set | gone
deriving DecidableEq, Repr

namespace Label

/-- Between `mutex_lock` and `mutex_unlock`. -/
def hasLock : Label → Bool
  | kzalloced | unlockedFailed | unlocked | bound => false
  | _ => true

def hasDevt : Label → Bool
  | kzalloced | locked | createFailed | unlockedFailed => false
  | _ => true

def hasBit : Label → Bool
  | kzalloced | locked | createFailed | unlockedFailed | created _ | bitCleared | released => false
  | _ => true

def hasNode : Label → Bool
  | kzalloced | locked | createFailed | unlockedFailed | refusedDestroyed | destroyed | bitCleared
  | released => false
  | _ => true

def isListed : Label → Bool
  | listed | refused | refusedDestroyed | requested | mapped | unlocked | bound | removing | iounmapped => true
  | _ => false

def io : Label → Mapping
  | mapped | unlocked | bound | removing => .set
  | iounmapped | unlisted | destroyed | bitCleared | released => .gone
  | _ => .unset

end Label

def Pc.hasLock : Pc → Bool
  | idle => false
  | .at l _ => l.hasLock
  | freed => true

def Pc.label : Pc → Option Label
  | .at l _ => some l
  | _ => none

structure Steps (Reg : Type) where
  world : World Reg
  pc : PlatDev → Pc

inductive StepAct
  | probe (d : PlatDev) (o : World.Services)
  | remove (d : PlatDev)
  | advance (d : PlatDev) (o : World.Services)
deriving DecidableEq, Repr

namespace Steps
variable {Reg : Type}

/-- The next step of `probe` or `remove` from place `l`; `x` is what the local pointer `p` points to. -/
def step (D : Driver Reg) (w : World Reg) (d : PlatDev) (o : World.Services) (p : Ptr) (x : DevData Reg) :
    Label → World Reg × Pc
  | .kzalloced => (w.lockList, .at .locked p)
  | .locked =>
    let (w', status) := World.createNode D w p o
    (w', if status = 0 then .at (.created (w.findFirstZeroBit D.nMinors)) p else .at .createFailed p)
  | .createFailed => (w.unlockList, .at .unlockedFailed p)
  | .unlockedFailed => (w.kfree p, .idle)
  | .created minor => (w.setBit minor, .at .bitSet p)
  | .bitSet => (w.listAdd p, .at .listed p)
  | .listed =>
    if o.requestMemRegion = false then (w, .at .refused p)
    else ((w.holdRegion d).modify p fun x => { x with baseRegister := d.start % 2 ^ 32 }, .at .requested p)
  | .refused => (w.deviceDestroy x.devt, .at .refusedDestroyed p)
  | .refusedDestroyed => (w.clearBit x.devt.minor, .idle)
  | .requested => ((w.ofIomap d o.ofIomap).modify p (World.mapRegisters D o.ofIomap), .at .mapped p)
  | .mapped => (w.unlockList, .at .unlocked p)
  | .unlocked => (w.setDrvdata d (some p), .at .bound p)
  | .bound => (w, .at .bound p)
  | .removing => (w.iounmap (x.address D.base), .at .iounmapped p)
  | .iounmapped => (w.listDel p, .at .unlisted p)
  | .unlisted => (w.deviceDestroy x.devt, .at .destroyed p)
  | .destroyed => (w.clearBit x.devt.minor, .at .bitCleared p)
  | .bitCleared => (if x.baseRegister ≠ 0 then w.releaseMemRegion d else w, .at .released p)
  | .released => (w.kfree p, .freed)

/-- One step of one device. A `probe` starts with `kzalloc`, a `remove` with the driver data and
`mutex_lock`; a pointer to freed memory stops its device. -/
def next (D : Driver Reg) (s : Steps Reg) : StepAct → Steps Reg
  | .probe d o =>
    match o.kzalloc with
    | none => s
    | some p => ⟨s.world.kzalloc p, update s.pc d (.at .kzalloced p)⟩
  | .remove d =>
    match s.world.drvdata d with
    | none => s
    | some p => ⟨s.world.lockList, update s.pc d (.at .removing p)⟩
  | .advance d o =>
    match s.pc d with
    | .idle => s
    | .freed => ⟨s.world.unlockList.setDrvdata d none, update s.pc d .idle⟩
    | .at l p =>
      match s.world.heap p with
      | none => s
      | some x => ⟨(step D s.world d o p x l).1, update s.pc d (step D s.world d o p x l).2⟩

/-- A step that takes the list lock waits until it is free. -/
def Enabled (s : Steps Reg) : StepAct → Prop
  | .probe d o => s.pc d = .idle ∧ ∀ p ∈ o.kzalloc, s.world.heap p = none
  | .remove d => (s.pc d).label = some .bound ∧ s.world.deviceListLock = false
  | .advance d o => ((s.pc d).label = some .kzalloced → s.world.deviceListLock = false) ∧
      ((s.pc d).label = some .requested → ∀ m ∈ o.ofIomap, s.world.mapped m = none)

instance (s : Steps Reg) (a : StepAct) : Decidable (s.Enabled a) := by
  cases a <;> unfold Enabled <;> infer_instance

end Steps

def stepwise {Reg : Type} (D : Driver Reg) : Lts.System (Steps Reg) StepAct where
  Init s := ∃ major, s = ⟨.initial major, fun _ => .idle⟩
  Enabled := Steps.Enabled
  next := Steps.next D

instance {Reg : Type} (D : Driver Reg) (s : Steps Reg) (a : StepAct) : Decidable ((stepwise D).Enabled s a) :=
  inferInstanceAs (Decidable (s.Enabled a))

end Dcs
