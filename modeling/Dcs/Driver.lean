import Dcs.Lib.Lts
import Mathlib.Logic.Function.Basic
import Mathlib.Data.List.Range
import Mathlib.Tactic.Ring

/-!
# The kernel modules: devices, open files and calls

`PID.c`, `PWM.c` and `Encoder.c` share their life cycle: the same `probe`, `remove`, `open` and
`release` up to names and to the registers behind the mapped base. A `Driver` is what they differ in;
`World` is the state such a module and the kernel objects it uses are in. Each kernel service is one
function on it, `probe`, `remove`, `open` and `release` are the source's functions over these, and
`drive` is the system of all their calls. The outcomes of the services come with the call; a mutex is
a flag, and a call that locks a locked mutex never returns.
-/

namespace Dcs
open Function

/-- `dev_t`. -/
@[ext] structure DevT where
  major : ℕ
  minor : ℕ
deriving DecidableEq, Repr

/-- A platform device of the device tree, with the start of its register range. -/
structure PlatDev where
  id : ℕ
  start : ℕ
deriving DecidableEq, Repr

/-- The address of a `kzalloc`ed structure, of an ioremapped range, and of a `struct file`. -/
abbrev Ptr := ℕ
abbrev MapId := ℕ
abbrev FileId := ℕ

/-- An `__iomem` pointer: a word of a mapped range, or (`none`) a small number, as one gets from a
null pointer by adding words to it. -/
structure IoAddr where
  range : Option MapId
  word : ℕ
deriving DecidableEq, Repr

def IoAddr.null : IoAddr := ⟨none, 0⟩

/-- `addr + n` on a `uint32_t *`. -/
def IoAddr.add (a : IoAddr) (n : ℕ) : IoAddr := ⟨a.range, a.word + n⟩

def EPERM : ℤ := 1
def ENXIO : ℤ := 6
def ENOMEM : ℤ := 12
def EBUSY : ℤ := 16
def ENODEV : ℤ := 19

/-- What the modules differ in: the address fields of their device structure and the words these are
apart from the field that holds the mapped base, and whether `write` is possible. -/
structure Driver (Reg : Type) where
  nMinors : ℕ
  base : Reg
  offset : Reg → ℕ
  offset_base : offset base = 0
  writable : Bool

/-- `struct PID_data`, `struct PWM_data`, `struct Encoder_data`. -/
structure DevData (Reg : Type) where
  address : Reg → IoAddr
  messageRead : Bool
  baseRegister : ℕ
  devt : DevT

def DevData.zero {Reg : Type} : DevData Reg := ⟨fun _ => .null, false, 0, ⟨0, 0⟩⟩

/-- `struct file`: the device number of its inode and the driver's pointer. -/
structure File where
  rdev : DevT
  privateData : Option Ptr
deriving DecidableEq, Repr

structure World (Reg : Type) where
  major : ℕ
  minors : ℕ → Bool
  deviceList : List Ptr
  deviceListLock : Bool
  deviceMutex : Bool
  heap : Ptr → Option (DevData Reg)
  nodes : DevT → Bool
  regions : PlatDev → Bool
  mapped : MapId → Option PlatDev
  drvdata : PlatDev → Option Ptr
  files : FileId → Option File

inductive Outcome
  | returns (status : ℤ)
  /-- The call waits for a mutex that nobody will unlock. -/
  | blocks
  /-- A null or dangling pointer is followed. -/
  | faults
deriving DecidableEq, Repr

namespace World
variable {Reg : Type}

/-! ### Kernel services -/

def kzalloc (w : World Reg) (p : Ptr) : World Reg := { w with heap := update w.heap p (some .zero) }

def kfree (w : World Reg) (p : Ptr) : World Reg := { w with heap := update w.heap p none }

def modify (w : World Reg) (p : Ptr) (f : DevData Reg → DevData Reg) : World Reg :=
  { w with heap := update w.heap p ((w.heap p).map f) }

def lockList (w : World Reg) : World Reg := { w with deviceListLock := true }

def unlockList (w : World Reg) : World Reg := { w with deviceListLock := false }

/-- `find_first_zero_bit (minors, n)`: `n` if all bits are set. -/
def findFirstZeroBit (w : World Reg) (n : ℕ) : ℕ := ((List.range n).find? fun i => !w.minors i).getD n

def setBit (w : World Reg) (m : ℕ) : World Reg := { w with minors := update w.minors m true }

def clearBit (w : World Reg) (m : ℕ) : World Reg := { w with minors := update w.minors m false }

def listAdd (w : World Reg) (p : Ptr) : World Reg := { w with deviceList := p :: w.deviceList }

def listDel (w : World Reg) (p : Ptr) : World Reg := { w with deviceList := w.deviceList.erase p }

def deviceCreate (w : World Reg) (v : DevT) : World Reg := { w with nodes := update w.nodes v true }

def deviceDestroy (w : World Reg) (v : DevT) : World Reg := { w with nodes := update w.nodes v false }

def holdRegion (w : World Reg) (d : PlatDev) : World Reg := { w with regions := update w.regions d true }

def releaseMemRegion (w : World Reg) (d : PlatDev) : World Reg :=
  { w with regions := update w.regions d false }

/-- `of_iomap`; `none` is its failure. -/
def ofIomap (w : World Reg) (d : PlatDev) (m : Option MapId) : World Reg :=
  { w with mapped := match m with
    | none => w.mapped
    | some m => update w.mapped m (some d) }

def iounmap (w : World Reg) (a : IoAddr) : World Reg :=
  { w with mapped := match a.range with
    | none => w.mapped
    | some m => update w.mapped m none }

def setDrvdata (w : World Reg) (d : PlatDev) (p : Option Ptr) : World Reg :=
  { w with drvdata := update w.drvdata d p }

/-! ### The module's functions -/

structure Services where
  kzalloc : Option Ptr
  /-- `PTR_ERR_OR_ZERO` of `device_create_with_groups`. -/
  create : ℤ
  requestMemRegion : Bool
  ofIomap : Option MapId
deriving DecidableEq, Repr

/-- The stores after `of_iomap`: the base and the addresses counted from it. -/
def mapRegisters (D : Driver Reg) (m : Option MapId) (x : DevData Reg) : DevData Reg :=
  { x with address := fun r => (⟨m, 0⟩ : IoAddr).add (D.offset r) }

/-- `probe`: the search for a minor number and the creation of the node, with their status. -/
def createNode (D : Driver Reg) (w : World Reg) (p : Ptr) (o : Services) : World Reg × ℤ :=
  let minor := w.findFirstZeroBit D.nMinors
  if minor < D.nMinors then
    let w := w.modify p fun x => { x with devt := ⟨w.major, minor⟩ }
    (if o.create = 0 then w.deviceCreate ⟨w.major, minor⟩ else w, o.create)
  else (w, -ENODEV)

/-- `probe`: the part under `if (status == 0)`; `false` is `goto failed_memregion`. -/
def register (D : Driver Reg) (w : World Reg) (d : PlatDev) (p : Ptr) (minor : ℕ) (o : Services) :
    World Reg × Bool :=
  let w := (w.setBit minor).listAdd p
  if o.requestMemRegion = false then (w, false)
  else
    let w := (w.holdRegion d).modify p fun x => { x with baseRegister := d.start % 2 ^ 32 }
    ((w.ofIomap d o.ofIomap).modify p (mapRegisters D o.ofIomap), true)

/-- `PID_probe`, `PWM_probe`, `Encoder_probe`. -/
def probe (D : Driver Reg) (w : World Reg) (d : PlatDev) (o : Services) : World Reg × Outcome :=
  match o.kzalloc with
  | none => (w, .returns (-ENOMEM))
  | some p =>
    let w := w.kzalloc p
    if w.deviceListLock then (w, .blocks) else
    let w := w.lockList
    let minor := w.findFirstZeroBit D.nMinors
    let (w, status) := createNode D w p o
    if status = 0 then
      match register D w d p minor o with
      | (w, false) => ((w.deviceDestroy ⟨w.major, minor⟩).clearBit minor, .returns (-ENODEV))
      | (w, true) => (w.unlockList.setDrvdata d (some p), .returns status)
    else (w.unlockList.kfree p, .returns status)

/-- `PID_remove`, `PWM_remove`, `Encoder_remove`; the driver core clears the driver data after it. -/
def remove (D : Driver Reg) (w : World Reg) (d : PlatDev) : World Reg × Outcome :=
  match w.drvdata d with
  | none => (w, .faults)
  | some p =>
    if w.deviceListLock then (w, .blocks) else
    match w.heap p with
    | none => (w.lockList, .faults)
    | some x =>
      let w := w.lockList.iounmap (x.address D.base)
      let w := ((w.listDel p).deviceDestroy x.devt).clearBit x.devt.minor
      let w := if x.baseRegister ≠ 0 then w.releaseMemRegion d else w
      ((w.kfree p).unlockList.setDrvdata d none, .returns 0)

/-- The walk of `open` over the device list: each entry of the wanted device number is taken, the
last one stays. -/
def findDevice (w : World Reg) (rdev : DevT) : List Ptr → Option Ptr → World Reg × Option Ptr
  | [], found => (w, found)
  | p :: ps, found =>
    if (w.heap p).any fun x => x.devt = rdev then
      findDevice (w.modify p fun x => { x with messageRead := false }) rdev ps (some p)
    else findDevice w rdev ps found

/-- `PID_open`, `PWM_open`, `Encoder_open`. The status of the walk is not looked at, and the return
with `-EBUSY` leaves the list lock locked. -/
def «open» (w : World Reg) (f : FileId) (rdev : DevT) : World Reg × Outcome :=
  if w.deviceListLock then (w, .blocks) else
  let w := w.lockList
  let (w, found) := w.findDevice rdev w.deviceList none
  if w.deviceMutex then (w, .returns (-EBUSY))
  else
    let w := { w with deviceMutex := true }
    let w := w.unlockList
    ({ w with files := update w.files f (some ⟨rdev, found⟩) }, .returns 0)

/-- `PID_release`, `PWM_release`, `Encoder_release`. -/
def release (w : World Reg) (f : FileId) : World Reg × Outcome :=
  ({ w with deviceMutex := false, files := update w.files f none }, .returns 0)

/-- The shared part of `PID_read`, `PWM_read` and `Encoder_read`: one shot per open. `result` is what
the part that reads the register returns. -/
def read (w : World Reg) (f : FileId) (result : ℤ) : World Reg × Outcome :=
  match w.files f >>= File.privateData with
  | none => (w, .faults)
  | some p =>
    match w.heap p with
    | none => (w, .faults)
    | some x =>
      if x.messageRead then (w, .returns 0)
      else (w.modify p fun x => { x with messageRead := true }, .returns result)

/-- `PID_write` and `PWM_write` follow the structure to a register; `Encoder_write` only fails. -/
def write (D : Driver Reg) (w : World Reg) (f : FileId) (result : ℤ) : World Reg × Outcome :=
  if D.writable = false then (w, .returns (-EPERM)) else
  match w.files f >>= File.privateData with
  | none => (w, .faults)
  | some p => if (w.heap p).isSome then (w, .returns result) else (w, .faults)

end World

/-! ### Runs -/

inductive Call
  | open (f : FileId) (rdev : DevT)
  | release (f : FileId)
  | read (f : FileId) (result : ℤ)
  | write (f : FileId) (result : ℤ)
  | probe (d : PlatDev) (o : World.Services)
  | remove (d : PlatDev)
deriving DecidableEq, Repr

section
variable {Reg : Type} (D : Driver Reg)

def World.call (w : World Reg) : Call → World Reg × Outcome
  | .open f rdev => w.open f rdev
  | .release f => w.release f
  | .read f result => w.read f result
  | .write f result => w.write D f result
  | .probe d o => w.probe D d o
  | .remove d => w.remove D d

/-- The calls the kernel makes: the inode of an open carries the module's major number, files are
used between their open and their release, a device is probed while it has no driver data and removed
while it has, and what `kzalloc` and `of_iomap` hand out is not in use. -/
def World.Issues (w : World Reg) : Call → Prop
  | .open f rdev => w.files f = none ∧ rdev.major = w.major
  | .release f | .read f _ | .write f _ => w.files f ≠ none
  | .probe d o => w.drvdata d = none ∧ (∀ p ∈ o.kzalloc, w.heap p = none) ∧
      ∀ m ∈ o.ofIomap, w.mapped m = none
  | .remove d => w.drvdata d ≠ none

instance (w : World Reg) (c : Call) : Decidable (w.Issues c) :=
  match c with
  | .open _ _ => inferInstanceAs (Decidable (_ ∧ _))
  | .release _ | .read _ _ | .write _ _ => inferInstanceAs (Decidable (_ ≠ _))
  | .probe _ _ => inferInstanceAs (Decidable (_ ∧ (∀ _ ∈ _, _) ∧ ∀ _ ∈ _, _))
  | .remove _ => inferInstanceAs (Decidable (_ ≠ _))

/-- The module as it is after loading, before any device is probed. -/
def World.initial (major : ℕ) : World Reg where
  major := major
  minors _ := false
  deviceList := []
  deviceListLock := false
  deviceMutex := false
  heap _ := none
  nodes _ := false
  regions _ := false
  mapped _ := none
  drvdata _ := none
  files _ := none

def drive : Lts.System (World Reg) Call where
  Init w := ∃ major, w = .initial major
  Enabled := World.Issues
  next w c := (w.call D c).1

instance (w : World Reg) (c : Call) : Decidable ((drive D).Enabled w c) :=
  inferInstanceAs (Decidable (w.Issues c))

end

/-! ### The three modules -/

inductive PidReg
  | setpoint | P | I | D | update | state | emerg | position
deriving DecidableEq, Repr

inductive PwmReg
  | pulsewidth | frequency | pins
deriving DecidableEq, Repr

inductive EncoderReg
  | position | direction
deriving DecidableEq, Repr

def pid : Driver PidReg where
  nMinors := 32
  base := .setpoint
  offset
    | .setpoint => 0 | .P => 1 | .I => 2 | .D => 3 | .update => 4 | .state => 5 | .emerg => 6
    | .position => 7
  offset_base := rfl
  writable := true

def pwm : Driver PwmReg where
  nMinors := 32
  base := .pulsewidth
  offset
    | .pulsewidth => 0 | .frequency => 1 | .pins => 2
  offset_base := rfl
  writable := true

def encoder : Driver EncoderReg where
  nMinors := 32
  base := .position
  offset
    | .position => 0 | .direction => 1
  offset_base := rfl
  writable := false

def pidProbe := World.probe pid
def pwmProbe := World.probe pwm
def encoderProbe := World.probe encoder

def pidRemove := World.remove pid
def pwmRemove := World.remove pwm
def encoderRemove := World.remove encoder

end Dcs
