import Dcs.DriverWf
import Dcs.Sysfs

/-!
# The handlers that write registers

`PID_write`, `PWM_write` and the two `sys_set_node` parse the buffer, transform the number and store
it. None of them looks at the parser's error before the store, so a rejected input stores whatever
the output variable held: `rejected_input` says what that does to each register.
-/

namespace Dcs
open Function

abbrev Buffer := List UInt8

abbrev Io := IoAddr → BitVec 32

/-- The kernel's number parsers, with base 0: a number or a negative error. -/
structure Kstrto where
  kstrtoint : Buffer → Except ℤ (BitVec 32)
  kstrtointFromUser : Buffer → Except ℤ (BitVec 32)
  kstrtouintFromUser : Buffer → Except ℤ (BitVec 32)
  kstrtoint_neg : ∀ b e, kstrtoint b = .error e → e < 0
  kstrtointFromUser_neg : ∀ b e, kstrtointFromUser b = .error e → e < 0
  kstrtouintFromUser_neg : ∀ b e, kstrtouintFromUser b = .error e → e < 0

/-- What a parser returns and leaves in the output variable, which was `old`. -/
def parsed (r : Except ℤ (BitVec 32)) (old : BitVec 32) : ℤ × BitVec 32 :=
  match r with
  | .ok v => (0, v)
  | .error e => (e, old)

/-- `return retval ? retval : count`. -/
def retvalOr (retval : ℤ) (buffer : Buffer) : ℤ := if retval ≠ 0 then retval else buffer.length

section
variable (K : Kstrto)

/-! ### PID -/

/-- `PID_write`; `junk` is in the uninitialised `converted_value`. -/
def pidWrite (w : World PidReg) (f : FileId) (buffer : Buffer) (junk : BitVec 32) (io : Io) : Outcome × Io :=
  match w.files f >>= File.privateData with
  | none => (.faults, io)
  | some p =>
    match w.heap p with
    | none => (.faults, io)
    | some x =>
      let (retval, value) := parsed (K.kstrtointFromUser buffer) junk
      (.returns (retvalOr retval buffer), update io (x.address .setpoint) (value * 100000))

/-- `sys_set_node` of PID. -/
def pidSysSet (w : World PidReg) (v : DevT) (a : PidAttr) (buffer : Buffer) (io : Io) : Outcome × Io :=
  match pidSetAddress w v a with
  | .error e => (e, io)
  | .ok address =>
    let (retval, value) := parsed (K.kstrtoint buffer) 0
    (.returns (retvalOr retval buffer), update io address (value * 100000))

/-! ### PWM -/

/-- What `PWM_write` returns to its caller's `retval ? retval : count` and what it stores. The limit of
8192 is applied to the parser's status. -/
def pwmStore (buffer : Buffer) : ℤ × BitVec 32 :=
  let (retval, value) := parsed (K.kstrtouintFromUser buffer) 0
  (if retval > 8192 then 8192 else retval, value)

def pwmWrite (w : World PwmReg) (f : FileId) (buffer : Buffer) (io : Io) : Outcome × Io :=
  match w.files f >>= File.privateData with
  | none => (.faults, io)
  | some p =>
    match w.heap p with
    | none => (.faults, io)
    | some x =>
      let (retval, value) := pwmStore K buffer
      (.returns (retvalOr retval buffer), update io (x.address .pulsewidth) value)

structure PwmSet where
  address : IoAddr
  retval : ℤ
  value : BitVec 32
deriving DecidableEq, Repr

def PwmAttr.transform (a : PwmAttr) (old value : BitVec 32) : BitVec 32 :=
  match a with
  | .FREQUENCY => value
  | .DIRECTION => if value ≠ 0 then old ||| value else old &&& 0xFFFE
  | .ENABLE => if value ≠ 0 then old ||| (value <<< 1) else old &&& 0xFFFD

/-- The loop body of `sys_set_node` of PWM, which parses the buffer at the matching entry. -/
def pwmSetBody (v : DevT) (a : PwmAttr) (buffer : Buffer) (io : Io) (x : DevData PwmReg) (s : PwmSet) :
    Except Outcome PwmSet :=
  if x.devt = v then
    let (retval, value) := parsed (K.kstrtoint buffer) s.value
    match a with
    | .FREQUENCY => .ok ⟨x.address .frequency, retval, PwmAttr.FREQUENCY.transform 0 value⟩
    | .DIRECTION => .ok ⟨x.address .pins, retval, PwmAttr.DIRECTION.transform (io (x.address .pins)) value⟩
    | .ENABLE => .ok ⟨x.address .pins, retval, PwmAttr.ENABLE.transform (io (x.address .pins)) value⟩
  else .ok s

/-- `sys_set_node` of PWM. -/
def pwmSysSet (w : World PwmReg) (v : DevT) (a : PwmAttr) (buffer : Buffer) (io : Io) : Outcome × Io :=
  match w.walk (pwmSetBody K v a buffer io) w.deviceList ⟨.null, -1, 0⟩ with
  | .error e => (e, io)
  | .ok s => (.returns (retvalOr s.retval buffer), update io s.address s.value)

end

/-! ### Decimal numbers -/

def EINVAL : ℤ := 22
def ERANGE : ℤ := 34

/-- The value of a text of decimal digits, which may end in a newline. -/
def digits (b : Buffer) : Option ℕ :=
  let b := if b.getLast? = some 10 then b.dropLast else b
  if b ≠ [] ∧ b.all fun c => 48 ≤ c ∧ c ≤ 57 then some (b.foldl (fun n c => 10 * n + (c.toNat - 48)) 0)
  else none

def decimalInt (b : Buffer) : Except ℤ (BitVec 32) :=
  let value := match b with
    | 45 :: b => (digits b).map fun n => -(n : ℤ)
    | b => (digits b).map fun n => (n : ℤ)
  match value with
  | none => .error (-EINVAL)
  | some z => if -2 ^ 31 ≤ z ∧ z < 2 ^ 31 then .ok (.ofInt 32 z) else .error (-ERANGE)

def decimalUint (b : Buffer) : Except ℤ (BitVec 32) :=
  match digits b with
  | none => .error (-EINVAL)
  | some n => if n < 2 ^ 32 then .ok (.ofNat 32 n) else .error (-ERANGE)

theorem decimalInt_neg (b : Buffer) (e : ℤ) (h : decimalInt b = .error e) : e < 0 := by
  unfold decimalInt at h
  dsimp only at h
  split at h
  · cases h; decide
  · split at h <;> cases h
    decide

theorem decimalUint_neg (b : Buffer) (e : ℤ) (h : decimalUint b = .error e) : e < 0 := by
  unfold decimalUint at h
  split at h
  · cases h; decide
  · split at h <;> cases h
    decide

/-- The parsers on numbers without a base prefix. -/
def decimal : Kstrto :=
  ⟨decimalInt, decimalInt, decimalUint, decimalInt_neg, decimalInt_neg, decimalUint_neg⟩

/-! ### What the handlers have in common -/

variable {K : Kstrto}

theorem World.walk_map {Reg σ τ : Type} {w : World Reg} {body : DevData Reg → σ → Except Outcome σ}
    {body' : DevData Reg → τ → Except Outcome τ} {g : σ → τ} (h : ∀ x s, (body x s).map g = body' x (g s))
    (ps : List Ptr) (s : σ) : (w.walk body ps s).map g = w.walk body' ps (g s) := by
  induction ps generalizing s with
  | nil => rfl
  | cons p ps ih =>
    simp only [walk]
    cases w.heap p with
    | none => rfl
    | some x =>
      simp only [← h x s]
      cases body x s with
      | error e => rfl
      | ok t => exact ih t

/-- `sys_set_node` of PWM stores to the address that `pwmAddress` finds. -/
theorem pwmSysSet_address (w : World PwmReg) (v : DevT) (a : PwmAttr) (buffer : Buffer) (io : Io) :
    (w.walk (pwmSetBody K v a buffer io) w.deviceList ⟨.null, -1, 0⟩).map PwmSet.address = pwmAddress w v a := by
  refine World.walk_map (fun x s => ?_) _ _
  by_cases hv : x.devt = v
  · cases a <;> simp [pwmSetBody, pwmBody, hv, Except.map]
  · simp [pwmSetBody, pwmBody, hv, Except.map]

/-- `PID_write` follows the same pointers as `World.write`. -/
theorem pidWrite_outcome (w : World PidReg) (f : FileId) (buffer : Buffer) (junk : BitVec 32) (io : Io) :
    (pidWrite K w f buffer junk io).1 =
      (w.write pid f (retvalOr (parsed (K.kstrtointFromUser buffer) junk).1 buffer)).2 := by
  rw [pidWrite, World.write, if_neg (by decide)]
  cases w.files f >>= File.privateData with
  | none => rfl
  | some p =>
    cases hx : w.heap p with
    | none => simp [hx]
    | some x => simp [hx]

theorem pwmWrite_outcome (w : World PwmReg) (f : FileId) (buffer : Buffer) (io : Io) :
    (pwmWrite K w f buffer io).1 = (w.write pwm f (retvalOr (pwmStore K buffer).1 buffer)).2 := by
  rw [pwmWrite, World.write, if_neg (by decide)]
  cases w.files f >>= File.privateData with
  | none => rfl
  | some p =>
    cases hx : w.heap p with
    | none => simp [hx]
    | some x => simp [hx]

theorem retvalOr_neg {e : ℤ} (h : e < 0) (buffer : Buffer) : retvalOr e buffer = e := by
  rw [retvalOr, if_pos (by omega)]

theorem update_io_iff {io : Io} {a : IoAddr} {v : BitVec 32} : update io a v = io ↔ io a = v := by
  rw [update_eq_self_iff, eq_comm]

/-- What the handlers rely on: the entries of the device list are allocated and differ in their numbers. -/
structure World.Entries {Reg : Type} (w : World Reg) : Prop where
  nodup : w.deviceList.Nodup
  alloc : ∀ p ∈ w.deviceList, ∃ x, w.heap p = some x
  distinct : ∀ p q x y, w.Entry p x → w.Entry q y → x.devt = y.devt → p = q

theorem World.Wf.entries {Reg : Type} {D : Driver Reg} {w : World Reg} (hw : w.Wf D) : w.Entries :=
  ⟨hw.nodup, hw.alloc, hw.distinct⟩

/-- The walk of a handler is its body at the entry with the device number. -/
theorem World.Entries.walk_entry {Reg σ : Type} {w : World Reg} (hw : w.Entries) {p : Ptr} {x : DevData Reg}
    (hx : w.Entry p x) {body : DevData Reg → σ → Except Outcome σ}
    (hbody : ∀ y t, y.devt ≠ x.devt → body y t = .ok t) (s : σ) : w.walk body w.deviceList s = body x s := by
  refine World.walk_one hx.1 hw.nodup hx.2 fun q hq hqp => ?_
  obtain ⟨y, hy⟩ := hw.alloc q hq
  exact ⟨y, hy, fun t => hbody y t fun hv => hqp (hw.distinct q p y x ⟨hq, hy⟩ hx hv)⟩

/-- `sys_set_node` of PID for a registered device: one store. -/
theorem pidSysSet_entry {w : World PidReg} (hw : w.Entries) {p : Ptr} {x : DevData PidReg} (hx : w.Entry p x)
    {a : PidAttr} (ha : a.Writable) (buffer : Buffer) (io : Io) :
    pidSysSet K w x.devt a buffer io =
      (.returns (retvalOr (parsed (K.kstrtoint buffer) 0).1 buffer),
        update io (x.address a.reg) ((parsed (K.kstrtoint buffer) 0).2 * 100000)) := by
  have haddr : pidSetAddress w x.devt a = .ok (x.address a.reg) := by
    rw [pidSetAddress, hw.walk_entry hx fun y t hv => by simp [pidSetBody, hv]]
    cases a with
    | State => exact absurd rfl ha.1
    | Emerg => exact absurd rfl ha.2
    | _ => simp [pidSetBody, PidAttr.reg]
  simp only [pidSysSet, haddr]

/-- The walk of `sys_set_node` of PWM: where and what it is going to store. -/
theorem pwmSet_walk {w : World PwmReg} (hw : w.Entries) {p : Ptr} {x : DevData PwmReg} (hx : w.Entry p x)
    (a : PwmAttr) (buffer : Buffer) (io : Io) :
    w.walk (pwmSetBody K x.devt a buffer io) w.deviceList ⟨.null, -1, 0⟩ =
      .ok ⟨x.address a.reg, (parsed (K.kstrtoint buffer) 0).1,
        a.transform (io (x.address a.reg)) (parsed (K.kstrtoint buffer) 0).2⟩ := by
  rw [hw.walk_entry hx fun y t hv => by simp [pwmSetBody, hv]]
  cases a <;> simp [pwmSetBody, PwmAttr.reg, PwmAttr.transform]

theorem pwmSysSet_entry {w : World PwmReg} (hw : w.Entries) {p : Ptr} {x : DevData PwmReg} (hx : w.Entry p x)
    (a : PwmAttr) (buffer : Buffer) (io : Io) :
    pwmSysSet K w x.devt a buffer io =
      (.returns (retvalOr (parsed (K.kstrtoint buffer) 0).1 buffer),
        update io (x.address a.reg) (a.transform (io (x.address a.reg)) (parsed (K.kstrtoint buffer) 0).2)) := by
  simp only [pwmSysSet, pwmSet_walk hw hx]

/-! ### Rejected input -/

/-- The contents that a rejected input leaves as they are. -/
def PwmAttr.Stable (a : PwmAttr) (r : BitVec 32) : Prop :=
  match a with
  | .FREQUENCY => r = 0
  | .DIRECTION => r &&& 0xFFFE = r
  | .ENABLE => r &&& 0xFFFD = r

theorem pidSysSet_rejected {w : World PidReg} (hw : w.Wf pid) {p : Ptr} {x : DevData PidReg} (hx : w.Entry p x)
    {a : PidAttr} (ha : a.Writable) {buffer : Buffer} {e : ℤ} (he : K.kstrtoint buffer = .error e) (io : Io) :
    (pidSysSet K w x.devt a buffer io).1 = .returns e ∧
      ((pidSysSet K w x.devt a buffer io).2 = io ↔ io (x.address a.reg) = 0) := by
  rw [pidSysSet_entry hw.entries hx ha, he]
  simp only [parsed]
  exact ⟨by rw [retvalOr_neg (K.kstrtoint_neg _ _ he)], update_io_iff⟩

theorem pwmSysSet_rejected {w : World PwmReg} (hw : w.Wf pwm) {p : Ptr} {x : DevData PwmReg} (hx : w.Entry p x)
    (a : PwmAttr) {buffer : Buffer} {e : ℤ} (he : K.kstrtoint buffer = .error e) (io : Io) :
    (pwmSysSet K w x.devt a buffer io).1 = .returns e ∧
      ((pwmSysSet K w x.devt a buffer io).2 = io ↔ a.Stable (io (x.address a.reg))) := by
  rw [pwmSysSet_entry hw.entries hx, he]
  refine ⟨by rw [parsed, retvalOr_neg (K.kstrtoint_neg _ _ he)], update_io_iff.trans ?_⟩
  cases a <;> simp [parsed, PwmAttr.transform, PwmAttr.Stable, eq_comm]

theorem pidWrite_rejected {w : World PidReg} {f : FileId} {p : Ptr} {x : DevData PidReg}
    (hp : w.files f >>= File.privateData = some p) (hx : w.heap p = some x) {buffer : Buffer} {e : ℤ}
    (he : K.kstrtointFromUser buffer = .error e) (junk : BitVec 32) (io : Io) :
    (pidWrite K w f buffer junk io).1 = .returns e ∧
      ((pidWrite K w f buffer junk io).2 = io ↔ io (x.address .setpoint) = junk * 100000) := by
  simp only [pidWrite, hp, hx, he, parsed]
  exact ⟨by rw [retvalOr_neg (K.kstrtointFromUser_neg _ _ he)], update_io_iff⟩

theorem pwmWrite_rejected {w : World PwmReg} {f : FileId} {p : Ptr} {x : DevData PwmReg}
    (hp : w.files f >>= File.privateData = some p) (hx : w.heap p = some x) {buffer : Buffer} {e : ℤ}
    (he : K.kstrtouintFromUser buffer = .error e) (io : Io) :
    (pwmWrite K w f buffer io).1 = .returns e ∧
      ((pwmWrite K w f buffer io).2 = io ↔ io (x.address .pulsewidth) = 0) := by
  have hneg := K.kstrtouintFromUser_neg _ _ he
  simp only [pwmWrite, hp, hx, pwmStore, he, parsed]
  exact ⟨by rw [if_neg (by omega), retvalOr_neg hneg], update_io_iff⟩

/-- A handler whose parser rejects the input returns the error, and has left the registers alone only
if the register it writes already held what a rejected input stores. -/
theorem rejected_input (K : Kstrto) (buffer : Buffer) (e : ℤ) (io : Io) :
    (∀ w f p x junk, w.files f >>= File.privateData = some p → w.heap p = some x →
      K.kstrtointFromUser buffer = .error e → (pidWrite K w f buffer junk io).1 = .returns e ∧
        ((pidWrite K w f buffer junk io).2 = io ↔ io (x.address .setpoint) = junk * 100000)) ∧
    (∀ w p x a, Lts.Reach (drive pid) (fun _ _ => True) w → w.Entry p x → PidAttr.Writable a →
      K.kstrtoint buffer = .error e → (pidSysSet K w x.devt a buffer io).1 = .returns e ∧
        ((pidSysSet K w x.devt a buffer io).2 = io ↔ io (x.address a.reg) = 0)) ∧
    (∀ w f p x, w.files f >>= File.privateData = some p → w.heap p = some x →
      K.kstrtouintFromUser buffer = .error e → (pwmWrite K w f buffer io).1 = .returns e ∧
        ((pwmWrite K w f buffer io).2 = io ↔ io (x.address .pulsewidth) = 0)) ∧
    ∀ w p x a, Lts.Reach (drive pwm) (fun _ _ => True) w → w.Entry p x →
      K.kstrtoint buffer = .error e → (pwmSysSet K w x.devt a buffer io).1 = .returns e ∧
        ((pwmSysSet K w x.devt a buffer io).2 = io ↔ PwmAttr.Stable a (io (x.address a.reg))) :=
  ⟨fun _ _ _ _ junk hp hx he => pidWrite_rejected hp hx he junk io,
    fun _ _ _ _ hw hx ha he => pidSysSet_rejected (.of_reach hw) hx ha he io,
    fun _ _ _ _ hp hx he => pwmWrite_rejected hp hx he io,
    fun _ _ _ a hw hx he => pwmSysSet_rejected (.of_reach hw) hx a he io⟩

/-- The text `on`, with a newline. -/
def onText : Buffer := [111, 110, 10]

theorem rejected_input_on :
    let w := (drive pid).run (.initial 240) [.probe ⟨0, 0x43C00000⟩ ⟨some 1, 0, true, some 7⟩, .open 0 ⟨240, 0⟩]
    (pidWrite decimal w 0 onText 0 fun _ => 0).1 = .returns (-22) ∧
      ((pidWrite decimal w 0 onText 0 fun _ => 0).2 = (fun _ => 0) ↔ (0 : BitVec 32) = 0 * 100000) :=
  (rejected_input decimal onText (-22) fun _ => 0).1 _ 0 1 _ 0 rfl rfl rfl

/-- In each handler a rejected input changes a register. -/
theorem rejected_input_stores :
    ¬ (∀ w f junk io e, Lts.Reach (drive pid) (fun _ _ => True) w → decimal.kstrtointFromUser onText = .error e →
      (pidWrite decimal w f onText junk io).2 = io) ∧
    ¬ (∀ w v a io e, Lts.Reach (drive pid) (fun _ _ => True) w → PidAttr.Writable a →
      decimal.kstrtoint onText = .error e → (pidSysSet decimal w v a onText io).2 = io) ∧
    ¬ (∀ w f io e, Lts.Reach (drive pwm) (fun _ _ => True) w → decimal.kstrtouintFromUser onText = .error e →
      (pwmWrite decimal w f onText io).2 = io) ∧
    ¬ ∀ w v a io e, Lts.Reach (drive pwm) (fun _ _ => True) w → decimal.kstrtoint onText = .error e →
      (pwmSysSet decimal w v a onText io).2 = io := by
  have hpid : Lts.Reach (drive pid) (fun _ _ => True) ((drive pid).run (.initial 240)
      [.probe ⟨0, 0x43C00000⟩ ⟨some 1, 0, true, some 7⟩, .open 0 ⟨240, 0⟩]) :=
    .run _ (.init ⟨240, rfl⟩) (by decide)
  have hpwm : Lts.Reach (drive pwm) (fun _ _ => True) ((drive pwm).run (.initial 241)
      [.probe ⟨0, 0x43C10000⟩ ⟨some 1, 0, true, some 7⟩, .open 0 ⟨241, 0⟩]) :=
    .run _ (.init ⟨241, rfl⟩) (by decide)
  refine ⟨fun h => ?_, fun h => ?_, fun h => ?_, fun h => ?_⟩
  · exact absurd (congrFun (h _ 0 1 (fun _ => 0) _ hpid rfl) ⟨some 7, 0⟩) (by decide)
  · exact absurd (congrFun (h _ ⟨240, 0⟩ .P (fun _ => 5) _ hpid (by decide) rfl) ⟨some 7, 1⟩) (by decide)
  · exact absurd (congrFun (h _ 0 (fun _ => 5) _ hpwm rfl) ⟨some 7, 0⟩) (by decide)
  · exact absurd (congrFun (h _ ⟨241, 0⟩ .ENABLE (fun _ => 3) _ hpwm rfl) ⟨some 7, 2⟩) (by decide)

end Dcs
