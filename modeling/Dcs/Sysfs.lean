import Dcs.Driver

/-!
# The address a sysfs handler uses

`sys_read_node` and `sys_set_node` walk the device list without a lock and carry a local `address`
along. `World.walk` is `list_for_each_entry` with the body of the loop as a parameter; the body may
return from the handler.
-/

namespace Dcs

namespace World
variable {Reg σ : Type}

/-- `list_for_each_entry` over the device list, from the rest `ps` of it on. -/
def walk (w : World Reg) (body : DevData Reg → σ → Except Outcome σ) : List Ptr → σ → Except Outcome σ
  | [], s => .ok s
  | p :: ps, s =>
    match w.heap p with
    | none => .error .faults
    | some x =>
      match body x s with
      | .ok s => walk w body ps s
      | .error e => .error e

variable {w : World Reg} {body : DevData Reg → σ → Except Outcome σ} {ps : List Ptr} {s : σ}

theorem walk_cons {p : Ptr} {x : DevData Reg} (hx : w.heap p = some x) :
    w.walk body (p :: ps) s = body x s >>= w.walk body ps := by
  simp only [walk, hx]
  cases body x s <;> rfl

theorem walk_skip (hps : ∀ q ∈ ps, ∃ y, w.heap q = some y ∧ ∀ t, body y t = .ok t) :
    w.walk body ps s = .ok s := by
  induction ps with
  | nil => rfl
  | cons q ps ih =>
    obtain ⟨⟨y, hy, hskip⟩, hps⟩ := List.forall_mem_cons.1 hps
    rw [walk_cons hy, hskip]
    exact ih hps

theorem walk_one {p : Ptr} {x : DevData Reg} (hp : p ∈ ps) (hnodup : ps.Nodup) (hx : w.heap p = some x)
    (hps : ∀ q ∈ ps, q ≠ p → ∃ y, w.heap q = some y ∧ ∀ t, body y t = .ok t) :
    w.walk body ps s = body x s := by
  induction ps with
  | nil => cases hp
  | cons q ps ih =>
    obtain ⟨hq, hnodup⟩ := List.nodup_cons.1 hnodup
    obtain ⟨hskip, hps⟩ := List.forall_mem_cons.1 hps
    by_cases hqp : q = p
    · subst hqp
      rw [walk_cons hx]
      cases hb : body x s with
      | error e => rfl
      | ok t => exact walk_skip fun r hr => hps r hr (by rintro rfl; exact hq hr)
    · obtain ⟨y, hy, hid⟩ := hskip hqp
      rw [walk_cons hy, hid]
      exact ih (by simpa [Ne.symm hqp] using hp) hnodup hps

/-- A walk that overwrites the state at every entry ends with the last one. -/
theorem walk_last {g : DevData Reg → σ} {p : Ptr} {x : DevData Reg}
    (hps : ∀ q ∈ ps, ∃ y, w.heap q = some y) (hbody : ∀ y t, body y t = .ok (g y))
    (hlast : ps.getLast? = some p) (hx : w.heap p = some x) : w.walk body ps s = .ok (g x) := by
  induction ps generalizing s with
  | nil => cases hlast
  | cons q ps ih =>
    obtain ⟨⟨y, hy⟩, hps⟩ := List.forall_mem_cons.1 hps
    rw [walk_cons hy, hbody]
    cases ps with
    | nil =>
      obtain rfl : q = p := by simpa using hlast
      obtain rfl : y = x := Option.some.inj (hy.symm.trans hx)
      rfl
    | cons r ps => exact ih hps (by simpa using hlast)

end World

/-! ### PID -/

inductive PidAttr
  | P | I | D | State | Update | Emerg
deriving DecidableEq, Repr

/-- The attributes that have `sys_read_node`, and those that have `sys_set_node`. -/
def PidAttr.Readable (a : PidAttr) : Prop := a ≠ .Update
def PidAttr.Writable (a : PidAttr) : Prop := a ≠ .State ∧ a ≠ .Emerg

instance (a : PidAttr) : Decidable a.Readable := inferInstanceAs (Decidable (_ ≠ _))
instance (a : PidAttr) : Decidable a.Writable := inferInstanceAs (Decidable (_ ∧ _))

def PidAttr.reg : PidAttr → PidReg
  | .P => .P | .I => .I | .D => .D | .State => .state | .Update => .update | .Emerg => .emerg

/-- The loop body of `sys_read_node`: the table of `P` and `I` is searched at every entry, before the
device number is compared. -/
def pidReadBody (v : DevT) (a : PidAttr) (x : DevData PidReg) (address : IoAddr) : Except Outcome IoAddr :=
  let address := match a with
    | .P => x.address .P
    | .I => x.address .I
    | _ => address
  if x.devt = v then
    match a with
    | .P => .ok (x.address .P)
    | .I => .ok (x.address .I)
    | .D => .ok (x.address .D)
    | .State => .ok (x.address .state)
    | .Emerg => .ok (x.address .emerg)
    | .Update => .error (.returns (- ENXIO))
  else .ok address

/-- The loop body of `sys_read_node` in `PID_Bas_v3.c`, which passes over an attribute it does not know. -/
def pidBasReadBody (v : DevT) (a : PidAttr) (x : DevData PidReg) (address : IoAddr) : Except Outcome IoAddr :=
  let address := match a with
    | .P => x.address .P
    | .I => x.address .I
    | _ => address
  if x.devt = v then
    match a with
    | .P => .ok (x.address .P)
    | .I => .ok (x.address .I)
    | .D => .ok (x.address .D)
    | .State => .ok (x.address .state)
    | .Emerg => .ok (x.address .emerg)
    | .Update => .ok address
  else .ok address

def pidSetBody (v : DevT) (a : PidAttr) (x : DevData PidReg) (address : IoAddr) : Except Outcome IoAddr :=
  if x.devt = v then
    match a with
    | .P => .ok (x.address .P)
    | .I => .ok (x.address .I)
    | .D => .ok (x.address .D)
    | .Update => .ok (x.address .update)
    | _ => .error (.returns (- ENXIO))
  else .ok address

def pidReadAddress (w : World PidReg) (v : DevT) (a : PidAttr) : Except Outcome IoAddr :=
  w.walk (pidReadBody v a) w.deviceList .null

def pidBasReadAddress (w : World PidReg) (v : DevT) (a : PidAttr) : Except Outcome IoAddr :=
  w.walk (pidBasReadBody v a) w.deviceList .null

def pidSetAddress (w : World PidReg) (v : DevT) (a : PidAttr) : Except Outcome IoAddr :=
  w.walk (pidSetBody v a) w.deviceList .null

/-! ### PWM -/

/-- The attributes of `PWM_attrs`; each has both handlers. -/
inductive PwmAttr
  | FREQUENCY | ENABLE | DIRECTION
deriving DecidableEq, Repr

def PwmAttr.reg : PwmAttr → PwmReg
  | .FREQUENCY => .frequency | .ENABLE => .pins | .DIRECTION => .pins

/-- The choice of the address in the loops of `sys_read_node` and `sys_set_node`. -/
def pwmBody (v : DevT) (a : PwmAttr) (x : DevData PwmReg) (address : IoAddr) : Except Outcome IoAddr :=
  if x.devt = v then
    match a with
    | .FREQUENCY => .ok (x.address .frequency)
    | .DIRECTION => .ok (x.address .pins)
    | .ENABLE => .ok (x.address .pins)
  else .ok address

def pwmAddress (w : World PwmReg) (v : DevT) (a : PwmAttr) : Except Outcome IoAddr :=
  w.walk (pwmBody v a) w.deviceList .null

/-! ### Encoder -/

/-- The loop body of `sys_read_node`, for the one attribute `Direction`. -/
def encoderReadBody (v : DevT) (x : DevData EncoderReg) (address : IoAddr) : Except Outcome IoAddr :=
  if x.devt = v then .ok (x.address .direction) else .ok address

/-- `address` is not initialised; `junk` is what it holds. -/
def encoderReadAddress (w : World EncoderReg) (v : DevT) (junk : IoAddr) : Except Outcome IoAddr :=
  w.walk (encoderReadBody v) w.deviceList junk

end Dcs
