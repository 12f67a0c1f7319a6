import Dcs.Handlers
import Dcs.Lib.Decimal

/-!
# The handlers that read registers

`PID_read`, `PWM_read` and the two `sys_read_node` print a register in decimal and copy the text out.
The one-shot flag `message_read` of a device structure is cleared by every `open` of its device number
that gets the list lock, whether the `open` succeeds or not (`open_heap`).
-/

namespace Dcs
open Function Decimal

/-- `copy_to_user` of a text that leaves its last `left` bytes, and `return retval ? retval : copied`. -/
def copyOut (text : Buffer) (left : ℕ) : ℤ × Buffer :=
  (if left ≠ 0 then left else text.length, text.take (text.length - left))

/-- `PID_read`, `PWM_read`: what the call does, and the bytes the reader gets. -/
def nodeRead {Reg : Type} (r : Reg) (text : BitVec 32 → Buffer) (w : World Reg) (f : FileId) (io : Io)
    (left : ℕ) : (World Reg × Outcome) × Buffer :=
  match w.files f >>= File.privateData with
  | none => ((w, .faults), [])
  | some p =>
    match w.heap p with
    | none => ((w, .faults), [])
    | some x =>
      if x.messageRead then ((w, .returns 0), [])
      else
        let (retval, copied) := copyOut (text (io (x.address r))) left
        ((w.modify p fun x => { x with messageRead := true }, .returns retval), copied)

/-- `sys_read_node`, once the address is found. -/
def sysRead (address : Except Outcome IoAddr) (text : BitVec 32 → Buffer) (io : Io) (left : ℕ) :
    Outcome × Buffer :=
  match address with
  | .error e => (e, [])
  | .ok address =>
    let (retval, copied) := copyOut (text (io address)) left
    (.returns retval, copied)

/-- `snprintf (int_array, 20, "%i", value)`; a 32-bit number has no more than 11 characters. -/
def printInt (value : BitVec 32) : Buffer := intText value.toInt

/-! ### PID -/

def pidRead : World PidReg → FileId → Io → ℕ → (World PidReg × Outcome) × Buffer :=
  nodeRead .position fun value => printInt (value - 536870911)

/-- `sys_read_node` of PID; the division is unsigned. -/
def pidSysRead (w : World PidReg) (v : DevT) (a : PidAttr) : Io → ℕ → Outcome × Buffer :=
  sysRead (pidReadAddress w v a) fun value => printInt (value / 100000)

/-! ### PWM -/

def pwmRead : World PwmReg → FileId → Io → ℕ → (World PwmReg × Outcome) × Buffer :=
  nodeRead .pulsewidth fun value => printInt value ++ [10]

/-- `sys_read_node` of PWM. -/
def pwmSysRead (w : World PwmReg) (v : DevT) (a : PwmAttr) : Io → ℕ → Outcome × Buffer :=
  sysRead (pwmAddress w v a) printInt

/-! ### Texts -/

theorem printInt_eq_zero {value : BitVec 32} : printInt value = [48] ↔ value = 0 := by
  unfold printInt
  rw [intText_eq_zero, ← BitVec.toInt_inj]
  rfl

theorem printInt_inj {value value' : BitVec 32} : printInt value = printInt value' ↔ value = value' := by
  rw [printInt, printInt, intText_inj, BitVec.toInt_inj]

/-- The parsers read a printed number back, with and without a newline at its end. -/
theorem digits_natText (n : ℕ) (b : Buffer) (hb : b = [] ∨ b = [10]) : digits (natText n ++ b) = some n := by
  have hall : (natText n).all (fun c => 48 ≤ c ∧ c ≤ 57) = true := by
    refine List.all_eq_true.2 fun c hc => decide_eq_true ?_
    exact ⟨UInt8.le_iff_toNat_le.2 (mem_natText hc).1, UInt8.le_iff_toNat_le.2 (mem_natText hc).2⟩
  have hstrip : (if (natText n ++ b).getLast? = some 10 then (natText n ++ b).dropLast else natText n ++ b) =
      natText n := by
    rcases hb with rfl | rfl
    · rw [List.append_nil, if_neg fun hlast => ?_]
      exact absurd (mem_natText (List.mem_of_getLast? hlast)).1 (by decide)
    · rw [if_pos List.getLast?_concat, List.dropLast_concat]
  simp only [digits, hstrip]
  rw [if_pos ⟨natText_ne_nil n, hall⟩, ← textValue, textValue_natText]

theorem kstrtoint_intText {z : ℤ} (hz : -2 ^ 31 ≤ z ∧ z < 2 ^ 31) :
    decimal.kstrtoint (intText z) = .ok (.ofInt 32 z) := by
  have hnat : ∀ n, digits (natText n) = some n := fun n => by
    have := digits_natText n [] (.inl rfl)
    rwa [List.append_nil] at this
  simp only [decimal, decimalInt.eq_def]
  cases z with
  | ofNat n =>
    simp only [intText, hnat, natText_ne_minus, imp_self, implies_true]
    exact if_pos hz
  | negSucc n =>
    simp only [intText, hnat]
    exact if_pos hz

@[simp] theorem copyOut_zero (text : Buffer) : copyOut text 0 = ((text.length : ℤ), text) := by
  simp [copyOut]

/-- `sys_read_node` of PWM for a registered device. -/
theorem pwmSysRead_entry {w : World PwmReg} (hw : w.Entries) {p : Ptr} {x : DevData PwmReg} (hx : w.Entry p x)
    (a : PwmAttr) (io : Io) (left : ℕ) :
    pwmSysRead w x.devt a io left = sysRead (.ok (x.address a.reg)) printInt io left := by
  have haddr : pwmAddress w x.devt a = .ok (x.address a.reg) := by
    rw [pwmAddress, hw.walk_entry hx fun y t hv => by simp [pwmBody, hv]]
    cases a <;> simp [pwmBody, PwmAttr.reg]
  rw [pwmSysRead, haddr]

/-! ### The one-shot flag -/

section
variable {Reg : Type} {w : World Reg} {r : Reg} {text : BitVec 32 → Buffer} {f : FileId} {p : Ptr}
  {x : DevData Reg}

/-- A read is the `World.read` whose register part returns what is copied out. -/
theorem nodeRead_call (hp : w.files f >>= File.privateData = some p) (hx : w.heap p = some x) (io : Io)
    (left : ℕ) :
    (nodeRead r text w f io left).1 = w.read f (copyOut (text (io (x.address r))) left).1 := by
  simp only [nodeRead, World.read, hp, hx]
  split <;> rfl

theorem nodeRead_first (hp : w.files f >>= File.privateData = some p) (hx : w.heap p = some x)
    (hfirst : x.messageRead = false) (io : Io) :
    (nodeRead r text w f io 0).1.2 = .returns (text (io (x.address r))).length ∧
      (nodeRead r text w f io 0).2 = text (io (x.address r)) := by
  simp [nodeRead, hp, hx, hfirst]

namespace World

theorem findDevice_heap (v : DevT) (ps : List Ptr) (w : World Reg) (found : Option Ptr) (p : Ptr) :
    (w.findDevice v ps found).1.heap p =
      (w.heap p).map fun x => if p ∈ ps ∧ x.devt = v then { x with messageRead := false } else x := by
  induction ps generalizing w found with
  | nil => simp [findDevice]
  | cons q ps ih =>
    rw [findDevice]
    by_cases hq : (w.heap q).any fun x => x.devt = v
    · rw [if_pos hq, ih]
      by_cases hpq : p = q
      · subst hpq
        obtain ⟨y, hy, hv⟩ := (Option.any_eq_true _ _).1 hq
        have hv : y.devt = v := of_decide_eq_true hv
        simp [modify, hy, hv]
      · simp [modify, hpq]
    · rw [if_neg hq, ih]
      cases hp : w.heap p with
      | none => rfl
      | some y =>
        by_cases hv : y.devt = v
        · have hpq : p ≠ q := by
            rintro rfl
            exact hq (by simp [hp, hv])
          simp [hpq]
        · simp [hv]

/-- An `open` that gets the list lock clears the flag of the entries with its device number. -/
theorem open_heap (hlock : w.deviceListLock = false) (f : FileId) (v : DevT) (p : Ptr) :
    (w.open f v).1.heap p = (w.heap p).map fun x =>
      if p ∈ w.deviceList ∧ x.devt = v then { x with messageRead := false } else x := by
  have hwalk := findDevice_heap v w.deviceList w.lockList none p
  simp only [World.open, hlock, Bool.false_eq_true, ↓reduceIte]
  split <;> exact hwalk

end World

/-! ### One device -/

/-- The module with one device, of minor number 0. -/
def oneDevice (D : Driver Reg) : World Reg :=
  (drive D).run (.initial 240) [.probe ⟨0, 0x43C00000⟩ ⟨some 1, 0, true, some 7⟩]

theorem oneDevice_reach (D : Driver Reg) : Lts.Reach (drive D) (fun _ _ => True) (oneDevice D) :=
  .run _ (.init ⟨240, rfl⟩) ⟨⟨rfl, fun _ _ => rfl, fun _ _ => rfl⟩, trivial, trivial⟩

end

end Dcs
