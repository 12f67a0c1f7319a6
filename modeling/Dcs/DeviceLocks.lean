import Dcs.DriverInit
import Dcs.Lib.Purge

/-!
# Devices that share the locks

The list lock and the device mutex are one each for the whole module, not one for each device. `Gate` is
what an `open` or `release` sees of them: the device that holds the mutex, and whether the list lock is
stuck. `Alone` says which runs are so far used by one device at a time that the sharing does not show.
-/

namespace Dcs
open Function Purge

inductive DeviceCall
  | open (f : FileId) (v : DevT)
  | release (f : FileId) (v : DevT)
deriving DecidableEq, Repr

namespace DeviceCall

def dev : DeviceCall → DevT
  | .open _ v | .release _ v => v

def call : DeviceCall → Call
  | .open f v => .open f v
  | .release f _ => .release f

end DeviceCall

/-! ### The gate -/

structure Gate where
  held : Option DevT
  stuck : Bool
deriving DecidableEq, Repr

namespace Gate

def next (g : Gate) : DeviceCall → Gate
  | .open _ v => if g.stuck then g else if g.held.isSome then { g with stuck := true } else ⟨some v, false⟩
  | .release _ _ => { g with held := none }

def out (g : Gate) : DeviceCall → Outcome
  | .open _ _ => if g.stuck then .blocks else if g.held.isSome then .returns (-EBUSY) else .returns 0
  | .release _ _ => .returns 0

/-- An `open` does not succeed. -/
def Busy (g : Gate) : Prop := g.stuck = true ∨ g.held.isSome = true

instance (g : Gate) : Decidable g.Busy := inferInstanceAs (Decidable (_ ∨ _))

theorem held_open (g : Gate) (f : FileId) (v : DevT) :
    (g.next (.open f v)).held = if g.Busy then g.held else some v := by
  obtain ⟨held, stuck⟩ := g
  unfold next Busy
  cases stuck <;> cases held <;> simp

/-- The releases are those of the device that holds the mutex. -/
def Issued (g : Gate) : List DeviceCall → Prop
  | [] => True
  | c :: cs => (∀ f v, c = .release f v → g.held = some v) ∧ (g.next c).Issued cs

/-- While a device `o` is in use, and from the time on that an `open` of it has failed, no other device is
opened. -/
def Alone : Option DevT → Bool → List DeviceCall → Prop
  | _, _, [] => True
  | o, failed, .open _ v :: cs => (o = none ∨ o = some v) ∧ Alone (some v) (failed || o.isSome) cs
  | o, failed, .release _ _ :: cs => Alone (if failed then o else none) failed cs

/-- The device in use. -/
structure Owner (g : Gate) (o : Option DevT) : Prop where
  free : g.stuck = false → g.held = o
  stuck : g.stuck = true → o ≠ none ∧ (g.held = none ∨ g.held = o)

/-- The gate of the run that has been purged to `v`. -/
def shadow (g : Gate) (o : Option DevT) (v : DevT) : Gate := if o = some v then g else ⟨none, false⟩

variable {g : Gate} {o : Option DevT} {v : DevT}

theorem Owner.shadow_self (hg : g.Owner o) (ho : o = none ∨ o = some v) : shadow g o v = g := by
  unfold shadow
  rcases ho with rfl | rfl
  · have hfree : g.stuck = false := Bool.eq_false_of_not_eq_true fun h => (hg.stuck h).1 rfl
    obtain ⟨held, stuck⟩ := g
    obtain rfl : stuck = false := hfree
    obtain rfl : held = none := hg.free rfl
    rfl
  · exact if_pos rfl

theorem shadow_other {u : DevT} (ho : o = none ∨ o = some v) (huv : u ≠ v) : shadow g o u = ⟨none, false⟩ := by
  refine if_neg ?_
  rcases ho with rfl | rfl
  · simp
  · exact fun h => huv (Option.some.inj h).symm

theorem update_shadow {g' : Gate} {o' : Option DevT} (ho : o = none ∨ o = some v) (ho' : o' = none ∨ o' = some v)
    (hown : shadow g' o' v = g') : update (shadow g o) v g' = shadow g' o' := by
  funext u
  by_cases huv : u = v
  · subst huv
    rw [update_self, hown]
  · rw [update_of_ne huv, shadow_other ho huv, shadow_other ho' huv]

theorem Owner.of_held (hg : g.Owner o) (hv : g.held = some v) : o = some v := by
  cases hstuck : g.stuck with
  | false => rw [← hg.free hstuck, hv]
  | true =>
    rcases (hg.stuck hstuck).2 with h | h
    · simp [hv] at h
    · rw [← h, hv]

theorem Owner.open (hg : g.Owner o) (ho : o = none ∨ o = some v) (f : FileId) :
    (g.next (.open f v)).Owner (some v) ∧ (g.next (.open f v)).stuck = (g.stuck || o.isSome) := by
  unfold next
  cases hstuck : g.stuck with
  | true =>
    have howned := hg.stuck hstuck
    obtain rfl : o = some v := ho.resolve_left howned.1
    exact ⟨⟨fun h => absurd h (by simp [hstuck]), fun _ => ⟨by simp, howned.2⟩⟩, hstuck⟩
  | false =>
    have hheld := hg.free hstuck
    rw [hheld]
    rcases ho with rfl | rfl
    · exact ⟨⟨fun _ => rfl, fun h => absurd h (by simp)⟩, rfl⟩
    · exact ⟨⟨fun h => absurd h (by simp), fun _ => ⟨by simp, .inr rfl⟩⟩, rfl⟩

theorem Owner.release (hg : g.Owner o) (f : FileId) :
    (g.next (.release f v)).Owner (if g.stuck then o else none) := by
  refine ⟨fun h => ?_, fun h => ?_⟩
  · rw [show g.stuck = false from h]
    rfl
  · rw [show g.stuck = true from h]
    exact ⟨(hg.stuck h).1, .inl rfl⟩

/-- The outputs for each device are those of the run purged to it if and only if the run is `Alone`. -/
theorem alone_iff (hg : g.Owner o) {cs : List DeviceCall} (hcs : g.Issued cs) :
    Agrees DeviceCall.dev next out (shadow g o) g cs ↔ Alone o g.stuck cs := by
  induction cs generalizing g o with
  | nil => exact iff_of_true (agrees_nil _ _ _ _ _) trivial
  | cons c cs ih =>
    rw [agrees_cons]
    cases c with
    | «open» f v =>
      rw [show DeviceCall.dev (.open f v) = v from rfl]
      by_cases ho : o = none ∨ o = some v
      · obtain ⟨hnext, hstuck⟩ := hg.open ho f
        rw [hg.shadow_self ho, update_shadow ho (.inr rfl) (hnext.shadow_self (.inr rfl)), ih hnext hcs.2, hstuck]
        exact and_congr (iff_of_true rfl ho) Iff.rfl
      · -- the purged run finds both locks free
        refine iff_of_false (fun h => ?_) fun h => ho h.1
        have hpurged : (shadow g o v).out (.open f v) = .returns 0 := by
          rw [shadow, if_neg fun h => ho (.inr h)]
          rfl
        have hout := h.1.trans hpurged
        unfold out at hout
        cases hstuck : g.stuck with
        | true => simp [hstuck] at hout
        | false =>
          obtain ⟨u, rfl⟩ := Option.ne_none_iff_exists'.1 fun h => ho (.inl h)
          simp [hstuck, hg.free hstuck, EBUSY] at hout
    | release f v =>
      have ho : o = some v := hg.of_held (hcs.1 f v rfl)
      have hnext := hg.release (v := v) f
      have ho' : (if g.stuck then o else none) = none ∨ (if g.stuck then o else none) = some v := by
        split
        · exact .inr ho
        · exact .inl rfl
      rw [show DeviceCall.dev (.release f v) = v from rfl, hg.shadow_self (.inr ho),
        update_shadow (.inr ho) ho' (hnext.shadow_self ho'), ih hnext hcs.2]
      exact and_iff_right rfl

/-- Once the list lock is stuck and no file is open, all calls have the same result in every order. -/
theorem agrees_stuck (cs : List DeviceCall) :
    Agrees DeviceCall.dev next out (fun _ => ⟨none, true⟩) ⟨none, true⟩ cs := by
  induction cs with
  | nil => exact agrees_nil _ _ _ _ _
  | cons c cs ih =>
    have hnext : next ⟨none, true⟩ c = ⟨none, true⟩ := by cases c <;> rfl
    refine (agrees_cons _ _ _ _ _ _ _).2 ⟨rfl, ?_⟩
    rw [hnext, update_eq_self]
    exact ih

end Gate

/-! ### The modules -/

variable {Reg : Type}

def deviceStep (D : Driver Reg) (w : World Reg) (c : DeviceCall) : World Reg := (w.call D c.call).1

def deviceOut (D : Driver Reg) (w : World Reg) (c : DeviceCall) : Outcome := (w.call D c.call).2

namespace World
variable {D : Driver Reg} {w : World Reg}

/-- The calls can come one after the other: a file is released that has been opened for the device. -/
def Issued (D : Driver Reg) (w : World Reg) : List DeviceCall → Prop
  | [] => True
  | c :: cs => w.Issues c.call ∧ (∀ f v, c = .release f v → (w.files f).map File.rdev = some v) ∧
      Issued D (deviceStep D w c) cs

/-- The result of each call is the one it has in the run without the calls on other devices. -/
def Independent (D : Driver Reg) (w : World Reg) (cs : List DeviceCall) : Prop :=
  Agrees DeviceCall.dev (deviceStep D) (deviceOut D) (fun _ => w) w cs

structure Locks (w : World Reg) (g : Gate) : Prop where
  deviceListLock : w.deviceListLock = g.stuck
  deviceMutex : w.deviceMutex = g.held.isSome

/-- What an `open` does to the gate and to the open files. -/
theorem Locks.open {g : Gate} (hg : w.Locks g) (f : FileId) (v : DevT) :
    (deviceStep D w (.open f v)).Locks (g.next (.open f v)) ∧ deviceOut D w (.open f v) = g.out (.open f v) ∧
      (deviceStep D w (.open f v)).files =
        if g.Busy then w.files else update w.files f (some ⟨v, w.lookup v⟩) := by
  unfold deviceStep deviceOut Gate.next Gate.out Gate.Busy
  rw [show (DeviceCall.open f v).call = .open f v from rfl]
  rcases open_cases w f v with ⟨hlock, h⟩ | ⟨hlock, hmutex, e, h⟩ | ⟨hlock, hmutex, e, h⟩
  · have hstuck := hg.deviceListLock ▸ hlock
    simp only [World.call, h, hstuck, true_or, ↓reduceIte]
    exact ⟨hg, trivial, trivial⟩
  · have hstuck := hg.deviceListLock ▸ hlock
    have hheld := hg.deviceMutex ▸ hmutex
    simp only [World.call, h, hstuck, hheld, or_true, Bool.false_eq_true, ↓reduceIte]
    exact ⟨⟨rfl, hmutex.trans hheld.symm⟩, trivial, rfl⟩
  · have hstuck := hg.deviceListLock ▸ hlock
    have hheld := hg.deviceMutex ▸ hmutex
    simp only [World.call, h, hstuck, hheld, or_false, Bool.false_eq_true, ↓reduceIte]
    exact ⟨⟨rfl, rfl⟩, trivial, trivial⟩

theorem Locks.call {g : Gate} (hg : w.Locks g) (c : DeviceCall) :
    (deviceStep D w c).Locks (g.next c) ∧ deviceOut D w c = g.out c := by
  cases c with
  | «open» f v => exact ⟨(hg.open f v).1, (hg.open f v).2.1⟩
  | release f v => exact ⟨⟨hg.deviceListLock, rfl⟩, rfl⟩

/-- The open file is one of the device that holds the mutex, so the calls are in order at the gate. -/
theorem Issued.gate {g : Gate} (hw : w.Exclusive) (hg : w.Locks g)
    (hfiles : ∀ f F, w.files f = some F → g.held = some F.rdev) {cs : List DeviceCall} (hcs : w.Issued D cs) :
    g.Issued cs := by
  induction cs generalizing w g with
  | nil => trivial
  | cons c cs ih =>
    obtain ⟨hissues, hown, hrest⟩ := hcs
    refine ⟨fun f v hc => ?_, ih (hw.call hissues) (hg.call c).1 ?_ hrest⟩
    · obtain ⟨F, hF, hv⟩ := Option.map_eq_some_iff.1 (hown f v hc)
      rw [hfiles f F hF, hv]
    · intro f' F hF
      cases c with
      | «open» f v =>
        rw [show (w.call D (DeviceCall.open f v).call).1 = deviceStep D w (.open f v) from rfl,
          (hg.open f v).2.2] at hF
        rw [Gate.held_open]
        by_cases hbusy : g.Busy
        · rw [if_pos hbusy] at hF ⊢
          exact hfiles f' F hF
        · rw [if_neg hbusy] at hF ⊢
          by_cases hff : f' = f
          · subst hff
            obtain rfl : (⟨v, w.lookup v⟩ : File) = F := by simpa using hF
            rfl
          · rw [update_of_ne hff] at hF
            exact absurd (.inr (by rw [hfiles f' F hF]; rfl)) hbusy
      | release f v =>
        have hff : f' ≠ f := by
          rintro rfl
          simp [DeviceCall.call, World.call, World.release] at hF
        -- no other file is open
        have hopen : w.files f' = some F := by
          simpa [DeviceCall.call, World.call, World.release, hff] using hF
        exact absurd (hw.unique f' f (by simp [hopen]) hissues) hff

/-- A run of opens and releases, from a state of the module without open files, has the same results
without the calls on the other devices if and only if the list lock is stuck from the start, or only one
device is in use at a time and none but the first whose `open` fails is opened after that. -/
theorem independent_iff (D : Driver Reg) (w : World Reg) (hw : Lts.Reach (drive D) (fun _ _ => True) w)
    (hnone : ∀ f, w.files f = none) (cs : List DeviceCall) (hcs : w.Issued D cs) :
    w.Independent D cs ↔ w.deviceListLock = true ∨ Gate.Alone none false cs := by
  have hex := exclusive_of_reach hw
  have hmutex : w.deviceMutex = false := by
    refine Bool.eq_false_of_not_eq_true fun h => ?_
    obtain ⟨f, hf⟩ := hex.locked.1 h
    exact hf (hnone f)
  have hlocks : w.Locks ⟨none, w.deviceListLock⟩ := ⟨rfl, hmutex⟩
  have hgate : w.Independent D cs ↔
      Agrees DeviceCall.dev Gate.next Gate.out (fun _ => ⟨none, w.deviceListLock⟩) ⟨none, w.deviceListLock⟩ cs :=
    agrees_congr (R := Locks) DeviceCall.dev (fun _ _ c h => h.call c) hlocks cs
  rw [hgate]
  cases hlock : w.deviceListLock with
  | true => exact iff_of_true (Gate.agrees_stuck cs) (.inl rfl)
  | false =>
    have hissued : (⟨none, false⟩ : Gate).Issued cs := by
      refine hcs.gate hex (hlock ▸ hlocks) fun f F hF => ?_
      simp [hnone f] at hF
    have hshadow : Gate.shadow ⟨none, false⟩ none = fun _ => ⟨none, false⟩ := funext fun v => if_neg (by simp)
    have halone := Gate.alone_iff ⟨fun _ => rfl, fun h => absurd h (by simp)⟩ hissued
    rw [hshadow] at halone
    rw [halone]
    simp

def twoOf (D : Driver Reg) : World Reg :=
  (drive D).run (.initial 240) [.probe ⟨0, 0x43C00000⟩ ⟨some 1, 0, true, some 7⟩,
    .probe ⟨1, 0x43C10000⟩ ⟨some 2, 0, true, some 8⟩]

theorem independent_in_turn : (twoOf pid).Independent pid [.open 0 ⟨240, 0⟩, .release 0 ⟨240, 0⟩, .open 1 ⟨240, 1⟩] := by
  have hreach : Lts.Reach (drive pid) (fun _ _ => True) (twoOf pid) := .run _ (.init ⟨240, rfl⟩) (by decide)
  refine (independent_iff pid (twoOf pid) hreach (fun _ => rfl) _ ?_).2 (.inr ?_)
  · exact ⟨by decide, (fun f v h => by cases h), by decide, (fun f v h => by cases h; decide), by decide,
      (fun f v h => by cases h), trivial⟩
  · exact ⟨.inl rfl, .inl rfl, trivial⟩

/-- While one device is open the other one is busy. -/
theorem busy_while_open (D : Driver Reg)
    (hruns : (drive D).Runs (fun _ _ => True) (.initial 240) [.probe ⟨0, 0x43C00000⟩ ⟨some 1, 0, true, some 7⟩,
      .probe ⟨1, 0x43C10000⟩ ⟨some 2, 0, true, some 8⟩])
    (hnone : ∀ f, (twoOf D).files f = none)
    (hmajor : (twoOf D).major = 240)
    (hissues : (deviceStep D (twoOf D) (.open 0 ⟨240, 0⟩)).Issues (.open 1 ⟨240, 1⟩))
    (hne : outputs DeviceCall.dev (deviceStep D) (deviceOut D) ⟨240, 1⟩ (twoOf D)
        [.open 0 ⟨240, 0⟩, .open 1 ⟨240, 1⟩] ≠
      outputs DeviceCall.dev (deviceStep D) (deviceOut D) ⟨240, 1⟩ (twoOf D) [.open 1 ⟨240, 1⟩]) :
    ¬ ∀ w cs, Lts.Reach (drive D) (fun _ _ => True) w → (∀ f, w.files f = none) → w.Issued D cs →
      w.Independent D cs := by
  intro h
  have hissued : (twoOf D).Issued D [.open 0 ⟨240, 0⟩, .open 1 ⟨240, 1⟩] :=
    ⟨⟨hnone 0, hmajor.symm⟩, (fun f v hc => by cases hc), hissues, (fun f v hc => by cases hc), trivial⟩
  exact hne (h _ _ (.run _ (.init ⟨240, rfl⟩) hruns) hnone hissued ⟨240, 1⟩)

theorem not_independent :
    ¬ (∀ w cs, Lts.Reach (drive pid) (fun _ _ => True) w → (∀ f, w.files f = none) → w.Issued pid cs →
      w.Independent pid cs) ∧
    ¬ (∀ w cs, Lts.Reach (drive pwm) (fun _ _ => True) w → (∀ f, w.files f = none) → w.Issued pwm cs →
      w.Independent pwm cs) ∧
    ¬ ∀ w cs, Lts.Reach (drive encoder) (fun _ _ => True) w → (∀ f, w.files f = none) → w.Issued encoder cs →
      w.Independent encoder cs :=
  ⟨busy_while_open pid (by decide) (fun _ => rfl) rfl (by decide) (by decide),
    busy_while_open pwm (by decide) (fun _ => rfl) rfl (by decide) (by decide),
    busy_while_open encoder (by decide) (fun _ => rfl) rfl (by decide) (by decide)⟩

end World

end Dcs
