import Dcs.Lib.Rmw
import Dcs.PwmPins
import Mathlib.Data.List.Permutation

/-!
# Writes to the pins register at the same time

`sys_set_node` takes no lock: between its `ioread32` of the pins register and its `iowrite32` other
processes may do the same. `race` are all interleavings of these two steps, and through the pins register
it is a system of read-modify-writes (`Race.pins`), of which those are serial that write nothing stale.
-/

namespace Dcs
open Function

/-- A write to `DIRECTION` or `ENABLE`, with the world in which its process walks the device list. -/
structure PinsWrite where
  w : World PwmReg
  a : PwmAttr
  buffer : Buffer

/-- The number that is going to be stored, which is 0 for a rejected input. -/
def PinsWrite.value (K : Kstrto) (e : PinsWrite) : BitVec 32 := (parsed (K.kstrtoint e.buffer) 0).2

/-- A process that has done its `ioread32`, of the registers `seen`. -/
structure PinsPending where
  write : PinsWrite
  seen : Io
  set : PwmSet

structure Race where
  start : Io
  io : Io
  pending : ℕ → Option PinsPending
  done : List PinsWrite

inductive RaceAct
  | ioread32 (i : ℕ) (e : PinsWrite)
  | iowrite32 (i : ℕ)

namespace Race
variable (K : Kstrto) (v : DevT) (address : PwmReg → IoAddr)

/-- The two halves of `sys_set_node`: the walk, in which the register is read, and the store. -/
def next (s : Race) : RaceAct → Race
  | .ioread32 i e =>
    match e.w.walk (pwmSetBody K v e.a e.buffer s.io) e.w.deviceList ⟨.null, -1, 0⟩ with
    | .error _ => s
    | .ok set => { s with pending := update s.pending i (some ⟨e, s.io, set⟩) }
  | .iowrite32 i =>
    match s.pending i with
    | none => s
    | some q =>
      { s with
        io := update s.io q.set.address q.set.value
        pending := update s.pending i none
        done := q.write :: s.done }

def Enabled (s : Race) : RaceAct → Prop
  | .ioread32 i e => s.pending i = none ∧ e.a.pin ≠ none ∧ ∃ p, e.w.Binds v address p
  | .iowrite32 i => s.pending i ≠ none

end Race

def race (K : Kstrto) (v : DevT) (address : PwmReg → IoAddr) : Lts.System Race RaceAct where
  Init s := s.io = s.start ∧ (∀ i, s.pending i = none) ∧ s.done = []
  Enabled := Race.Enabled v address
  next := Race.next K v

/-- The registers after these calls of `sys_set_node`, one after another; the head is the last. -/
def oneByOne (K : Kstrto) (v : DevT) (io : Io) (h : List PinsWrite) : Io :=
  h.foldr (fun e io => (pwmSysSet K e.w v e.a e.buffer io).2) io

/-- The bits in which the two contents `r` and `r'` differ are not passed through to what is stored. -/
def PwmAttr.Agree (a : PwmAttr) (value r r' : BitVec 32) : Prop :=
  ∀ i ∈ a.pin, ∀ j, (if value ≠ 0 then (value <<< i).getLsbD j = false else j ≠ i ∧ j < 16) →
    r.getLsbD j = r'.getLsbD j

theorem PwmAttr.transform_eq_iff {a : PwmAttr} (ha : a.pin ≠ none) (value r r' : BitVec 32) :
    a.transform r value = a.transform r' value ↔ a.Agree value r r' := by
  obtain ⟨i, hi⟩ := Option.ne_none_iff_exists'.1 ha
  have hbits : a.transform r value = a.transform r' value ↔
      ∀ j, (a.transform r value).getLsbD j = (a.transform r' value).getLsbD j :=
    ⟨fun h j => by rw [h], fun h => BitVec.eq_of_getLsbD_eq fun j _ => h j⟩
  have hagree : a.Agree value r r' ↔
      ∀ j, (if value ≠ 0 then (value <<< i).getLsbD j = false else j ≠ i ∧ j < 16) →
        r.getLsbD j = r'.getLsbD j := by
    simp [Agree, hi]
  rw [hbits, hagree]
  refine forall_congr' fun j => ?_
  rw [getLsbD_transform hi, getLsbD_transform hi]
  by_cases hzero : value = 0
  · simp only [hzero, ne_eq, not_true, ↓reduceIte]
    by_cases hj : ¬ j = i ∧ j < 16
    · simp [hj]
    · simp [hj]
  · simp only [hzero, ne_eq, not_false_eq_true, ↓reduceIte]
    cases hb : (value <<< i).getLsbD j <;> simp

namespace Race
variable {K : Kstrto} {v : DevT} {address : PwmReg → IoAddr} {s : Race}

theorem walk_binds {e : PinsWrite} (ha : e.a.pin ≠ none) (hb : ∃ p, e.w.Binds v address p) (io : Io) :
    e.w.walk (pwmSetBody K v e.a e.buffer io) e.w.deviceList ⟨.null, -1, 0⟩ =
      .ok ⟨address .pins, (parsed (K.kstrtoint e.buffer) 0).1,
        e.a.transform (io (address .pins)) (e.value K)⟩ := by
  obtain ⟨i, hi⟩ := Option.ne_none_iff_exists'.1 ha
  obtain ⟨p, hb⟩ := hb
  obtain ⟨hw, -, -, x, hx, rfl, rfl⟩ := hb.entry
  rw [pwmSet_walk hw.entries hx, PwmAttr.reg_of_pin hi]
  rfl

/-- A call of `sys_set_node` that nobody interrupts is its two steps. -/
theorem next_next (s : Race) (i : ℕ) {e : PinsWrite} (ha : e.a.pin ≠ none) (hb : ∃ p, e.w.Binds v address p) :
    (next K v (next K v s (.ioread32 i e)) (.iowrite32 i)).io = (pwmSysSet K e.w v e.a e.buffer s.io).2 := by
  simp only [next, pwmSysSet, walk_binds ha hb, update_self]

/-- What a process is going to store has been computed from the registers it has seen. -/
structure PendingOk (K : Kstrto) (v : DevT) (address : PwmReg → IoAddr) (q : PinsPending) : Prop where
  pin : q.write.a.pin ≠ none
  binds : ∃ p, q.write.w.Binds v address p
  addressOk : q.set.address = address .pins
  valueOk : q.set.value = q.write.a.transform (q.seen (address .pins)) (q.write.value K)

structure Computed (K : Kstrto) (v : DevT) (address : PwmReg → IoAddr) (s : Race) : Prop where
  pending : ∀ i q, s.pending i = some q → PendingOk K v address q
  done : ∀ e ∈ s.done, e.a.pin ≠ none ∧ ∃ p, e.w.Binds v address p

theorem Computed.next (hs : s.Computed K v address) {a : RaceAct} (ha : s.Enabled v address a) :
    (s.next K v a).Computed K v address := by
  cases a with
  | ioread32 i e =>
    obtain ⟨-, hpin, hb⟩ := ha
    simp only [Race.next, walk_binds hpin hb]
    refine ⟨fun j q hq => ?_, hs.done⟩
    by_cases hij : j = i
    · obtain rfl : _ = q := by simpa [hij] using hq
      exact ⟨hpin, hb, rfl, rfl⟩
    · exact hs.pending j q (by simpa [hij] using hq)
  | iowrite32 i =>
    obtain ⟨q, hq⟩ := Option.ne_none_iff_exists'.1 ha
    have hok := hs.pending i q hq
    simp only [Race.next, hq]
    refine ⟨fun j q' hq' => ?_, List.forall_mem_cons.2 ⟨⟨hok.pin, hok.binds⟩, hs.done⟩⟩
    by_cases hij : j = i
    · simp [hij] at hq'
    · exact hs.pending j q' (by simpa [hij] using hq')

theorem computed_of_reach {P : Race → RaceAct → Prop} (h : Lts.Reach (race K v address) P s) :
    s.Computed K v address := by
  refine h.invariant (I := Computed K v address) ?_ fun s a hs ha _ => hs.next ha
  rintro s ⟨-, hpending, hdone⟩
  exact ⟨fun i q hq => by simp [hpending i] at hq, by simp [hdone]⟩

/-! ### The pins register -/

/-- The race as the pins register sees it. -/
def pins (K : Kstrto) (address : PwmReg → IoAddr) (s : Race) : Rmw.State (BitVec 32) (PwmAttr × BitVec 32) ℕ where
  start := s.start (address .pins)
  value := s.io (address .pins)
  pending i := (s.pending i).map fun q => ((q.write.a, q.write.value K), q.seen (address .pins))
  done := s.done.map fun e => (e.a, e.value K)

/-- What `sys_set_node` does to the register. -/
def store (u : PwmAttr × BitVec 32) (r : BitVec 32) : BitVec 32 := u.1.transform r u.2

end Race

def RaceAct.pins (K : Kstrto) : RaceAct → Rmw.Act (PwmAttr × BitVec 32) ℕ
  | .ioread32 i e => .read i (e.a, e.value K)
  | .iowrite32 i => .write i

namespace Race
variable {K : Kstrto} {v : DevT} {address : PwmReg → IoAddr} {s : Race}

theorem pins_enabled {a : RaceAct} (ha : s.Enabled v address a) : Rmw.Enabled (s.pins K address) (a.pins K) := by
  cases a with
  | ioread32 i e =>
    show (s.pending i).map _ = none
    rw [ha.1, Option.map_none]
  | iowrite32 i =>
    obtain ⟨q, hq⟩ := Option.ne_none_iff_exists'.1 ha
    show (s.pending i).map _ ≠ none
    rw [hq]
    exact Option.some_ne_none _

theorem pins_next (hs : s.Computed K v address) {a : RaceAct} (ha : s.Enabled v address a) :
    (s.next K v a).pins K address = Rmw.next store (s.pins K address) (a.pins K) := by
  cases a with
  | ioread32 i e =>
    simp only [Race.next, walk_binds ha.2.1 ha.2.2, pins, RaceAct.pins, Rmw.next]
    congr 1
    exact funext fun j => apply_update (fun _ => Option.map _) s.pending i _ j
  | iowrite32 i =>
    obtain ⟨q, hq⟩ := Option.ne_none_iff_exists'.1 ha
    have hok := hs.pending i q hq
    simp only [Race.next, pins, RaceAct.pins, Rmw.next, hq, Option.map_some, List.map_cons, hok.addressOk, hok.valueOk,
      update_self]
    congr 1
    exact funext fun j => apply_update (fun _ => Option.map _) s.pending i _ j

/-- Since a process has read the register, no other has changed a bit that it passes through. -/
def Fresh (K : Kstrto) (address : PwmReg → IoAddr) (s : Race) : RaceAct → Prop
  | .ioread32 _ _ => True
  | .iowrite32 i => ∀ q ∈ s.pending i,
      q.write.a.Agree (q.write.value K) (q.seen (address .pins)) (s.io (address .pins))

theorem pins_fresh (hs : s.Computed K v address) (a : RaceAct) :
    Rmw.Fresh store (s.pins K address) (a.pins K) ↔ s.Fresh K address a := by
  cases a with
  | ioread32 i e => exact Iff.rfl
  | iowrite32 i =>
    show (∀ q ∈ (s.pending i).map _, _) ↔ ∀ q ∈ s.pending i, _
    cases hq : s.pending i with
    | none => simp
    | some q =>
      simp only [Option.map_some, Option.mem_def, Option.some.injEq, forall_eq']
      exact PwmAttr.transform_eq_iff (hs.pending i q hq).pin _ _ _

theorem oneByOne_pins {h : List PinsWrite} (hh : ∀ e ∈ h, e.a.pin ≠ none ∧ ∃ p, e.w.Binds v address p) (io : Io) :
    oneByOne K v io h (address .pins) =
      (h.map fun e => (e.a, e.value K)).foldr store (io (address .pins)) := by
  induction h with
  | nil => rfl
  | cons e h ih =>
    obtain ⟨⟨hpin, hb⟩, hh⟩ := List.forall_mem_cons.1 hh
    rw [List.map_cons, List.foldr_cons, ← ih hh]
    show (pwmSysSet K e.w v e.a e.buffer (oneByOne K v io h)).2 (address .pins) = _
    simp only [pwmSysSet, walk_binds hpin hb, update_self]
    rfl

/-- The pins register is what the completed writes make of it one by one. -/
def Serial (K : Kstrto) (v : DevT) (address : PwmReg → IoAddr) (s : Race) : Prop :=
  s.io (address .pins) = oneByOne K v s.start s.done (address .pins)

theorem serial_iff (hs : s.Computed K v address) : s.Serial K v address ↔ Rmw.Serial store (s.pins K address) := by
  rw [Serial, oneByOne_pins hs.done]
  rfl

theorem serial_of_reach (h : Lts.Reach (race K v address) (Fresh K address) s) : s.Serial K v address := by
  rw [serial_iff (computed_of_reach h)]
  refine Rmw.serial (h.simulates (pins K address) (RaceAct.pins K) (fun _ => computed_of_reach) ?_ ?_)
  · rintro s ⟨hio, hpending, hdone⟩
    refine ⟨congrFun hio _, fun i => ?_, ?_⟩
    · show (s.pending i).map _ = none
      rw [hpending i, Option.map_none]
    · show s.done.map _ = []
      rw [hdone, List.map_nil]
  · intro s a hs ha hfresh
    exact ⟨pins_enabled ha, (pins_fresh hs a).2 hfresh, pins_next hs ha⟩

theorem serial_next (hs : s.Computed K v address) (hserial : s.Serial K v address) {a : RaceAct}
    (ha : s.Enabled v address a) : (s.next K v a).Serial K v address ↔ s.Fresh K address a := by
  rw [serial_iff (hs.next ha), pins_next hs ha, Rmw.next_serial ((serial_iff hs).1 hserial) (pins_enabled ha),
    pins_fresh hs a]

theorem enable_kept (hs : s.Computed K v address) {i : ℕ} {q : PinsPending} (hq : s.pending i = some q)
    (ha : q.write.a = .DIRECTION) (hvalue : (q.write.value K).getLsbD 1 = false)
    (hfresh : s.Fresh K address (.iowrite32 i)) :
    ((s.next K v (.iowrite32 i)).io (address .pins)).getLsbD 1 = (s.io (address .pins)).getLsbD 1 := by
  have hok := hs.pending i q hq
  have hbit := hfresh q hq 0 (by rw [ha]; rfl) 1
  simp only [next, hq, hok.addressOk, update_self, hok.valueOk]
  rw [PwmAttr.getLsbD_transform (i := 0) (by rw [ha]; rfl)]
  by_cases hzero : q.write.value K = 0
  · simpa [hzero] using hbit
  · rw [if_pos hzero] at hbit ⊢
    rw [BitVec.shiftLeft_zero, hvalue] at hbit ⊢
    rw [Bool.or_false, hbit rfl]

/-- In every interleaving in which no process stores a bit that another has changed since its read, the
pins register is that of the completed writes one after another, so none is lost, and a `DIRECTION` does
not undo an `ENABLE`; a store that is not so breaks it. -/
theorem no_lost_update (K : Kstrto) (v : DevT) (address : PwmReg → IoAddr) (s : Race)
    (h : Lts.Reach (race K v address) (Fresh K address) s) :
    ((∀ i, s.pending i = none) → ∃ order, order.Perm s.done ∧
      s.io (address .pins) = oneByOne K v s.start order (address .pins)) ∧
    s.Serial K v address ∧
    (∀ a, s.Enabled v address a → ((s.next K v a).Serial K v address ↔ s.Fresh K address a)) ∧
    ∀ i q, s.pending i = some q → q.write.a = .DIRECTION → (q.write.value K).getLsbD 1 = false →
      s.Fresh K address (.iowrite32 i) →
      ((s.next K v (.iowrite32 i)).io (address .pins)).getLsbD 1 = (s.io (address .pins)).getLsbD 1 := by
  have hs := computed_of_reach h
  have hserial := serial_of_reach h
  exact ⟨fun _ => ⟨s.done, List.Perm.refl _, hserial⟩, hserial, fun a ha => serial_next hs hserial ha,
    fun i q hq ha hvalue hfresh => enable_kept hs hq ha hvalue hfresh⟩

/-- The pins register holds 2, so the motor is on. -/
def motorOn : Race := ⟨fun _ => 2, fun _ => 2, fun _ => none, []⟩

def direction1 : PinsWrite := ⟨oneDevice pwm, .DIRECTION, [49]⟩

def enable0 : PinsWrite := ⟨oneDevice pwm, .ENABLE, [48]⟩

def oneAddress (r : PwmReg) : IoAddr := (⟨some 7, 0⟩ : IoAddr).add (pwm.offset r)

theorem no_lost_update_direction :
    let s := (race decimal ⟨240, 0⟩ oneAddress).run motorOn [.ioread32 0 direction1, .iowrite32 0]
    s.Serial decimal ⟨240, 0⟩ oneAddress := by
  have hfresh : Fresh decimal oneAddress ((race decimal ⟨240, 0⟩ oneAddress).next motorOn (.ioread32 0 direction1))
      (.iowrite32 0) := fun q hq => by
    obtain rfl : _ = q := Option.some.inj hq
    exact fun i _ j _ => rfl
  have hreach : Lts.Reach (race decimal ⟨240, 0⟩ oneAddress) (Fresh decimal oneAddress)
      ((race decimal ⟨240, 0⟩ oneAddress).run motorOn [.ioread32 0 direction1, .iowrite32 0]) :=
    .run _ (.init ⟨rfl, fun _ => rfl, rfl⟩)
      ⟨⟨rfl, by decide, 1, PwmWrite.binds_oneDevice⟩, trivial, Option.some_ne_none _, hfresh, trivial⟩
  exact (no_lost_update decimal ⟨240, 0⟩ oneAddress _ hreach).2.1

/-- A `DIRECTION` that has read the register before an `ENABLE` 0 and writes it after that turns the motor
on again. -/
theorem lost_update :
    ¬ ∀ K v address s, Lts.Reach (race K v address) (fun _ _ => True) s → (∀ i, s.pending i = none) →
      ∃ order, order.Perm s.done ∧ s.io (address .pins) = oneByOne K v s.start order (address .pins) := by
  intro hall
  obtain ⟨order, hperm, hio⟩ := hall decimal ⟨240, 0⟩ oneAddress
    ((race decimal ⟨240, 0⟩ oneAddress).run motorOn
      [.ioread32 0 direction1, .ioread32 1 enable0, .iowrite32 1, .iowrite32 0])
    (.run _ (.init ⟨rfl, fun _ => rfl, rfl⟩) ⟨⟨rfl, by decide, 1, PwmWrite.binds_oneDevice⟩, trivial,
      ⟨rfl, by decide, 1, PwmWrite.binds_oneDevice⟩, trivial, Option.some_ne_none _, trivial,
      Option.some_ne_none _, trivial, trivial⟩)
    fun i => by
      rcases i with - | - | i <;> rfl
  have hcases : order = [direction1, enable0] ∨ order = [enable0, direction1] := by
    have hmem : order ∈ [direction1, enable0].permutations' := List.mem_permutations'.2 hperm
    simpa [List.permutations', List.permutations'Aux] using hmem
  rcases hcases with rfl | rfl
  · exact absurd hio (by decide)
  · exact absurd hio (by decide)

end Race

end Dcs
