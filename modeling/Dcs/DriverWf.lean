import Dcs.Driver

/-!
# What each call does, and what holds in every run

`probe_cases`, `remove_cases` and `open_cases` say everything a call can do to the world.
`World.Wf` is the invariant of all runs, whatever the services answer: the entries of the device list
are allocated and have distinct device numbers, and a device's entry is mapped for it.
-/

namespace Dcs
open Function

namespace World
variable {Reg : Type} {D : Driver Reg} {w : World Reg}

/-! ### What each call does -/

theorem minors_findFirstZeroBit {n : ℕ} (h : w.findFirstZeroBit n < n) :
    w.minors (w.findFirstZeroBit n) = false := by
  unfold findFirstZeroBit at h ⊢
  cases hfind : (List.range n).find? fun i => !w.minors i with
  | none => rw [hfind] at h; exact absurd h (lt_irrefl n)
  | some i => simpa using List.find?_some hfind

def nextDevt (D : Driver Reg) (w : World Reg) : DevT := ⟨w.major, w.findFirstZeroBit D.nMinors⟩

/-- The device structure that a successful `probe` fills in. -/
def newData (D : Driver Reg) (w : World Reg) (d : PlatDev) (m : Option MapId) : DevData Reg where
  address r := ⟨m, D.offset r⟩
  messageRead := false
  baseRegister := d.start % 2 ^ 32
  devt := w.nextDevt D

def registered (D : Driver Reg) (w : World Reg) (d : PlatDev) (p : Ptr) (m : Option MapId) : World Reg :=
  { w with
    minors := update w.minors (w.nextDevt D).minor true
    deviceList := p :: w.deviceList
    deviceListLock := false
    heap := update w.heap p (some (w.newData D d m))
    nodes := update w.nodes (w.nextDevt D) true
    regions := update w.regions d true
    mapped := (w.ofIomap d m).mapped
    drvdata := update w.drvdata d (some p) }

/-- The world after a `probe` that was refused the memory region. -/
def refused (D : Driver Reg) (w : World Reg) (p : Ptr) : World Reg :=
  { w with
    minors := update w.minors (w.nextDevt D).minor false
    deviceList := p :: w.deviceList
    deviceListLock := true
    heap := update w.heap p (some { DevData.zero with devt := w.nextDevt D })
    nodes := update w.nodes (w.nextDevt D) false }

/-- `probe` gets as far as `request_mem_region`. -/
def Requests (D : Driver Reg) (w : World Reg) (o : Services) : Prop :=
  o.kzalloc.isSome ∧ w.findFirstZeroBit D.nMinors < D.nMinors ∧ o.create = 0

instance (D : Driver Reg) (w : World Reg) (o : Services) : Decidable (w.Requests D o) :=
  inferInstanceAs (Decidable (_ ∧ _ ∧ _))

theorem createNode_eq (D : Driver Reg) (w : World Reg) (p : Ptr) (o : Services) :
    (w.findFirstZeroBit D.nMinors < D.nMinors ∧ o.create = 0 ∧
      createNode D w p o = ((w.modify p fun x => { x with devt := w.nextDevt D }).deviceCreate (w.nextDevt D), 0)) ∨
    (¬ (w.findFirstZeroBit D.nMinors < D.nMinors ∧ o.create = 0) ∧ ∃ f, (∀ x, (f x).address = x.address) ∧
      ∃ e ≠ 0, createNode D w p o = (w.modify p f, e)) := by
  unfold createNode
  by_cases hm : w.findFirstZeroBit D.nMinors < D.nMinors
  · by_cases hc : o.create = 0
    · exact .inl ⟨hm, hc, by simp only [hm, hc, ↓reduceIte]; rfl⟩
    · exact .inr ⟨fun h => hc h.2, fun x => { x with devt := w.nextDevt D }, fun _ => rfl, o.create, hc,
        by simp only [hm, hc, ↓reduceIte]; rfl⟩
  · refine .inr ⟨fun h => hm h.1, id, fun _ => rfl, -ENODEV, by decide, ?_⟩
    simp [hm, modify]

theorem probe_cases (D : Driver Reg) (w : World Reg) (d : PlatDev) (o : Services) :
    (o.kzalloc = none ∧ w.probe D d o = (w, .returns (-ENOMEM))) ∨
    ∃ p, o.kzalloc = some p ∧
      ((w.deviceListLock = true ∧ w.probe D d o = (w.kzalloc p, .blocks)) ∨
      (w.deviceListLock = false ∧ ¬ w.Requests D o ∧ ∃ e ≠ 0,
        w.probe D d o = (w.unlockList.kfree p, .returns e)) ∨
      (w.deviceListLock = false ∧ w.Requests D o ∧ o.requestMemRegion = false ∧
        w.probe D d o = (w.refused D p, .returns (-ENODEV))) ∨
      (w.deviceListLock = false ∧ w.Requests D o ∧ o.requestMemRegion = true ∧
        w.probe D d o = (w.registered D d p o.ofIomap, .returns 0))) := by
  cases hp : o.kzalloc with
  | none => exact .inl ⟨rfl, by simp [probe, hp]⟩
  | some p =>
    refine .inr ⟨p, rfl, ?_⟩
    cases hlock : w.deviceListLock with
    | true => exact .inl ⟨rfl, by simp [probe, hp, kzalloc, hlock]⟩
    | false =>
      have hfree : ¬ (w.kzalloc p).deviceListLock = true := by simp [kzalloc, hlock]
      refine .inr ?_
      rcases createNode_eq D (w.kzalloc p).lockList p o with ⟨hm, hc, hnode⟩ | ⟨hno, f, -, e, he, hnode⟩
      · have hreq : w.Requests D o := ⟨by simp [hp], hm, hc⟩
        refine .inr ?_
        cases hr : o.requestMemRegion with
        | false =>
          refine .inl ⟨rfl, hreq, rfl, ?_⟩
          simp only [probe, hp, hfree, hnode, register, hr, ↓reduceIte]
          simp [refused, kzalloc, modify, deviceCreate, deviceDestroy, setBit, clearBit, listAdd, lockList,
            nextDevt, findFirstZeroBit]
        | true =>
          refine .inr ⟨rfl, hreq, rfl, ?_⟩
          simp only [probe, hp, hfree, hnode, register, hr, ↓reduceIte, reduceCtorEq]
          cases o.ofIomap <;>
            simp [registered, newData, kzalloc, modify, deviceCreate, setBit, listAdd, lockList, unlockList,
              holdRegion, ofIomap, mapRegisters, setDrvdata, nextDevt, findFirstZeroBit, IoAddr.add, DevData.zero]
      · refine .inl ⟨rfl, fun hreq => hno ⟨hreq.2.1, hreq.2.2⟩, e, he, ?_⟩
        simp only [probe, hp, hfree, hnode, he, ↓reduceIte]
        simp [kzalloc, modify, lockList, unlockList, kfree]

def unregistered (D : Driver Reg) (w : World Reg) (d : PlatDev) (p : Ptr) (x : DevData Reg) : World Reg :=
  { w with
    minors := update w.minors x.devt.minor false
    deviceList := w.deviceList.erase p
    deviceListLock := false
    heap := update w.heap p none
    nodes := update w.nodes x.devt false
    regions := if x.baseRegister = 0 then w.regions else update w.regions d false
    mapped := (w.iounmap (x.address D.base)).mapped
    drvdata := update w.drvdata d none }

theorem remove_cases (D : Driver Reg) (w : World Reg) (d : PlatDev) {p : Ptr} {x : DevData Reg}
    (hp : w.drvdata d = some p) (hx : w.heap p = some x) :
    (w.deviceListLock = true ∧ w.remove D d = (w, .blocks)) ∨
    (w.deviceListLock = false ∧ w.remove D d = (w.unregistered D d p x, .returns 0)) := by
  cases hlock : w.deviceListLock with
  | true => exact .inl ⟨rfl, by simp [remove, hp, hlock]⟩
  | false =>
    refine .inr ⟨rfl, ?_⟩
    simp only [remove, hp, hlock, hx]
    cases hm : (x.address D.base).range <;> by_cases hb : x.baseRegister = 0 <;>
      simp [unregistered, iounmap, lockList, listDel, deviceDestroy, clearBit, releaseMemRegion, kfree,
        unlockList, setDrvdata, hm, hb]

/-- A change of `message_read` fields only. -/
def touch (w : World Reg) (g : Ptr → Bool → Bool) : World Reg :=
  { w with heap := fun p => (w.heap p).map fun x => { x with messageRead := g p x.messageRead } }

/-- The last entry of the device list with device number `v`. -/
def lookup (w : World Reg) (v : DevT) : Option Ptr :=
  (w.deviceList.filter fun p => (w.heap p).any fun x => x.devt = v).getLast?

theorem modify_messageRead (w : World Reg) (p : Ptr) (b : Bool) :
    (w.modify p fun x => { x with messageRead := b }) = w.touch fun q c => if q = p then b else c := by
  simp only [modify, touch]
  congr 1
  funext q
  by_cases hq : q = p
  · subst hq; simp
  · simp [hq]

theorem findDevice_eq (v : DevT) (ps : List Ptr) (w : World Reg) (found : Option Ptr) :
    ∃ g, w.findDevice v ps found =
      (w.touch g, ((ps.filter fun p => (w.heap p).any fun x => x.devt = v).getLast?).or found) := by
  induction ps generalizing w found with
  | nil => exact ⟨fun _ b => b, by simp [findDevice, touch]⟩
  | cons p ps ih =>
    by_cases hp : (w.heap p).any fun x => x.devt = v
    · have hkeep : ∀ q, ((w.touch fun q c => if q = p then false else c).heap q).any (fun x => x.devt = v) =
          (w.heap q).any fun x => x.devt = v := fun q => by simp [touch, Option.any_map]
      obtain ⟨g, hg⟩ := ih (w.touch fun q c => if q = p then false else c) (some p)
      refine ⟨fun q c => g q (if q = p then false else c), ?_⟩
      simp only [findDevice, hp, ↓reduceIte, modify_messageRead, hg, hkeep, List.filter_cons]
      refine Prod.ext ?_ ?_
      · simp [touch, Function.comp_def]
      · cases hl : (ps.filter fun p => (w.heap p).any fun x => x.devt = v).getLast? <;>
          simp [hl, List.getLast?_cons]
    · obtain ⟨g, hg⟩ := ih w found
      exact ⟨g, by simp only [findDevice, hp, hg, List.filter_cons]; rfl⟩

theorem open_cases (w : World Reg) (f : FileId) (v : DevT) :
    (w.deviceListLock = true ∧ w.open f v = (w, .blocks)) ∨
    (w.deviceListLock = false ∧ w.deviceMutex = true ∧ ∃ g,
      w.open f v = ({ w.touch g with deviceListLock := true }, .returns (-EBUSY))) ∨
    (w.deviceListLock = false ∧ w.deviceMutex = false ∧ ∃ g,
      w.open f v = ({ w.touch g with
        deviceListLock := false
        deviceMutex := true
        files := update w.files f (some ⟨v, w.lookup v⟩) }, .returns 0)) := by
  cases hlock : w.deviceListLock with
  | true => exact .inl ⟨rfl, by simp [World.open, hlock]⟩
  | false =>
    obtain ⟨g, hg⟩ := findDevice_eq v w.deviceList w.lockList none
    have hlist : w.lockList.deviceList = w.deviceList := rfl
    refine .inr ?_
    cases hmutex : w.deviceMutex with
    | true =>
      refine .inl ⟨rfl, rfl, g, ?_⟩
      simp only [World.open, hlock, hlist, hg]
      simp [touch, lockList, hmutex]
    | false =>
      refine .inr ⟨rfl, rfl, g, ?_⟩
      simp only [World.open, hlock, hlist, hg]
      simp [touch, lockList, unlockList, hmutex, lookup]

theorem lookup_eq_some {v : DevT} {p : Ptr} (h : w.lookup v = some p) :
    p ∈ w.deviceList ∧ ∃ x, w.heap p = some x ∧ x.devt = v := by
  have hmem := List.mem_of_getLast? h
  rw [List.mem_filter, Option.any_eq_true] at hmem
  obtain ⟨hp, x, hx, hv⟩ := hmem
  exact ⟨hp, x, hx, by simpa using hv⟩

/-! ### The invariant -/

/-- `p` is on the device list and points to `x`. -/
def Entry (w : World Reg) (p : Ptr) (x : DevData Reg) : Prop := p ∈ w.deviceList ∧ w.heap p = some x

/-- `x` is what `probe` fills in for `d`. -/
structure Holds (D : Driver Reg) (w : World Reg) (d : PlatDev) (x : DevData Reg) : Prop where
  baseRegister : x.baseRegister = d.start % 2 ^ 32
  address : ∀ r, x.address r = ⟨(x.address D.base).range, D.offset r⟩
  mapped : ∀ m, (x.address D.base).range = some m → w.mapped m = some d

structure Wf (D : Driver Reg) (w : World Reg) : Prop where
  nodup : w.deviceList.Nodup
  alloc : ∀ p ∈ w.deviceList, ∃ x, w.heap p = some x
  devt : ∀ p x, w.Entry p x → x.devt.major = w.major ∧ x.devt.minor < D.nMinors
  distinct : ∀ p q x y, w.Entry p x → w.Entry q y → x.devt = y.devt → p = q
  /-- A `probe` that is refused its region clears the bit of the entry it leaves, and keeps the lock. -/
  bit : w.deviceListLock = false → ∀ p x, w.Entry p x → w.minors x.devt.minor = true
  bound : ∀ d p, w.drvdata d = some p → ∃ x, w.Entry p x ∧ w.Holds D d x
  bound_inj : ∀ d d' p, w.drvdata d = some p → w.drvdata d' = some p → d = d'

/-- A step that leaves the registry alone: it changes `message_read` fields and allocates. -/
structure Keeps (w w' : World Reg) : Prop where
  major : w'.major = w.major
  minors : w'.minors = w.minors
  deviceList : w'.deviceList = w.deviceList
  nodes : w'.nodes = w.nodes
  regions : w'.regions = w.regions
  mapped : w'.mapped = w.mapped
  drvdata : w'.drvdata = w.drvdata
  heap : ∀ p x, w.heap p = some x → ∃ b, w'.heap p = some { x with messageRead := b }

theorem Keeps.refl (w : World Reg) : w.Keeps w :=
  ⟨rfl, rfl, rfl, rfl, rfl, rfl, rfl, fun _ x hx => ⟨x.messageRead, hx⟩⟩

theorem Keeps.touch (w : World Reg) (g : Ptr → Bool → Bool) : w.Keeps (w.touch g) :=
  ⟨rfl, rfl, rfl, rfl, rfl, rfl, rfl, fun p x hx => ⟨g p x.messageRead, by simp [World.touch, hx]⟩⟩

theorem Keeps.kzalloc {p : Ptr} (hp : w.heap p = none) : w.Keeps (w.kzalloc p) := by
  refine ⟨rfl, rfl, rfl, rfl, rfl, rfl, rfl, fun q x hx => ⟨x.messageRead, ?_⟩⟩
  have hq : q ≠ p := by rintro rfl; rw [hp] at hx; cases hx
  simp [World.kzalloc, hq, hx]

theorem Keeps.entry {w' : World Reg} (h : w.Keeps w') {p : Ptr} {x : DevData Reg} (hx : w.Entry p x) :
    ∃ b, w'.Entry p { x with messageRead := b } := by
  obtain ⟨b, hb⟩ := h.heap p x hx.2
  exact ⟨b, by rw [h.deviceList]; exact hx.1, hb⟩

theorem Keeps.entry_back {w' : World Reg} (h : w.Keeps w') (hw : w.Wf D) {p : Ptr} {y : DevData Reg}
    (hy : w'.Entry p y) : ∃ x, w.Entry p x ∧ ∃ b, y = { x with messageRead := b } := by
  have hp : p ∈ w.deviceList := h.deviceList ▸ hy.1
  obtain ⟨x, hx⟩ := hw.alloc p hp
  obtain ⟨b, hb⟩ := h.heap p x hx
  exact ⟨x, ⟨hp, hx⟩, b, Option.some.inj (hy.2.symm.trans hb)⟩

namespace Wf

theorem initial (D : Driver Reg) (major : ℕ) : (World.initial major : World Reg).Wf D where
  nodup := List.nodup_nil
  alloc := by simp [World.initial]
  devt := by simp [World.initial, Entry]
  distinct := by simp [World.initial, Entry]
  bit := by simp [World.initial, Entry]
  bound := by simp [World.initial]
  bound_inj := by simp [World.initial]

theorem keeps (hw : w.Wf D) {w' : World Reg} (h : w.Keeps w')
    (hlock : w'.deviceListLock = false → w.deviceListLock = false) : w'.Wf D where
  nodup := h.deviceList ▸ hw.nodup
  alloc p hp := by
    obtain ⟨x, hx⟩ := hw.alloc p (h.deviceList ▸ hp)
    obtain ⟨b, hb⟩ := h.heap p x hx
    exact ⟨_, hb⟩
  devt p y hy := by
    obtain ⟨x, hx, b, rfl⟩ := h.entry_back hw hy
    rw [h.major]
    exact hw.devt p x hx
  distinct p q y z hy hz hv := by
    obtain ⟨x, hx, b, rfl⟩ := h.entry_back hw hy
    obtain ⟨x', hx', b', rfl⟩ := h.entry_back hw hz
    exact hw.distinct p q x x' hx hx' hv
  bit hfree p y hy := by
    obtain ⟨x, hx, b, rfl⟩ := h.entry_back hw hy
    rw [h.minors]
    exact hw.bit (hlock hfree) p x hx
  bound d p hd := by
    rw [h.drvdata] at hd
    obtain ⟨x, hx, hold⟩ := hw.bound d p hd
    obtain ⟨b, hb⟩ := h.entry hx
    exact ⟨_, hb, hold.baseRegister, hold.address, h.mapped ▸ hold.mapped⟩
  bound_inj d d' p hd hd' := by
    rw [h.drvdata] at hd hd'
    exact hw.bound_inj d d' p hd hd'

theorem eq_of_minor (hw : w.Wf D) {p q : Ptr} {x y : DevData Reg} (hx : w.Entry p x) (hy : w.Entry q y)
    (h : x.devt.minor = y.devt.minor) : p = q :=
  hw.distinct p q x y hx hy (DevT.ext ((hw.devt p x hx).1.trans (hw.devt q y hy).1.symm) h)

theorem bound_at (hw : w.Wf D) {d : PlatDev} {p : Ptr} {x : DevData Reg} (hd : w.drvdata d = some p)
    (hx : w.heap p = some x) : w.Entry p x ∧ w.Holds D d x := by
  obtain ⟨x', hx', hold⟩ := hw.bound d p hd
  obtain rfl : x = x' := Option.some.inj (hx.symm.trans hx'.2)
  exact ⟨hx', hold⟩

theorem holds (hw : w.Wf D) {d : PlatDev} {p : Ptr} {x : DevData Reg} (hd : w.drvdata d = some p)
    (hx : w.heap p = some x) : w.Holds D d x :=
  (hw.bound_at hd hx).2

theorem not_mem (hw : w.Wf D) {p : Ptr} (hp : w.heap p = none) : p ∉ w.deviceList := fun h => by
  obtain ⟨x, hx⟩ := hw.alloc p h
  rw [hp] at hx
  cases hx

end Wf

section
variable {p : Ptr} {z : DevData Reg} {w' : World Reg} (hlist : w'.deviceList = p :: w.deviceList)
  (hheap : w'.heap = update w.heap p (some z)) (hp : p ∉ w.deviceList)
include hlist hheap hp

theorem entry_add {q : Ptr} {y : DevData Reg} :
    w'.Entry q y ↔ (q = p ∧ y = z) ∨ w.Entry q y := by
  simp only [Entry, hlist, hheap, List.mem_cons]
  by_cases hq : q = p
  · subst hq; simp [hp, eq_comm]
  · simp [hq]

/-- The part of the invariant that only needs the new entry to have a free device number. -/
theorem Wf.add (hw : w.Wf D) (hlock : w.deviceListLock = false)
    (hm : w.findFirstZeroBit D.nMinors < D.nMinors) (hmajor : w'.major = w.major)
    (hz : z.devt = w.nextDevt D)
    (hbit : w'.deviceListLock = false → ∀ p x, w'.Entry p x → w'.minors x.devt.minor = true)
    (hbound : ∀ d p, w'.drvdata d = some p → ∃ x, w'.Entry p x ∧ w'.Holds D d x)
    (hinj : ∀ d d' p, w'.drvdata d = some p → w'.drvdata d' = some p → d = d') : w'.Wf D := by
  have hfree : ∀ q y, w.Entry q y → y.devt ≠ z.devt := fun q y hy hv => by
    have hset := hw.bit hlock q y hy
    rw [hv, hz] at hset
    exact absurd hset (by rw [nextDevt, minors_findFirstZeroBit hm]; decide)
  refine ⟨?_, ?_, ?_, ?_, hbit, hbound, hinj⟩
  · rw [hlist]
    exact List.nodup_cons.2 ⟨hp, hw.nodup⟩
  · intro q hq
    rw [hlist, List.mem_cons] at hq
    rcases hq with rfl | hq
    · exact ⟨z, by simp [hheap]⟩
    · obtain ⟨y, hy⟩ := hw.alloc q hq
      exact ⟨y, ((entry_add hlist hheap hp).2 (.inr ⟨hq, hy⟩)).2⟩
  · intro q y hy
    rw [hmajor]
    rcases (entry_add hlist hheap hp).1 hy with ⟨-, rfl⟩ | hy
    · rw [hz]; exact ⟨rfl, hm⟩
    · exact hw.devt q y hy
  · intro q q' y y' hy hy' hv
    rcases (entry_add hlist hheap hp).1 hy with ⟨rfl, rfl⟩ | hy <;>
      rcases (entry_add hlist hheap hp).1 hy' with ⟨rfl, rfl⟩ | hy'
    · rfl
    · exact absurd hv.symm (hfree _ _ hy')
    · exact absurd hv (hfree _ _ hy)
    · exact hw.distinct q q' y y' hy hy' hv

end

theorem entry_unregistered (hw : w.Wf D) {d : PlatDev} {p q : Ptr} {x y : DevData Reg} :
    (w.unregistered D d p x).Entry q y ↔ q ≠ p ∧ w.Entry q y := by
  simp only [Entry, unregistered, hw.nodup.mem_erase_iff]
  by_cases hq : q = p
  · simp [hq]
  · simp [hq]

theorem Holds.ofIomap {d e : PlatDev} {m : Option MapId} {x : DevData Reg} (hx : w.Holds D e x)
    (hm : ∀ i, m = some i → w.mapped i = none) {w' : World Reg} (h : w'.mapped = (w.ofIomap d m).mapped) :
    w'.Holds D e x := by
  refine ⟨hx.baseRegister, hx.address, fun i hi => ?_⟩
  have hmap := hx.mapped i hi
  rw [h]
  cases m with
  | none => exact hmap
  | some j =>
    have hij : i ≠ j := by rintro rfl; rw [hm i rfl] at hmap; cases hmap
    simpa [World.ofIomap, hij] using hmap

theorem Holds.iounmap {d e : PlatDev} {x y : DevData Reg} (hx : w.Holds D d x) (hy : w.Holds D e y)
    (hde : e ≠ d) {w' : World Reg} (h : w'.mapped = (w.iounmap (x.address D.base)).mapped) :
    w'.Holds D e y := by
  refine ⟨hy.baseRegister, hy.address, fun i hi => ?_⟩
  have hmap := hy.mapped i hi
  rw [h, World.iounmap]
  cases hj : (x.address D.base).range with
  | none => exact hmap
  | some j =>
    have hij : i ≠ j := by
      rintro rfl
      exact hde (Option.some.inj (hmap.symm.trans (hx.mapped i hj)))
    simpa [hij] using hmap

namespace Wf

theorem refused (hw : w.Wf D) {p : Ptr} (hp : w.heap p = none) (hlock : w.deviceListLock = false)
    (hm : w.findFirstZeroBit D.nMinors < D.nMinors) : (w.refused D p).Wf D := by
  refine hw.add rfl rfl (hw.not_mem hp) hlock hm rfl rfl (fun h => by cases h) (fun d q hd => ?_)
    fun d d' q => hw.bound_inj d d' q
  obtain ⟨x, hx, hold⟩ := hw.bound d q hd
  exact ⟨x, (entry_add rfl rfl (hw.not_mem hp)).2 (.inr hx), hold.baseRegister, hold.address, hold.mapped⟩

theorem registered (hw : w.Wf D) {d : PlatDev} {p : Ptr} {m : Option MapId} (hd : w.drvdata d = none)
    (hp : w.heap p = none) (hfresh : ∀ i, m = some i → w.mapped i = none)
    (hlock : w.deviceListLock = false) (hm : w.findFirstZeroBit D.nMinors < D.nMinors) :
    (w.registered D d p m).Wf D := by
  have hp' := hw.not_mem hp
  refine hw.add rfl rfl hp' hlock hm rfl rfl ?_ ?_ ?_
  · intro _ q y hy
    rcases (entry_add rfl rfl hp').1 hy with ⟨-, rfl⟩ | hy
    · simp [World.registered, newData]
    · by_cases hq : y.devt.minor = (w.nextDevt D).minor
      · simp [World.registered, hq]
      · simpa [World.registered, hq] using hw.bit hlock q y hy
  · intro e q he
    by_cases hed : e = d
    · subst hed
      obtain rfl : p = q := by simpa [World.registered] using he
      refine ⟨_, (entry_add rfl rfl hp').2 (.inl ⟨rfl, rfl⟩), rfl, fun r => ?_, fun i hi => ?_⟩
      · simp [newData]
      · obtain rfl : m = some i := hi
        simp [World.registered, World.ofIomap]
    · obtain ⟨x, hx, hold⟩ := hw.bound e q (by simpa [World.registered, hed] using he)
      exact ⟨x, (entry_add rfl rfl hp').2 (.inr hx), hold.ofIomap hfresh rfl⟩
  · have hnew : ∀ e, e ≠ d → (w.registered D d p m).drvdata e = some p → False := fun e hed he => by
      obtain ⟨x, hx, -⟩ := hw.bound e p (by simpa [World.registered, hed] using he)
      exact hp' hx.1
    intro e e' q he he'
    by_cases hed : e = d <;> by_cases hed' : e' = d
    · rw [hed, hed']
    · obtain rfl : p = q := by simpa [World.registered, hed] using he
      exact (hnew e' hed' he').elim
    · obtain rfl : p = q := by simpa [World.registered, hed'] using he'
      exact (hnew e hed he).elim
    · exact hw.bound_inj e e' q (by simpa [World.registered, hed] using he)
        (by simpa [World.registered, hed'] using he')

theorem unregistered (hw : w.Wf D) {d : PlatDev} {p : Ptr} {x : DevData Reg} (hp : w.drvdata d = some p)
    (hx : w.heap p = some x) (hlock : w.deviceListLock = false) : (w.unregistered D d p x).Wf D := by
  obtain ⟨hentry, hold⟩ := hw.bound_at hp hx
  have hdrv : ∀ e q, (w.unregistered D d p x).drvdata e = some q → e ≠ d ∧ w.drvdata e = some q := by
    intro e q he
    by_cases hed : e = d
    · simp [World.unregistered, hed] at he
    · exact ⟨hed, by simpa [World.unregistered, hed] using he⟩
  refine ⟨hw.nodup.erase p, ?_, ?_, ?_, ?_, ?_, ?_⟩
  · intro q hq
    obtain ⟨hqp, hq⟩ := hw.nodup.mem_erase_iff.1 hq
    obtain ⟨y, hy⟩ := hw.alloc q hq
    exact ⟨y, ((entry_unregistered hw).2 ⟨hqp, hq, hy⟩).2⟩
  · intro q y hy
    exact hw.devt q y ((entry_unregistered hw).1 hy).2
  · intro q q' y y' hy hy'
    exact hw.distinct q q' y y' ((entry_unregistered hw).1 hy).2 ((entry_unregistered hw).1 hy').2
  · intro _ q y hy
    obtain ⟨hqp, hy⟩ := (entry_unregistered hw).1 hy
    have hne : y.devt.minor ≠ x.devt.minor := fun h =>
      hqp (hw.eq_of_minor hy hentry h)
    simpa [World.unregistered, hne] using hw.bit hlock q y hy
  · intro e q he
    obtain ⟨hed, he'⟩ := hdrv e q he
    obtain ⟨y, hy, hold'⟩ := hw.bound e q he'
    have hqp : q ≠ p := by
      rintro rfl
      exact hed (hw.bound_inj e d q he' hp)
    exact ⟨y, (entry_unregistered hw).2 ⟨hqp, hy⟩, hold.iounmap hold' hed rfl⟩
  · intro e e' q he he'
    exact hw.bound_inj e e' q (hdrv e q he).2 (hdrv e' q he').2

end Wf

/-! ### Every call, and every run -/

theorem keeps_open (w : World Reg) (f : FileId) (v : DevT) :
    w.Keeps (w.open f v).1 ∧ ((w.open f v).1.deviceListLock = false → w.deviceListLock = false) := by
  rcases open_cases w f v with ⟨hlock, h⟩ | ⟨-, -, g, h⟩ | ⟨hlock, -, g, h⟩ <;> rw [h]
  · exact ⟨.refl w, id⟩
  · exact ⟨{ Keeps.touch w g with }, by simp⟩
  · exact ⟨{ Keeps.touch w g with }, fun _ => hlock⟩

theorem bind_privateData {f : FileId} {F : File} {p : Ptr} (hF : w.files f = some F)
    (hp : F.privateData = some p) : w.files f >>= File.privateData = some p := by
  rw [hF]
  exact hp

theorem read_eq (w : World Reg) (f : FileId) (result : ℤ) :
    ∃ g, ∃ out ≠ Outcome.blocks, w.read f result = (w.touch g, out) := by
  have hid : w.touch (fun _ b => b) = w := by simp [touch]
  unfold read
  split
  · exact ⟨_, .faults, by simp, by rw [hid]⟩
  · split
    · exact ⟨_, .faults, by simp, by rw [hid]⟩
    · split
      · exact ⟨_, .returns 0, by simp, by rw [hid]⟩
      · exact ⟨_, .returns result, by simp, by rw [modify_messageRead]⟩

theorem write_eq (D : Driver Reg) (w : World Reg) (f : FileId) (result : ℤ) :
    ∃ out ≠ Outcome.blocks, w.write D f result = (w, out) := by
  unfold write
  split
  · exact ⟨.returns (-EPERM), by simp, rfl⟩
  · split
    · exact ⟨.faults, by simp, rfl⟩
    · split
      · exact ⟨.returns result, by simp, rfl⟩
      · exact ⟨.faults, by simp, rfl⟩

/-- All that a call can do to the registry. -/
theorem call_cases (hw : w.Wf D) {c : Call} (hc : w.Issues c) :
    (w.Keeps (w.call D c).1 ∧ ((w.call D c).1.deviceListLock = false → w.deviceListLock = false)) ∨
    (∃ d o p, c = .probe d o ∧ w.heap p = none ∧ w.deviceListLock = false ∧ w.Requests D o ∧
      o.requestMemRegion = false ∧ w.call D c = (w.refused D p, .returns (-ENODEV))) ∨
    (∃ d o p, c = .probe d o ∧ w.drvdata d = none ∧ w.heap p = none ∧
      (∀ i, o.ofIomap = some i → w.mapped i = none) ∧ w.deviceListLock = false ∧ w.Requests D o ∧
      w.call D c = (w.registered D d p o.ofIomap, .returns 0)) ∨
    (∃ d p x, c = .remove d ∧ w.drvdata d = some p ∧ w.Entry p x ∧ w.Holds D d x ∧
      w.deviceListLock = false ∧ w.call D c = (w.unregistered D d p x, .returns 0)) := by
  cases c with
  | «open» f v => exact .inl (keeps_open w f v)
  | release f => exact .inl ⟨{ Keeps.refl w with }, id⟩
  | read f result =>
    obtain ⟨g, out, -, h⟩ := read_eq w f result
    exact .inl ⟨by rw [World.call, h]; exact .touch w g, fun hl => by rwa [World.call, h] at hl⟩
  | write f result =>
    obtain ⟨out, -, h⟩ := write_eq D w f result
    exact .inl ⟨by rw [World.call, h]; exact .refl w, fun hl => by rwa [World.call, h] at hl⟩
  | probe d o =>
    obtain ⟨hd, hp, hm⟩ := hc
    rcases probe_cases D w d o with ⟨-, h⟩ | ⟨p, hko, ⟨hlock, h⟩ | ⟨hlock, -, e, -, h⟩ | ⟨hlock, hreq, hr, h⟩ |
      ⟨hlock, hreq, hr, h⟩⟩
    · exact .inl ⟨by rw [World.call, h]; exact .refl w, fun hl => by rwa [World.call, h] at hl⟩
    · exact .inl ⟨by rw [World.call, h]; exact .kzalloc (hp p hko), fun hl => by rwa [World.call, h] at hl⟩
    · refine .inl ⟨?_, fun _ => hlock⟩
      have hfree : update w.heap p none = w.heap := by rw [← hp p hko, update_eq_self]
      rw [World.call, h]
      exact { Keeps.refl w with heap := fun q x hx => ⟨x.messageRead, by simp [unlockList, kfree, hfree, hx]⟩ }
    · exact .inr (.inl ⟨d, o, p, rfl, hp p hko, hlock, hreq, hr, h⟩)
    · exact .inr (.inr (.inl ⟨d, o, p, rfl, hd, hp p hko, hm, hlock, hreq, h⟩))
  | remove d =>
    obtain ⟨p, hd⟩ := Option.ne_none_iff_exists'.1 hc
    obtain ⟨x, hx, hold⟩ := hw.bound d p hd
    rcases remove_cases D w d hd hx.2 with ⟨-, h⟩ | ⟨hlock, h⟩
    · exact .inl ⟨by rw [World.call, h]; exact .refl w, fun hl => by rwa [World.call, h] at hl⟩
    · exact .inr (.inr (.inr ⟨d, p, x, rfl, hd, hx, hold, hlock, h⟩))

theorem remove_files (D : Driver Reg) (w : World Reg) (d : PlatDev) :
    (w.remove D d).1.files = w.files ∧ (w.remove D d).1.deviceMutex = w.deviceMutex := by
  unfold remove
  split
  · exact ⟨rfl, rfl⟩
  · split
    · exact ⟨rfl, rfl⟩
    · split
      · exact ⟨rfl, rfl⟩
      · dsimp only
        split <;> exact ⟨rfl, rfl⟩

/-- All that a call can do to the open files and the device mutex. -/
theorem call_files (D : Driver Reg) (w : World Reg) (c : Call) :
    ((w.call D c).1.files = w.files ∧ (w.call D c).1.deviceMutex = w.deviceMutex ∧
      ∀ f v, c = .open f v → (w.call D c).2 ≠ .returns 0) ∨
    (∃ f v, c = .open f v ∧ w.deviceListLock = false ∧ w.deviceMutex = false ∧
      (w.call D c).1.files = update w.files f (some ⟨v, w.lookup v⟩) ∧
      (w.call D c).1.deviceMutex = true ∧ (w.call D c).2 = .returns 0) ∨
    (∃ f, c = .release f ∧ (w.call D c).1.files = update w.files f none ∧
      (w.call D c).1.deviceMutex = false) := by
  cases c with
  | «open» f v =>
    rcases open_cases w f v with ⟨-, h⟩ | ⟨-, -, g, h⟩ | ⟨hlock, hmutex, g, h⟩
    · exact .inl (by simp [World.call, h])
    · exact .inl (by simp [World.call, h, touch, EBUSY])
    · exact .inr (.inl ⟨f, v, rfl, hlock, hmutex, by simp [World.call, h]⟩)
  | release f => exact .inr (.inr ⟨f, rfl, rfl, rfl⟩)
  | read f result =>
    obtain ⟨g, out, -, h⟩ := read_eq w f result
    exact .inl (by simp [World.call, h, touch])
  | write f result =>
    obtain ⟨out, -, h⟩ := write_eq D w f result
    exact .inl (by simp [World.call, h])
  | probe d o =>
    rcases probe_cases D w d o with ⟨-, h⟩ | ⟨p, -, ⟨-, h⟩ | ⟨-, -, e, -, h⟩ | ⟨-, -, -, h⟩ | ⟨-, -, -, h⟩⟩ <;>
      exact .inl (by simp [World.call, h, kzalloc, kfree, unlockList, refused, registered])
  | remove d =>
    obtain ⟨hfiles, hmutex⟩ := remove_files D w d
    exact .inl ⟨hfiles, hmutex, by simp⟩

theorem Wf.call (hw : w.Wf D) {c : Call} (hc : w.Issues c) : (w.call D c).1.Wf D := by
  rcases call_cases hw hc with ⟨hkeep, hlock⟩ | ⟨d, o, p, rfl, hp, hlock, hreq, -, h⟩ |
    ⟨d, o, p, rfl, hd, hp, hm, hlock, hreq, h⟩ | ⟨d, p, x, rfl, hd, hx, -, hlock, h⟩
  · exact hw.keeps hkeep hlock
  · rw [h]; exact hw.refused hp hlock hreq.2.1
  · rw [h]; exact hw.registered hd hp hm hlock hreq.2.1
  · rw [h]; exact hw.unregistered hd hx.2 hlock

theorem Wf.of_reach {P : World Reg → Call → Prop} (h : Lts.Reach (drive D) P w) : w.Wf D := by
  refine h.invariant (I := Wf D) ?_ fun _ _ hw hc _ => hw.call hc
  rintro _ ⟨major, rfl⟩
  exact .initial D major

end World

end Dcs
