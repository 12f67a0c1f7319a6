import Dcs.DriverWf

/-!
# The registry

The minor bitmap, the device list, the device nodes and the held memory regions describe the same set
of devices in every run in which no `probe` is refused its region and no removed device lies at a
multiple of 2^32 (`remove` takes a `base_register` of 0 for a region that was never requested). A
refused `probe` breaks it: `failed_memregion` clears the bit and destroys the node, and leaves the
entry on the list and allocated.
-/

namespace Dcs
open Function

variable {Reg : Type} {D : Driver Reg} {w : World Reg}

/-- `request_mem_region` succeeds, and a removed device has a base address other than 0. -/
def Call.Granted (D : Driver Reg) (w : World Reg) : Call → Prop
  | .probe _ o => w.Requests D o → o.requestMemRegion = true
  | .remove d => d.start % 2 ^ 32 ≠ 0
  | _ => True

instance (D : Driver Reg) (w : World Reg) (c : Call) : Decidable (c.Granted D w) :=
  match c with
  | .probe _ o => inferInstanceAs (Decidable (w.Requests D o → o.requestMemRegion = true))
  | .remove _ => inferInstanceAs (Decidable (_ ≠ _))
  | .open _ _ | .release _ | .read _ _ | .write _ _ => inferInstanceAs (Decidable True)

namespace World

/-- The bitmap, the nodes and the regions are those of the entries of the device list. -/
structure Consistent (D : Driver Reg) (w : World Reg) : Prop where
  minors : ∀ m, w.minors m = true ↔ ∃ p x, w.Entry p x ∧ x.devt.minor = m
  nodes : ∀ v, w.nodes v = true ↔ ∃ p x, w.Entry p x ∧ x.devt = v
  regions : ∀ d, w.regions d = true ↔ ∃ p x, w.Entry p x ∧ w.drvdata d = some p
  alloc : ∀ p ∈ w.deviceList, ∃ x, w.heap p = some x
  owner : ∀ p x, w.Entry p x → ∃ d, w.drvdata d = some p ∧ ∀ e, w.drvdata e = some p → e = d
  distinct : ∀ p q x y, w.Entry p x → w.Entry q y → x.devt.minor = y.devt.minor → p = q
  lt : ∀ p x, w.Entry p x → x.devt.minor < D.nMinors

/-- The part of `Consistent` that `Wf` does not have. -/
structure Synced (w : World Reg) : Prop where
  bit : ∀ p x, w.Entry p x → w.minors x.devt.minor = true
  entry : ∀ m, w.minors m = true → ∃ p x, w.Entry p x ∧ x.devt.minor = m
  nodes : ∀ v, w.nodes v = true ↔ ∃ p x, w.Entry p x ∧ x.devt = v
  regions : ∀ d, w.regions d = true ↔ ∃ p, w.drvdata d = some p
  owner : ∀ p x, w.Entry p x → ∃ d, w.drvdata d = some p

theorem Wf.consistent (hw : w.Wf D) (hs : w.Synced) : w.Consistent D where
  minors m := ⟨hs.entry m, fun ⟨p, x, hx, hm⟩ => hm ▸ hs.bit p x hx⟩
  nodes := hs.nodes
  regions d := by
    refine (hs.regions d).trans ⟨fun ⟨p, hd⟩ => ?_, fun ⟨p, x, _, hd⟩ => ⟨p, hd⟩⟩
    obtain ⟨x, hx, -⟩ := hw.bound d p hd
    exact ⟨p, x, hx, hd⟩
  alloc := hw.alloc
  owner p x hx := by
    obtain ⟨d, hd⟩ := hs.owner p x hx
    exact ⟨d, hd, fun e he => hw.bound_inj e d p he hd⟩
  distinct p q x y hx hy := hw.eq_of_minor hx hy
  lt p x hx := (hw.devt p x hx).2

namespace Synced

theorem initial (major : ℕ) : (World.initial major : World Reg).Synced := by
  constructor <;> simp [World.initial, Entry]

theorem keeps (hw : w.Wf D) (hs : w.Synced) {w' : World Reg} (h : w.Keeps w') : w'.Synced where
  bit p y hy := by
    obtain ⟨x, hx, b, rfl⟩ := h.entry_back hw hy
    exact h.minors ▸ hs.bit p x hx
  entry m hm := by
    obtain ⟨p, x, hx, rfl⟩ := hs.entry m (h.minors ▸ hm)
    obtain ⟨b, hb⟩ := h.entry hx
    exact ⟨p, _, hb, rfl⟩
  nodes v := by
    rw [h.nodes, hs.nodes v]
    constructor
    · rintro ⟨p, x, hx, rfl⟩
      obtain ⟨b, hb⟩ := h.entry hx
      exact ⟨p, _, hb, rfl⟩
    · rintro ⟨p, y, hy, rfl⟩
      obtain ⟨x, hx, b, rfl⟩ := h.entry_back hw hy
      exact ⟨p, x, hx, rfl⟩
  regions d := by rw [h.regions, h.drvdata]; exact hs.regions d
  owner p y hy := by
    obtain ⟨x, hx, -⟩ := h.entry_back hw hy
    rw [h.drvdata]
    exact hs.owner p x hx

theorem registered (hw : w.Wf D) (hs : w.Synced) {d : PlatDev} {p : Ptr} {m : Option MapId}
    (hd : w.drvdata d = none) (hp : w.heap p = none) : (w.registered D d p m).Synced := by
  have hadd : ∀ {q y}, (w.registered D d p m).Entry q y ↔ (q = p ∧ y = w.newData D d m) ∨ w.Entry q y :=
    entry_add rfl rfl (hw.not_mem hp)
  refine ⟨?_, ?_, ?_, ?_, ?_⟩
  · intro q y hy
    rcases hadd.1 hy with ⟨-, rfl⟩ | hy
    · simp [World.registered, newData]
    · by_cases hq : y.devt.minor = (w.nextDevt D).minor
      · simp [World.registered, hq]
      · simpa [World.registered, hq] using hs.bit q y hy
  · intro i hi
    by_cases hi' : i = (w.nextDevt D).minor
    · exact ⟨p, _, hadd.2 (.inl ⟨rfl, rfl⟩), hi'.symm⟩
    · obtain ⟨q, y, hy, hv⟩ := hs.entry i (by simpa [World.registered, hi'] using hi)
      exact ⟨q, y, hadd.2 (.inr hy), hv⟩
  · intro v
    by_cases hv : v = w.nextDevt D
    · subst hv
      exact ⟨fun _ => ⟨p, _, hadd.2 (.inl ⟨rfl, rfl⟩), rfl⟩, fun _ => by simp [World.registered]⟩
    · have hnode : (w.registered D d p m).nodes v = w.nodes v := by simp [World.registered, hv]
      rw [hnode, hs.nodes v]
      constructor
      · rintro ⟨q, y, hy, h⟩
        exact ⟨q, y, hadd.2 (.inr hy), h⟩
      · rintro ⟨q, y, hy, h⟩
        rcases hadd.1 hy with ⟨-, rfl⟩ | hy
        · exact absurd h.symm hv
        · exact ⟨q, y, hy, h⟩
  · intro e
    by_cases he : e = d
    · simp [World.registered, he]
    · simpa [World.registered, he] using hs.regions e
  · intro q y hy
    rcases hadd.1 hy with ⟨rfl, -⟩ | hy
    · exact ⟨d, by simp [World.registered]⟩
    · obtain ⟨e, he⟩ := hs.owner q y hy
      have hed : e ≠ d := by
        rintro rfl
        rw [hd] at he
        cases he
      exact ⟨e, by simpa [World.registered, hed] using he⟩

theorem unregistered (hw : w.Wf D) (hs : w.Synced) {d : PlatDev} {p : Ptr} {x : DevData Reg}
    (hd : w.drvdata d = some p) (hx : w.Entry p x) (hbase : x.baseRegister ≠ 0) :
    (w.unregistered D d p x).Synced := by
  have hrem : ∀ {q y}, (w.unregistered D d p x).Entry q y ↔ q ≠ p ∧ w.Entry q y := entry_unregistered hw
  have hsame : ∀ {y}, w.Entry p y → y = x := fun hy => Option.some.inj (hy.2.symm.trans hx.2)
  have hne : ∀ q y, w.Entry q y → (q ≠ p ↔ y.devt.minor ≠ x.devt.minor) := by
    intro q y hy
    constructor
    · intro hq h
      exact hq (hw.eq_of_minor hy hx h)
    · rintro h rfl
      exact h (by rw [hsame hy])
  refine ⟨?_, ?_, ?_, ?_, ?_⟩
  · intro q y hy
    obtain ⟨hq, hy⟩ := hrem.1 hy
    simpa [World.unregistered, (hne q y hy).1 hq] using hs.bit q y hy
  · intro i hi
    by_cases hi' : i = x.devt.minor
    · simp [World.unregistered, hi'] at hi
    · obtain ⟨q, y, hy, rfl⟩ := hs.entry i (by simpa [World.unregistered, hi'] using hi)
      exact ⟨q, y, hrem.2 ⟨(hne q y hy).2 hi', hy⟩, rfl⟩
  · intro v
    by_cases hv : v = x.devt
    · subst hv
      constructor
      · intro h
        simp [World.unregistered] at h
      · rintro ⟨q, y, hy, h⟩
        obtain ⟨hq, hy⟩ := hrem.1 hy
        exact absurd (by rw [h]) ((hne q y hy).1 hq)
    · have hnode : (w.unregistered D d p x).nodes v = w.nodes v := by simp [World.unregistered, hv]
      rw [hnode, hs.nodes v]
      constructor
      · rintro ⟨q, y, hy, h⟩
        refine ⟨q, y, hrem.2 ⟨?_, hy⟩, h⟩
        rintro rfl
        exact hv (by rw [← h, hsame hy])
      · rintro ⟨q, y, hy, h⟩
        exact ⟨q, y, (hrem.1 hy).2, h⟩
  · intro e
    by_cases he : e = d
    · simp [World.unregistered, he, hbase]
    · simpa [World.unregistered, he, hbase] using hs.regions e
  · intro q y hy
    obtain ⟨hq, hy⟩ := hrem.1 hy
    obtain ⟨e, he⟩ := hs.owner q y hy
    have hed : e ≠ d := by
      rintro rfl
      exact hq (Option.some.inj (he.symm.trans hd))
    exact ⟨e, by simpa [World.unregistered, hed] using he⟩

theorem call (hw : w.Wf D) (hs : w.Synced) {c : Call} (hc : w.Issues c) (hg : c.Granted D w) :
    (w.call D c).1.Synced := by
  rcases call_cases hw hc with ⟨hkeep, -⟩ | ⟨d, o, p, rfl, -, -, hreq, hr, -⟩ |
    ⟨d, o, p, rfl, hd, hp, -, -, -, h⟩ | ⟨d, p, x, rfl, hd, hx, hold, -, h⟩
  · exact hs.keeps hw hkeep
  · exact absurd (hg hreq) (by simp [hr])
  · rw [h]; exact hs.registered hw hd hp
  · rw [h]; exact hs.unregistered hw hd hx (by rw [hold.baseRegister]; exact hg)

end Synced

/-- In a consistent world with a free lock, exactly the calls that are not granted break it. -/
theorem call_consistent (hw : w.Wf D) (hs : w.Synced) (hlock : w.deviceListLock = false) {c : Call}
    (hc : w.Issues c) : (w.call D c).1.Consistent D ↔ c.Granted D w := by
  refine ⟨fun h => ?_, fun hg => (hw.call hc).consistent (hs.call hw hc hg)⟩
  cases c with
  | probe d o =>
    rintro hreq
    by_contra hr
    rcases probe_cases D w d o with ⟨hko, -⟩ | ⟨p, hko, ⟨h', -⟩ | ⟨-, hno, -⟩ | ⟨-, -, -, h'⟩ | ⟨-, -, hr', -⟩⟩
    · simp [Requests, hko] at hreq
    · simp [hlock] at h'
    · exact hno hreq
    · rw [World.call, h'] at h
      have hentry : (w.refused D p).Entry p { DevData.zero with devt := w.nextDevt D } :=
        (entry_add rfl rfl (hw.not_mem (hc.2.1 p hko))).2 (.inl ⟨rfl, rfl⟩)
      have hbit := (h.minors _).2 ⟨p, _, hentry, rfl⟩
      simp [refused] at hbit
    · exact hr hr'
  | remove d =>
    rintro hbase
    obtain ⟨p, hd⟩ := Option.ne_none_iff_exists'.1 hc
    obtain ⟨x, hx, hold⟩ := hw.bound d p hd
    rcases remove_cases D w d hd hx.2 with ⟨h', -⟩ | ⟨-, h'⟩
    · simp [hlock] at h'
    · rw [World.call, h'] at h
      have hzero : x.baseRegister = 0 := hold.baseRegister.trans hbase
      have hheld : w.regions d = true := (hs.regions d).2 ⟨p, hd⟩
      have hreg := (h.regions d).1 (by simp [World.unregistered, hzero, hheld])
      simp [World.unregistered] at hreg
  | _ => trivial

/-- A `probe` that returns an error has changed nothing, unless it was refused its region. -/
theorem probe_error {d : PlatDev} {o : Services} {e : ℤ} (hc : w.Issues (.probe d o))
    (he : e ≠ 0) (h : (w.probe D d o).2 = .returns e) :
    (w.probe D d o).1 = w ↔ (Call.probe d o).Granted D w := by
  rcases probe_cases D w d o with ⟨hko, hp⟩ | ⟨p, hko, ⟨-, hp⟩ | ⟨hlock, hno, e', -, hp⟩ |
    ⟨hlock, hreq, hr, hp⟩ | ⟨-, -, hr, hp⟩⟩ <;> rw [hp] at h ⊢
  · exact ⟨fun _ hreq => by simp [Requests, hko] at hreq, fun _ => rfl⟩
  · cases h
  · refine ⟨fun _ hreq => absurd hreq hno, fun _ => ?_⟩
    have hfree : update w.heap p none = w.heap := by rw [← hc.2.1 p hko, update_eq_self]
    simp only [unlockList, kfree, hfree, ← hlock]
  · refine ⟨fun hw' => ?_, fun hg => absurd (hg hreq) (by simp [hr])⟩
    have hlist : p :: w.deviceList = w.deviceList := congrArg World.deviceList hw'
    exact absurd hlist (List.cons_ne_self _ _)
  · exact absurd (Outcome.returns.inj h).symm he

/-- In a run of granted calls the registry is consistent and a failed `probe` is rolled back; with the
list lock free, any other call breaks it. -/
theorem registry_consistent (D : Driver Reg) (w : World Reg)
    (h : Lts.Reach (drive D) (fun w c => c.Granted D w) w) :
    w.Consistent D ∧
    (∀ d o e, w.Issues (.probe d o) → e ≠ 0 → (w.probe D d o).2 = .returns e →
      ((w.probe D d o).1 = w ↔ (Call.probe d o).Granted D w)) ∧
    (w.deviceListLock = false → ∀ c, w.Issues c →
      ((w.call D c).1.Consistent D ↔ c.Granted D w)) := by
  have hw : w.Wf D := .of_reach h
  have hs : w.Synced := by
    refine h.invariant_of (I := Wf D) (J := Synced) (fun _ => Wf.of_reach) ?_ ?_
    · rintro _ ⟨major, rfl⟩
      exact .initial major
    · intro w c hw hs hc hg
      exact hs.call hw hc hg
  exact ⟨hw.consistent hs, fun d o e hc he => probe_error hc he,
    fun hlock c hc => call_consistent hw hs hlock hc⟩

theorem registry_consistent_second :
    let w := (drive encoder).run (.initial 242) [.probe ⟨0, 0x43C20000⟩ ⟨some 1, 0, true, some 7⟩,
      .probe ⟨1, 0x43C30000⟩ ⟨some 2, 0, true, none⟩, .remove ⟨0, 0x43C20000⟩]
    w.Consistent encoder ∧
    (∀ d o e, w.Issues (.probe d o) → e ≠ 0 → (w.probe encoder d o).2 = .returns e →
      ((w.probe encoder d o).1 = w ↔ (Call.probe d o).Granted encoder w)) ∧
    (w.deviceListLock = false → ∀ c, w.Issues c →
      ((w.call encoder c).1.Consistent encoder ↔ c.Granted encoder w)) :=
  registry_consistent encoder _ (.run _ (.init ⟨242, rfl⟩) (by decide))

/-- A refused `probe` leaves its entry on the list, without bit, node and device. -/
theorem registry_inconsistent :
    ¬ (∀ w, Lts.Reach (drive pid) (fun _ _ => True) w → w.Consistent pid) ∧
    ¬ (∀ w, Lts.Reach (drive pwm) (fun _ _ => True) w → w.Consistent pwm) ∧
    ¬ ∀ w, Lts.Reach (drive encoder) (fun _ _ => True) w → w.Consistent encoder := by
  refine ⟨fun h => ?_, fun h => ?_, fun h => ?_⟩
  · have hc := h _ (.run [.probe ⟨0, 0x43C00000⟩ ⟨some 1, 0, false, none⟩] (.init ⟨240, rfl⟩) (by decide))
    exact absurd ((hc.minors 0).2 ⟨1, _, ⟨by decide, rfl⟩, rfl⟩) (by decide)
  · have hc := h _ (.run [.probe ⟨0, 0x43C10000⟩ ⟨some 1, 0, false, none⟩] (.init ⟨241, rfl⟩) (by decide))
    exact absurd ((hc.nodes ⟨241, 0⟩).2 ⟨1, _, ⟨by decide, rfl⟩, rfl⟩) (by decide)
  · have hc := h _ (.run [.probe ⟨0, 0x43C20000⟩ ⟨some 1, 0, false, none⟩] (.init ⟨242, rfl⟩) (by decide))
    obtain ⟨d, hd, -⟩ := hc.owner 1 _ ⟨by decide, rfl⟩
    cases hd

end World

end Dcs
