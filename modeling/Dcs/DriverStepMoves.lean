import Dcs.DriverStepInv

/-!
# The invariant, step by step

One lemma for each step of `probe` and `remove`: a step that keeps the pointer is one of `Moves`, and
the steps that begin or end a `probe` or a `remove` keep the invariant themselves.
-/

namespace Dcs
open Function

namespace Steps
variable {Reg : Type} {D : Driver Reg} {w : World Reg} {s : Steps Reg}

section
variable {d : PlatDev} {p : Ptr} {x : DevData Reg}

theorem Inv.stay {l : Label} (h : s.Inv D) (hd : s.pc d = .at l p) (hx : s.world.heap p = some x)
    (hown : Own D s.world d l p x) : Moves D s d l p x s.world l x where
  own := hown
  heap := by rw [← hx, update_eq_self]
  lock := .inl ⟨rfl, by rw [hd]⟩
  major := rfl
  devt hl e l'' q y hed he hy hl'' hv := hed (h.devt e d l'' l q p y x he hd hy hx hl'' hl hv.symm)
  minors m hm := .inl hm
  nodup := h.nodup
  mem _ _ := Iff.rfl
  enter hl := .inl ⟨hl, rfl⟩
  mapped := .inl rfl
  drvdata _ _ := rfl
  node v hv := by
    by_cases hn : l.hasNode = true ∧ x.devt = v
    · exact .inl hn
    · exact .inr ⟨hv, hn⟩

theorem moves_lock (h : s.Inv D) (hd : s.pc d = .at .kzalloced p) (hx : s.world.heap p = some x)
    (hown : Own D s.world d .kzalloced p x) (hfree : s.world.deviceListLock = false) :
    Moves D s d .kzalloced p x s.world.lockList .locked x :=
  { h.stay hd hx hown with
    own := { hown with minor := nofun, drvdata := nofun }
    lock := .inr (.inl ⟨hfree, rfl⟩) }

theorem moves_unlockFailed (h : s.Inv D) (hd : s.pc d = .at .createFailed p) (hx : s.world.heap p = some x)
    (hown : Own D s.world d .createFailed p x) :
    Moves D s d .createFailed p x s.world.unlockList .unlockedFailed x :=
  { h.stay hd hx hown with
    own := { hown with minor := nofun, drvdata := nofun }
    lock := .inr (.inr ⟨by rw [hd]; rfl, rfl⟩) }

theorem moves_setBit {m : ℕ} (h : s.Inv D) (hd : s.pc d = .at (.created m) p) (hx : s.world.heap p = some x)
    (hown : Own D s.world d (.created m) p x) :
    Moves D s d (.created m) p x (s.world.setBit m) .bitSet x :=
  { h.stay hd hx hown with
    own := { hown with
      minor := nofun
      bit := fun _ => by simp [World.setBit, hown.minor m rfl]
      drvdata := nofun }
    minors := fun i hi => by
      by_cases him : i = m
      · simp [World.setBit, him] at hi
      · exact .inl (by simpa [World.setBit, him] using hi) }

theorem moves_listAdd (h : s.Inv D) (hd : s.pc d = .at .bitSet p) (hx : s.world.heap p = some x)
    (hown : Own D s.world d .bitSet p x) :
    Moves D s d .bitSet p x (s.world.listAdd p) .listed x :=
  have hp : p ∉ s.world.deviceList := fun hp => by cases hown.listed.1 hp
  { h.stay hd hx hown with
    own := { hown with
      minor := nofun
      listed := by simp [World.listAdd, Label.isListed]
      drvdata := nofun }
    nodup := List.nodup_cons.2 ⟨hp, h.nodup⟩
    mem := fun q hq => by simp [World.listAdd, hq]
    enter := fun _ => .inr rfl }

theorem modify_heap {f : DevData Reg → DevData Reg} (hx : w.heap p = some x) :
    (w.modify p f).heap = update w.heap p (some (f x)) := by
  simp [World.modify, hx]

theorem moves_create (h : s.Inv D) (hd : s.pc d = .at .locked p) (hx : s.world.heap p = some x)
    (hown : Own D s.world d .locked p x)
    (hm : s.world.findFirstZeroBit D.nMinors < D.nMinors) :
    Moves D s d .locked p x
      ((s.world.modify p fun x => { x with devt := s.world.nextDevt D }).deviceCreate (s.world.nextDevt D))
      (.created (s.world.findFirstZeroBit D.nMinors)) { x with devt := s.world.nextDevt D } :=
  { h.stay hd hx hown with
    own := { hown with
      major := fun _ => rfl
      minor := fun m hm => Label.created.inj hm
      bit := nofun
      drvdata := nofun }
    enter := nofun
    heap := modify_heap hx
    devt := fun _ e l q y hed he hy hl hv => by
      -- the bit of the new number is clear, those of the other devices are set
      have hlock : l.hasLock = false := by
        by_contra hlk
        rw [Bool.not_eq_false] at hlk
        exact hed (h.exclusive e d (by rw [he]; exact hlk) (by rw [hd]; rfl))
      have hset : s.world.minors y.devt.minor = true := (h.own_at he hy).bit (hasBit_of_not_hasLock hl hlock)
      rw [← hv] at hset
      exact absurd hset (by simp [World.nextDevt, World.minors_findFirstZeroBit hm])
    node := fun v hv => by
      by_cases hvn : v = s.world.nextDevt D
      · exact .inl ⟨rfl, hvn.symm⟩
      · exact .inr ⟨by simpa [World.deviceCreate, World.modify, hvn] using hv, fun hl => by cases hl.1⟩ }

theorem moves_createFailed {f : DevData Reg → DevData Reg} (h : s.Inv D) (hd : s.pc d = .at .locked p)
    (hx : s.world.heap p = some x) (hown : Own D s.world d .locked p x) (hf : ∀ x, (f x).address = x.address) :
    Moves D s d .locked p x (s.world.modify p f) .createFailed (f x) :=
  { h.stay hd hx hown with
    own := { hown with
      major := nofun
      minor := nofun
      bit := nofun
      unset := fun _ r => by rw [hf, hown.unset rfl]
      address := fun hl => absurd rfl hl
      mapped := nofun
      gone := nofun
      drvdata := nofun }
    heap := modify_heap hx
    devt := nofun
    enter := nofun
    node := fun v hv => .inr ⟨hv, fun hl => by cases hl.1⟩ }

theorem moves_refused (h : s.Inv D) (hd : s.pc d = .at .listed p) (hx : s.world.heap p = some x)
    (hown : Own D s.world d .listed p x) : Moves D s d .listed p x s.world .refused x :=
  { h.stay hd hx hown with own := { hown with minor := nofun, drvdata := nofun } }

theorem moves_requested {b : ℕ} (h : s.Inv D) (hd : s.pc d = .at .listed p) (hx : s.world.heap p = some x)
    (hown : Own D s.world d .listed p x) :
    Moves D s d .listed p x ((s.world.holdRegion d).modify p fun x => { x with baseRegister := b }) .requested
      { x with baseRegister := b } :=
  { h.stay hd hx hown with
    own := { hown with minor := nofun, drvdata := nofun }
    heap := modify_heap hx }

theorem moves_destroyRefused (h : s.Inv D) (hd : s.pc d = .at .refused p) (hx : s.world.heap p = some x)
    (hown : Own D s.world d .refused p x) :
    Moves D s d .refused p x (s.world.deviceDestroy x.devt) .refusedDestroyed x :=
  { h.stay hd hx hown with
    own := { hown with minor := nofun, drvdata := nofun }
    node := fun v hv => by
      by_cases hvx : v = x.devt
      · simp [World.deviceDestroy, hvx] at hv
      · exact .inr ⟨by simpa [World.deviceDestroy, hvx] using hv, fun hl => hvx hl.2.symm⟩ }

theorem moves_mapped {m : Option MapId} (h : s.Inv D) (hd : s.pc d = .at .requested p)
    (hx : s.world.heap p = some x) (hown : Own D s.world d .requested p x)
    (hm : ∀ i ∈ m, s.world.mapped i = none) :
    Moves D s d .requested p x ((s.world.ofIomap d m).modify p (World.mapRegisters D m)) .mapped
      (World.mapRegisters D m x) :=
  { h.stay hd hx hown with
    own := { hown with
      minor := nofun
      unset := nofun
      address := fun _ r => by simp [World.mapRegisters, IoAddr.add]
      mapped := fun _ i hi => by
        obtain rfl : m = some i := hi
        simp [World.modify, World.ofIomap]
      gone := nofun
      drvdata := nofun }
    heap := modify_heap (w := s.world.ofIomap d m) hx
    mapped := .inr ⟨rfl, fun e i _ hi => by
      cases m with
      | none => exact hi
      | some j =>
        have hij : i ≠ j := by rintro rfl; rw [hm i rfl] at hi; cases hi
        simpa [World.modify, World.ofIomap, hij] using hi⟩ }

theorem moves_unlock (h : s.Inv D) (hd : s.pc d = .at .mapped p) (hx : s.world.heap p = some x)
    (hown : Own D s.world d .mapped p x) : Moves D s d .mapped p x s.world.unlockList .unlocked x :=
  { h.stay hd hx hown with
    own := { hown with minor := nofun, drvdata := nofun }
    lock := .inr (.inr ⟨by rw [hd]; rfl, rfl⟩) }

theorem moves_bound (h : s.Inv D) (hd : s.pc d = .at .unlocked p) (hx : s.world.heap p = some x)
    (hown : Own D s.world d .unlocked p x) :
    Moves D s d .unlocked p x (s.world.setDrvdata d (some p)) .bound x :=
  { h.stay hd hx hown with
    own := { hown with minor := nofun, drvdata := fun _ => by simp [World.setDrvdata] }
    drvdata := fun e hed => by simp [World.setDrvdata, hed] }

theorem moves_removing (h : s.Inv D) (hd : s.pc d = .at .bound p) (hx : s.world.heap p = some x)
    (hown : Own D s.world d .bound p x) (hfree : s.world.deviceListLock = false) :
    Moves D s d .bound p x s.world.lockList .removing x :=
  { h.stay hd hx hown with
    own := { hown with minor := nofun, drvdata := nofun }
    lock := .inr (.inl ⟨hfree, rfl⟩) }

theorem moves_iounmap (h : s.Inv D) (hd : s.pc d = .at .removing p) (hx : s.world.heap p = some x)
    (hown : Own D s.world d .removing p x) :
    Moves D s d .removing p x (s.world.iounmap (x.address D.base)) .iounmapped x :=
  { h.stay hd hx hown with
    own := { hown with
      minor := nofun
      unset := nofun
      address := fun _ => hown.address (by decide)
      mapped := nofun
      gone := fun _ m hm => by simp [World.iounmap, hm]
      drvdata := nofun }
    mapped := .inr ⟨rfl, fun e m hed hm => by
      cases hi : (x.address D.base).range with
      | none => simpa [World.iounmap, hi] using hm
      | some i =>
        have hmi : m ≠ i := by
          rintro rfl
          exact hed (Option.some.inj (hm.symm.trans (hown.mapped rfl m hi)))
        simpa [World.iounmap, hi, hmi] using hm⟩ }

theorem moves_listDel (h : s.Inv D) (hd : s.pc d = .at .iounmapped p) (hx : s.world.heap p = some x)
    (hown : Own D s.world d .iounmapped p x) :
    Moves D s d .iounmapped p x (s.world.listDel p) .unlisted x :=
  { h.stay hd hx hown with
    own := { hown with
      minor := nofun
      listed := by simp [World.listDel, h.nodup.mem_erase_iff, Label.isListed]
      drvdata := nofun }
    nodup := h.nodup.erase p
    mem := fun q hq => by simp [World.listDel, h.nodup.mem_erase_iff, hq]
    enter := nofun }

theorem moves_destroy (h : s.Inv D) (hd : s.pc d = .at .unlisted p) (hx : s.world.heap p = some x)
    (hown : Own D s.world d .unlisted p x) :
    Moves D s d .unlisted p x (s.world.deviceDestroy x.devt) .destroyed x :=
  { h.stay hd hx hown with
    own := { hown with minor := nofun, drvdata := nofun }
    node := fun v hv => by
      by_cases hvx : v = x.devt
      · simp [World.deviceDestroy, hvx] at hv
      · exact .inr ⟨by simpa [World.deviceDestroy, hvx] using hv, fun hl => hvx hl.2.symm⟩ }

theorem moves_clearBit (h : s.Inv D) (hd : s.pc d = .at .destroyed p) (hx : s.world.heap p = some x)
    (hown : Own D s.world d .destroyed p x) :
    Moves D s d .destroyed p x (s.world.clearBit x.devt.minor) .bitCleared x :=
  { h.stay hd hx hown with
    own := { hown with minor := nofun, bit := nofun, drvdata := nofun }
    minors := fun m hm => by
      by_cases hmx : m = x.devt.minor
      · exact .inr ⟨rfl, hmx⟩
      · exact .inl (by simpa [World.clearBit, hmx] using hm) }

theorem moves_release (h : s.Inv D) (hd : s.pc d = .at .bitCleared p) (hx : s.world.heap p = some x)
    (hown : Own D s.world d .bitCleared p x) :
    Moves D s d .bitCleared p x (if x.baseRegister ≠ 0 then s.world.releaseMemRegion d else s.world)
      .released x := by
  split <;> exact { h.stay hd hx hown with own := { hown with minor := nofun, drvdata := nofun } }

end

/-! ### Steps that begin or end a `probe` or a `remove` -/

section
variable {d : PlatDev} {p : Ptr} {x : DevData Reg}

theorem Inv.start (h : s.Inv D) (hd : s.pc d = .idle) (hp : s.world.heap p = none) :
    Inv D ⟨s.world.kzalloc p, update s.pc d (.at .kzalloced p)⟩ := by
  have hlock : LockStep s d (.at .kzalloced p) (s.world.kzalloc p) := .inl ⟨rfl, by rw [hd]; rfl⟩
  have hne : ∀ {q y}, s.world.heap q = some y → q ≠ p := by
    rintro q y hy rfl
    rw [hp] at hy
    cases hy
  have hheap : ∀ {q}, q ≠ p → (s.world.kzalloc p).heap q = s.world.heap q := by
    intro q hqp
    simp [World.kzalloc, hqp]
  have hnew : ∀ {e l q}, update s.pc d (.at .kzalloced p) e = .at l q →
      e = d ∧ l = .kzalloced ∧ q = p ∨ q ≠ p ∧ s.pc e = .at l q := by
    intro e l q he
    rcases at_of_update he with ⟨hed, hat⟩ | ⟨-, hat⟩
    · obtain ⟨rfl, rfl⟩ := Pc.at.inj hat
      exact .inl ⟨hed, rfl, rfl⟩
    · obtain ⟨y, hy, -⟩ := h.own e l q hat
      exact .inr ⟨hne hy, hat⟩
  have hold : ∀ {e l q}, s.pc e = .at l q → update s.pc d (.at .kzalloced p) e = .at l q := by
    intro e l q he
    have hed : e ≠ d := by
      rintro rfl
      rw [hd] at he
      cases he
    rwa [update_of_ne hed]
  have hmem : ∀ {q}, q ∈ s.world.deviceList → q ≠ p := by
    intro q hq
    obtain ⟨y, hy, -⟩ := h.entry q hq
    exact hne hy
  refine ⟨h.nodup, ?_, ?_, hlock.lock h, hlock.exclusive h, ?_, ?_, ?_, ?_⟩
  · intro e l q he
    rcases hnew he with ⟨rfl, rfl, rfl⟩ | ⟨-, he⟩
    · refine ⟨.zero, by simp [World.kzalloc], ?_, ?_, ?_, ?_, fun _ _ => rfl, fun hl => absurd rfl hl, ?_, ?_, ?_⟩
      · intro hl; cases hl
      · intro m hl; cases hl
      · intro hl; cases hl
      · exact iff_of_false (fun hq => hmem hq rfl) (by decide)
      · intro hl; cases hl
      · intro hl; cases hl
      · intro hl; cases hl
    · obtain ⟨y, hy, hown⟩ := h.own e l q he
      exact ⟨y, (hheap (hne hy)).trans hy, { hown with }⟩
  · intro e e' l l' q he he'
    rcases hnew he with ⟨hed, -, hqp⟩ | ⟨hqp, he⟩ <;> rcases hnew he' with ⟨hed', -, hqp'⟩ | ⟨hqp', he'⟩
    · rw [hed, hed']
    · exact absurd hqp hqp'
    · exact absurd hqp' hqp
    · exact h.inj e e' l l' q he he'
  · intro e e' l l' q q' y y' he he' hy hy' hl hl'
    rcases hnew he with ⟨-, rfl, -⟩ | ⟨hqp, he⟩
    · cases hl
    rcases hnew he' with ⟨-, rfl, -⟩ | ⟨hqp', he'⟩
    · cases hl'
    rw [hheap hqp] at hy
    rw [hheap hqp'] at hy'
    exact h.devt e e' l l' q q' y y' he he' hy hy' hl hl'
  · intro v hv
    obtain ⟨e, l, q, y, he, hl, hy, hyv⟩ := h.node v hv
    exact ⟨e, l, q, y, hold he, hl, (hheap (hne hy)).trans hy, hyv⟩
  · intro q hq
    obtain ⟨y, hy, ⟨e, l, he⟩ | horph⟩ := h.entry q hq
    · exact ⟨y, (hheap (hne hy)).trans hy, .inl ⟨e, l, hold he⟩⟩
    · exact ⟨y, (hheap (hne hy)).trans hy, .inr (hlock.orphan horph)⟩
  · intro q hq q' hq' y y' hy hy'
    rw [hheap (hmem hq)] at hy
    rw [hheap (hmem hq')] at hy'
    exact h.distinct q hq q' hq' y y' hy hy'

/-- `d` comes to a place without a pointer. Its structure has no node by now, and it is on the list only
as what a refused `probe` leaves there. -/
theorem Inv.retire {k : Pc} {w' : World Reg} (h : s.Inv D) (hk : ∀ l q, k ≠ .at l q) (hlock : LockStep s d k w')
    (hlist : w'.deviceList = s.world.deviceList) (hnodes : w'.nodes = s.world.nodes)
    (hnode : ∀ l p, s.pc d = .at l p → l.hasNode = false)
    (hheap : ∀ q, (∀ l, s.pc d ≠ .at l q) → w'.heap q = s.world.heap q)
    (hown : ∀ e l q y, e ≠ d → s.pc e = .at l q → s.world.heap q = some y → Own D s.world e l q y → Own D w' e l q y)
    (hleft : ∀ l p x, s.pc d = .at l p → p ∈ s.world.deviceList → s.world.heap p = some x →
      w'.heap p = some x ∧ Orphan (⟨w', update s.pc d k⟩ : Steps Reg) x) :
    Inv D ⟨w', update s.pc d k⟩ := by
  have hold : ∀ {e l q}, update s.pc d k e = .at l q → e ≠ d ∧ s.pc e = .at l q := by
    intro e l q he
    exact (at_of_update he).resolve_left fun hd => hk l q hd.2
  have hother : ∀ {e l q}, e ≠ d → s.pc e = .at l q → w'.heap q = s.world.heap q := by
    intro e l q hed he
    exact hheap q fun l' hd => hed (h.inj e d l l' q he hd)
  have hentry : ∀ q ∈ s.world.deviceList, ∀ y, w'.heap q = some y → s.world.heap q = some y := by
    intro q hq y hy
    by_cases hd : ∃ l, s.pc d = .at l q
    · obtain ⟨l, hd⟩ := hd
      obtain ⟨x, hx, -⟩ := h.own d l q hd
      rwa [← hy, (hleft l q x hd hq hx).1]
    · rwa [← hheap q fun l hl => hd ⟨l, hl⟩]
  refine ⟨hlist ▸ h.nodup, ?_, ?_, hlock.lock h, hlock.exclusive h, ?_, ?_, ?_, ?_⟩
  · intro e l q he
    obtain ⟨hed, he⟩ := hold he
    obtain ⟨y, hy, hy'⟩ := h.own e l q he
    exact ⟨y, (hother hed he).trans hy, hown e l q y hed he hy hy'⟩
  · intro e e' l l' q he he'
    exact h.inj e e' l l' q (hold he).2 (hold he').2
  · intro e e' l l' q q' y y' he he' hy hy'
    obtain ⟨hed, he⟩ := hold he
    obtain ⟨hed', he'⟩ := hold he'
    exact h.devt e e' l l' q q' y y' he he' ((hother hed he).symm.trans hy) ((hother hed' he').symm.trans hy')
  · intro v hv
    rw [hnodes] at hv
    obtain ⟨e, l, q, y, he, hl, hy, hyv⟩ := h.node v hv
    have hed : e ≠ d := by
      rintro rfl
      simp [hnode l q he] at hl
    exact ⟨e, l, q, y, by simp [hed, he], hl, (hother hed he).trans hy, hyv⟩
  · intro q hq
    rw [hlist] at hq
    obtain ⟨y, hy, howner⟩ := h.entry q hq
    by_cases hd : ∃ l, s.pc d = .at l q
    · obtain ⟨l, hd⟩ := hd
      obtain ⟨hy', horph⟩ := hleft l q y hd hq hy
      exact ⟨y, hy', .inr horph⟩
    · refine ⟨y, (hheap q fun l hl => hd ⟨l, hl⟩).trans hy, ?_⟩
      rcases howner with ⟨e, l, he⟩ | horph
      · have hed : e ≠ d := by
          rintro rfl
          exact hd ⟨l, he⟩
        exact .inl ⟨e, l, by simp [hed, he]⟩
      · exact .inr (hlock.orphan horph)
  · intro q hq q' hq' y y' hy hy'
    rw [hlist] at hq hq'
    exact h.distinct q hq q' hq' y y' (hentry q hq y hy) (hentry q' hq' y' hy')

theorem Inv.drop {l : Label} {k : Pc} (h : s.Inv D) (hd : s.pc d = .at l p) (hlock : LockStep s d k (s.world.kfree p))
    (hk : ∀ l q, k ≠ .at l q) (hlist : l.isListed = false) (hnode : l.hasNode = false) :
    Inv D ⟨s.world.kfree p, update s.pc d k⟩ := by
  have heq : ∀ {l' q}, s.pc d = .at l' q → l' = l ∧ q = p := fun hd' => Pc.at.inj (hd'.symm.trans hd)
  refine h.retire hk hlock rfl rfl ?_ ?_ ?_ ?_
  · intro l' q hd'
    rwa [(heq hd').1]
  · intro q hq
    have hqp : q ≠ p := by
      rintro rfl
      exact hq l hd
    simp [World.kfree, hqp]
  · intro e l' q y _ _ _ hown
    exact { hown with }
  · intro l' q x hd' hq _
    obtain ⟨rfl, rfl⟩ := heq hd'
    obtain ⟨y, -, hown⟩ := h.own d l' q hd
    simp [hown.listed.1 hq] at hlist

/-- The last step of a refused `probe`: the entry stays, and so does the lock. -/
theorem Inv.leave (h : s.Inv D) (hd : s.pc d = .at .refusedDestroyed p) (hx : s.world.heap p = some x) :
    Inv D ⟨s.world.clearBit x.devt.minor, update s.pc d .idle⟩ := by
  have hlock : LockStep s d .idle (s.world.clearBit x.devt.minor) := .inr (.inr ⟨by rw [hd]; rfl, rfl⟩)
  refine h.retire nofun hlock rfl rfl ?_ (fun _ _ => rfl) ?_ ?_
  · intro l q hd'
    rw [(Pc.at.inj (hd'.symm.trans hd)).1]
    rfl
  · intro e l q y hed he hy hown
    refine hown.frame rfl ?_ Iff.rfl (fun _ => id) (fun _ _ => id) rfl
    intro hset hl
    have hne := h.minor_ne hed hd he hx hy rfl (hasDevt_of_hasBit hl)
    simpa [World.clearBit, hne] using hset
  · intro l q y hd' _ hy
    obtain ⟨rfl, rfl⟩ := Pc.at.inj (hd'.symm.trans hd)
    refine ⟨hy, h.lock d (by rw [hd]; rfl), ?_, (h.own_at hd hy).unset rfl⟩
    intro e
    by_contra he
    rw [Bool.not_eq_false] at he
    have hed : e ≠ d := by
      rintro rfl
      simp [Pc.hasLock] at he
    exact hed (h.exclusive e d (by simpa [hed] using he) (by rw [hd]; rfl))

theorem Inv.finish (h : s.Inv D) (hd : s.pc d = .freed) :
    Inv D ⟨s.world.unlockList.setDrvdata d none, update s.pc d .idle⟩ := by
  have hno : ∀ {l q}, s.pc d ≠ .at l q := by simp [hd]
  refine h.retire nofun (.inr (.inr ⟨by rw [hd]; rfl, rfl⟩)) rfl rfl (fun l q hd' => absurd hd' hno)
    (fun _ _ => rfl) ?_ (fun l q x hd' => absurd hd' hno)
  intro e l q y hed _ _ hown
  exact hown.frame rfl (fun hset _ => hset) Iff.rfl (fun _ => id) (fun _ _ => id)
    (by simp [World.setDrvdata, hed, World.unlockList])

end

theorem Inv.next (h : s.Inv D) {a : StepAct} (ha : s.Enabled a) : (s.next D a).Inv D := by
  cases a with
  | probe d o =>
    cases hko : o.kzalloc with
    | none => simpa only [Steps.next, hko] using h
    | some p =>
      simp only [Steps.next, hko]
      exact h.start ha.1 (ha.2 p hko)
  | remove d =>
    obtain ⟨hbound, hfree⟩ := ha
    cases hd : s.pc d with
    | idle => rw [hd] at hbound; cases hbound
    | freed => rw [hd] at hbound; cases hbound
    | «at» l p =>
      obtain rfl : l = .bound := by rw [hd] at hbound; exact Option.some.inj hbound
      obtain ⟨x, hx, hown⟩ := h.own d _ p hd
      simp only [Steps.next, hown.drvdata rfl]
      exact h.move hd hx (moves_removing h hd hx hown hfree)
  | advance d o =>
    obtain ⟨hfree, hm⟩ := ha
    cases hd : s.pc d with
    | idle => simpa only [Steps.next, hd] using h
    | freed =>
      simp only [Steps.next, hd]
      exact h.finish hd
    | «at» l p =>
      obtain ⟨x, hx, hown⟩ := h.own d l p hd
      simp only [Steps.next, hd, hx]
      cases l with
      | kzalloced => exact h.move hd hx (moves_lock h hd hx hown (hfree (by rw [hd]; rfl)))
      | locked =>
        rcases World.createNode_eq D s.world p o with ⟨hmin, -, hnode⟩ | ⟨-, f, hf, e, he, hnode⟩
        · simp only [step, hnode]
          exact h.move hd hx (moves_create h hd hx hown hmin)
        · simp only [step, hnode, he]
          exact h.move hd hx (moves_createFailed h hd hx hown hf)
      | createFailed => exact h.move hd hx (moves_unlockFailed h hd hx hown)
      | unlockedFailed => exact h.drop hd (.inl ⟨rfl, by rw [hd]; rfl⟩) nofun rfl rfl
      | created m => exact h.move hd hx (moves_setBit h hd hx hown)
      | bitSet => exact h.move hd hx (moves_listAdd h hd hx hown)
      | listed =>
        unfold step
        cases o.requestMemRegion with
        | false => exact h.move hd hx (moves_refused h hd hx hown)
        | true => exact h.move hd hx (moves_requested h hd hx hown)
      | refused => exact h.move hd hx (moves_destroyRefused h hd hx hown)
      | refusedDestroyed => exact h.leave hd hx
      | requested => exact h.move hd hx (moves_mapped h hd hx hown (hm (by rw [hd]; rfl)))
      | mapped => exact h.move hd hx (moves_unlock h hd hx hown)
      | unlocked => exact h.move hd hx (moves_bound h hd hx hown)
      | bound => exact h.move hd hx (h.stay hd hx hown)
      | removing => exact h.move hd hx (moves_iounmap h hd hx hown)
      | iounmapped => exact h.move hd hx (moves_listDel h hd hx hown)
      | unlisted => exact h.move hd hx (moves_destroy h hd hx hown)
      | destroyed => exact h.move hd hx (moves_clearBit h hd hx hown)
      | bitCleared => exact h.move hd hx (moves_release h hd hx hown)
      | released => exact h.drop hd (.inl ⟨rfl, by rw [hd]; rfl⟩) nofun rfl rfl

theorem Inv.of_reach {P : Steps Reg → StepAct → Prop} (h : Lts.Reach (stepwise D) P s) : s.Inv D := by
  refine h.invariant (I := Inv D) ?_ fun _ _ hs ha _ => hs.next ha
  rintro _ ⟨major, rfl⟩
  constructor <;> simp [World.initial, Pc.hasLock]

end Steps

end Dcs
