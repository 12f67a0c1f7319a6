import Dcs.DriverSteps

/-!
# The invariant of all interleavings

At most one device is between `mutex_lock` and `mutex_unlock`, and the structure of each device is as
far set up as its place says (`Steps.Own`). `Steps.Moves` is what a step may do that keeps the device's
pointer, and `Inv.move` says that such a step keeps the invariant.
-/

namespace Dcs
open Function

namespace Steps
variable {Reg : Type} {D : Driver Reg} {w : World Reg} {s : Steps Reg}

/-- The structure `x` at `p` of a device `d` that is at place `l`. -/
structure Own (D : Driver Reg) (w : World Reg) (d : PlatDev) (l : Label) (p : Ptr) (x : DevData Reg) :
    Prop where
  major : l.hasDevt = true → x.devt.major = w.major
  minor : ∀ m, l = .created m → x.devt.minor = m
  bit : l.hasBit = true → w.minors x.devt.minor = true
  listed : p ∈ w.deviceList ↔ l.isListed = true
  unset : l.io = .unset → ∀ r, x.address r = .null
  address : l.io ≠ .unset → ∀ r, x.address r = ⟨(x.address D.base).range, D.offset r⟩
  mapped : l.io = .set → ∀ m, (x.address D.base).range = some m → w.mapped m = some d
  gone : l.io = .gone → ∀ m, (x.address D.base).range = some m → w.mapped m = none
  drvdata : l = .bound → w.drvdata d = some p

/-- The entry that a refused `probe` leaves: nobody's, and nobody has the lock, which stays locked. -/
structure Orphan (s : Steps Reg) (x : DevData Reg) : Prop where
  lock : s.world.deviceListLock = true
  nobody : ∀ d, (s.pc d).hasLock = false
  address : ∀ r, x.address r = .null

structure Inv (D : Driver Reg) (s : Steps Reg) : Prop where
  nodup : s.world.deviceList.Nodup
  own : ∀ d l p, s.pc d = .at l p → ∃ x, s.world.heap p = some x ∧ Own D s.world d l p x
  inj : ∀ d e l l' p, s.pc d = .at l p → s.pc e = .at l' p → d = e
  lock : ∀ d, (s.pc d).hasLock = true → s.world.deviceListLock = true
  exclusive : ∀ d e, (s.pc d).hasLock = true → (s.pc e).hasLock = true → d = e
  devt : ∀ d e l l' p q x y, s.pc d = .at l p → s.pc e = .at l' q → s.world.heap p = some x →
    s.world.heap q = some y → l.hasDevt = true → l'.hasDevt = true → x.devt = y.devt → d = e
  node : ∀ v, s.world.nodes v = true → ∃ d l p x, s.pc d = .at l p ∧ l.hasNode = true ∧
    s.world.heap p = some x ∧ x.devt = v
  entry : ∀ p ∈ s.world.deviceList, ∃ x, s.world.heap p = some x ∧ ((∃ d l, s.pc d = .at l p) ∨ s.Orphan x)
  distinct : ∀ p ∈ s.world.deviceList, ∀ q ∈ s.world.deviceList, ∀ x y, s.world.heap p = some x →
    s.world.heap q = some y → x.devt = y.devt → p = q

theorem hasDevt_of_isListed {l : Label} (h : l.isListed = true) : l.hasDevt = true := by
  cases l <;> first | rfl | cases h

theorem hasDevt_of_hasNode {l : Label} (h : l.hasNode = true) : l.hasDevt = true := by
  cases l <;> first | rfl | cases h

theorem hasDevt_of_hasBit {l : Label} (h : l.hasBit = true) : l.hasDevt = true := by
  cases l <;> first | rfl | cases h

theorem hasBit_of_not_hasLock {l : Label} (h : l.hasDevt = true) (hlock : l.hasLock = false) :
    l.hasBit = true := by
  cases l <;> simp_all [Label.hasDevt, Label.hasLock, Label.hasBit]

theorem hasLock_of_gone {l : Label} (h : l.io = .gone) : l.hasLock = true := by
  cases l <;> first | rfl | cases h

/-- A step of another device does not touch what `Own` speaks about. -/
theorem Own.frame {w' : World Reg} {e : PlatDev} {l : Label} {q : Ptr} {y : DevData Reg} (h : Own D w e l q y)
    (hmajor : w'.major = w.major)
    (hbit : w.minors y.devt.minor = true → l.hasBit = true → w'.minors y.devt.minor = true)
    (hmem : q ∈ w'.deviceList ↔ q ∈ w.deviceList)
    (hset : ∀ m, w.mapped m = some e → w'.mapped m = some e)
    (hgone : l.hasLock = true → ∀ m, w.mapped m = none → w'.mapped m = none)
    (hdrv : w'.drvdata e = w.drvdata e) : Own D w' e l q y where
  major hl := hmajor ▸ h.major hl
  minor := h.minor
  bit hl := hbit (h.bit hl) hl
  listed := hmem.trans h.listed
  unset := h.unset
  address := h.address
  mapped hl m hm := hset m (h.mapped hl m hm)
  gone hl m hm := hgone (hasLock_of_gone hl) m (h.gone hl m hm)
  drvdata hl := hdrv ▸ h.drvdata hl

/-- What happens to the list lock when `d` comes to `k`: nothing, or `d` takes it, or `d` gives it up. -/
def LockStep (s : Steps Reg) (d : PlatDev) (k : Pc) (w' : World Reg) : Prop :=
  (w'.deviceListLock = s.world.deviceListLock ∧ k.hasLock = (s.pc d).hasLock) ∨
  (s.world.deviceListLock = false ∧ w'.deviceListLock = true) ∨
  ((s.pc d).hasLock = true ∧ k.hasLock = false)

section
variable {d : PlatDev} {k : Pc} {w' : World Reg} (h : s.Inv D) (hlock : LockStep s d k w')
include h hlock

theorem LockStep.exclusive_other {e : PlatDev} (hed : e ≠ d) (hk : k.hasLock = true) :
    (s.pc e).hasLock = false := by
  by_contra he
  rw [Bool.not_eq_false] at he
  rcases hlock with ⟨-, hkd⟩ | ⟨hfree, -⟩ | ⟨-, hkd⟩
  · exact hed (h.exclusive e d he (hkd ▸ hk))
  · simp [h.lock e he] at hfree
  · simp [hk] at hkd

theorem LockStep.lock (e : PlatDev) (he : (update s.pc d k e).hasLock = true) : w'.deviceListLock = true := by
  by_cases hed : e = d
  · subst hed
    rw [update_self] at he
    rcases hlock with ⟨hw, hkd⟩ | ⟨-, hw⟩ | ⟨-, hkd⟩
    · rw [hw]; exact h.lock e (hkd ▸ he)
    · exact hw
    · simp [he] at hkd
  · rw [update_of_ne hed] at he
    rcases hlock with ⟨hw, -⟩ | ⟨hfree, -⟩ | ⟨hd, -⟩
    · rw [hw]; exact h.lock e he
    · simp [h.lock e he] at hfree
    · exact absurd (h.exclusive e d he hd) hed

theorem LockStep.exclusive (e e' : PlatDev) (he : (update s.pc d k e).hasLock = true)
    (he' : (update s.pc d k e').hasLock = true) : e = e' := by
  by_cases hed : e = d <;> by_cases hed' : e' = d
  · rw [hed, hed']
  · subst hed
    rw [update_self] at he
    rw [update_of_ne hed'] at he'
    simp [hlock.exclusive_other h hed' he] at he'
  · subst hed'
    rw [update_self] at he'
    rw [update_of_ne hed] at he
    simp [hlock.exclusive_other h hed he'] at he
  · rw [update_of_ne hed] at he
    rw [update_of_ne hed'] at he'
    exact h.exclusive e e' he he'

end

theorem LockStep.orphan {d : PlatDev} {k : Pc} {w' : World Reg} (hlock : LockStep s d k w')
    {y : DevData Reg} (hy : s.Orphan y) :
    Orphan (⟨w', update s.pc d k⟩ : Steps Reg) y := by
  rcases hlock with ⟨hw, hkd⟩ | ⟨hfree, -⟩ | ⟨hd, -⟩
  · refine ⟨hw.trans hy.lock, fun e => ?_, hy.address⟩
    by_cases hed : e = d
    · subst hed; simpa [hkd] using hy.nobody e
    · simpa [hed] using hy.nobody e
  · simp [hy.lock] at hfree
  · simp [hy.nobody d] at hd

/-- A step of `d` from `l` to `l'` that keeps the pointer. `x` and `x'` are the structure before and
after it. -/
structure Moves (D : Driver Reg) (s : Steps Reg) (d : PlatDev) (l : Label) (p : Ptr) (x : DevData Reg)
    (w' : World Reg) (l' : Label) (x' : DevData Reg) : Prop where
  own : Own D w' d l' p x'
  heap : w'.heap = update s.world.heap p (some x')
  lock : LockStep s d (.at l' p) w'
  major : w'.major = s.world.major
  devt : l'.hasDevt = true → ∀ e l'' q y, e ≠ d → s.pc e = .at l'' q → s.world.heap q = some y →
    l''.hasDevt = true → x'.devt ≠ y.devt
  minors : ∀ m, w'.minors m = false → s.world.minors m = false ∨ l.hasDevt = true ∧ m = x.devt.minor
  nodup : w'.deviceList.Nodup
  mem : ∀ q, q ≠ p → (q ∈ w'.deviceList ↔ q ∈ s.world.deviceList)
  enter : l'.isListed = true → l.isListed = true ∧ x'.devt = x.devt ∨ l.hasLock = true
  mapped : w'.mapped = s.world.mapped ∨
    l.hasLock = true ∧ ∀ e m, e ≠ d → s.world.mapped m = some e → w'.mapped m = some e
  drvdata : ∀ e, e ≠ d → w'.drvdata e = s.world.drvdata e
  node : ∀ v, w'.nodes v = true → l'.hasNode = true ∧ x'.devt = v ∨
    s.world.nodes v = true ∧ ¬ (l.hasNode = true ∧ x.devt = v)

theorem Inv.own_at (h : s.Inv D) {d : PlatDev} {l : Label} {p : Ptr} {x : DevData Reg} (hd : s.pc d = .at l p)
    (hx : s.world.heap p = some x) : Own D s.world d l p x := by
  obtain ⟨x', hx', hown⟩ := h.own d l p hd
  obtain rfl : x = x' := Option.some.inj (hx.symm.trans hx')
  exact hown

theorem Inv.minor_ne (h : s.Inv D) {d e : PlatDev} {l l' : Label} {p q : Ptr} {x y : DevData Reg} (hne : e ≠ d)
    (hd : s.pc d = .at l p) (he : s.pc e = .at l' q) (hx : s.world.heap p = some x)
    (hy : s.world.heap q = some y) (hl : l.hasDevt = true) (hl' : l'.hasDevt = true) :
    y.devt.minor ≠ x.devt.minor := by
  intro hm
  have hmajor := (h.own_at hd hx).major hl
  have hmajor' := (h.own_at he hy).major hl'
  exact hne (h.devt e d l' l q p y x he hd hy hx hl' hl (DevT.ext (hmajor'.trans hmajor.symm) hm))

theorem at_of_update {pc : PlatDev → Pc} {d e : PlatDev} {k : Pc} {l : Label} {q : Ptr}
    (h : update pc d k e = .at l q) : e = d ∧ k = .at l q ∨ e ≠ d ∧ pc e = .at l q := by
  by_cases hed : e = d
  · subst hed
    exact .inl ⟨rfl, by simpa using h⟩
  · exact .inr ⟨hed, by rwa [update_of_ne hed] at h⟩

section
variable {d : PlatDev} {l l' : Label} {p : Ptr} {x x' : DevData Reg} {w' : World Reg}

theorem Moves.heap_self (hm : Moves D s d l p x w' l' x') : w'.heap p = some x' := by
  rw [hm.heap, update_self]

theorem Moves.heap_other (hm : Moves D s d l p x w' l' x') {q : Ptr} (hq : q ≠ p) :
    w'.heap q = s.world.heap q := by
  rw [hm.heap, update_of_ne hq]

theorem Inv.at_cases (h : s.Inv D) (hd : s.pc d = .at l p) {e : PlatDev} {l'' : Label} {q : Ptr}
    (he : update s.pc d (.at l' p) e = .at l'' q) :
    e = d ∧ l'' = l' ∧ q = p ∨ e ≠ d ∧ q ≠ p ∧ s.pc e = .at l'' q := by
  rcases at_of_update he with ⟨hed, hat⟩ | ⟨hed, hat⟩
  · obtain ⟨rfl, rfl⟩ := Pc.at.inj hat
    exact .inl ⟨hed, rfl, rfl⟩
  · refine .inr ⟨hed, ?_, hat⟩
    rintro rfl
    exact hed (h.inj e d l'' l q hat hd)

theorem Moves.own_other (h : s.Inv D) (hd : s.pc d = .at l p) (hx : s.world.heap p = some x)
    (hm : Moves D s d l p x w' l' x') {e : PlatDev} {l'' : Label} {q : Ptr} {y : DevData Reg} (hed : e ≠ d)
    (hqp : q ≠ p) (he : s.pc e = .at l'' q) (hy : s.world.heap q = some y) (hown : Own D s.world e l'' q y) :
    Own D w' e l'' q y := by
  refine hown.frame hm.major ?_ (hm.mem q hqp) ?_ ?_ (hm.drvdata e hed)
  · intro hset hl
    by_contra hclear
    rcases hm.minors y.devt.minor (by simpa using hclear) with hno | ⟨hdevt, hno⟩
    · simp [hset] at hno
    · exact h.minor_ne hed hd he hx hy hdevt (hasDevt_of_hasBit hl) hno
  · intro m hmap
    rcases hm.mapped with heq | ⟨-, hkeep⟩
    · rw [heq]; exact hmap
    · exact hkeep e m hed hmap
  · intro hl m hmap
    rcases hm.mapped with heq | ⟨hdl, -⟩
    · rw [heq]; exact hmap
    · exact absurd (h.exclusive e d (by rw [he]; exact hl) (by rw [hd]; exact hdl)) hed

/-- An entry that enters the list has a new device number. -/
theorem Moves.devt_ne_of_mem (h : s.Inv D) (hd : s.pc d = .at l p) (hx : s.world.heap p = some x)
    (hm : Moves D s d l p x w' l' x') (hp : p ∈ w'.deviceList) {q : Ptr} (hq : q ∈ w'.deviceList) (hqp : q ≠ p)
    {y : DevData Reg} (hy : w'.heap q = some y) : x'.devt ≠ y.devt := by
  intro hv
  rw [hm.heap_other hqp] at hy
  have hq' := (hm.mem q hqp).1 hq
  have hl' := hm.own.listed.1 hp
  rcases hm.enter hl' with ⟨hl, hdevt⟩ | hl
  · obtain ⟨x₀, hx₀, hown⟩ := h.own d l p hd
    exact hqp (h.distinct q hq' p (hown.listed.2 hl) y x hy hx (by rw [← hv, hdevt]))
  · obtain ⟨y', hy', ⟨e, l'', he⟩ | horph⟩ := h.entry q hq'
    · have hed : e ≠ d := by
        rintro rfl
        exact hqp (Pc.at.inj (he.symm.trans hd)).2
      obtain ⟨y'', hy'', hown⟩ := h.own e l'' q he
      exact hm.devt (hasDevt_of_isListed hl') e l'' q y hed he hy (hasDevt_of_isListed (hown.listed.1 hq')) hv
    · have hno := horph.nobody d
      rw [hd] at hno
      exact absurd (hno.symm.trans hl) (by decide)

theorem Inv.move (h : s.Inv D) (hd : s.pc d = .at l p) (hx : s.world.heap p = some x)
    (hm : Moves D s d l p x w' l' x') : Inv D ⟨w', update s.pc d (.at l' p)⟩ := by
  refine ⟨hm.nodup, ?_, ?_, hm.lock.lock h, hm.lock.exclusive h, ?_, ?_, ?_, ?_⟩
  · intro e l'' q he
    rcases h.at_cases hd he with ⟨rfl, rfl, rfl⟩ | ⟨hed, hqp, he⟩
    · exact ⟨x', hm.heap_self, hm.own⟩
    · obtain ⟨y, hy, hown⟩ := h.own e l'' q he
      exact ⟨y, (hm.heap_other hqp).trans hy, hm.own_other h hd hx hed hqp he hy hown⟩
  · intro e e' l₁ l₂ q he he'
    rcases h.at_cases hd he with ⟨hed, -, hqp⟩ | ⟨-, hqp, he⟩ <;>
      rcases h.at_cases hd he' with ⟨hed', -, hqp'⟩ | ⟨-, hqp', he'⟩
    · rw [hed, hed']
    · exact absurd hqp hqp'
    · exact absurd hqp' hqp
    · exact h.inj e e' l₁ l₂ q he he'
  · intro e e' l₁ l₂ q q' y y' he he' hy hy' hl hl' hv
    rcases h.at_cases hd he with ⟨hed, rfl, rfl⟩ | ⟨hed, hqp, hat⟩ <;>
      rcases h.at_cases hd he' with ⟨hed', rfl, rfl⟩ | ⟨hed', hqp', hat'⟩
    · rw [hed, hed']
    · obtain rfl : x' = y := Option.some.inj (hm.heap_self.symm.trans hy)
      rw [hm.heap_other hqp'] at hy'
      exact absurd hv (hm.devt hl e' l₂ q' y' hed' hat' hy' hl')
    · obtain rfl : x' = y' := Option.some.inj (hm.heap_self.symm.trans hy')
      rw [hm.heap_other hqp] at hy
      exact absurd hv.symm (hm.devt hl' e l₁ q y hed hat hy hl)
    · rw [hm.heap_other hqp] at hy
      rw [hm.heap_other hqp'] at hy'
      exact h.devt e e' l₁ l₂ q q' y y' hat hat' hy hy' hl hl' hv
  · intro v hv
    rcases hm.node v hv with ⟨hl', hv⟩ | ⟨hold, hno⟩
    · exact ⟨d, l', p, x', by simp, hl', hm.heap_self, hv⟩
    · obtain ⟨e, l'', q, y, he, hl, hy, rfl⟩ := h.node v hold
      have hed : e ≠ d := by
        rintro rfl
        obtain ⟨rfl, rfl⟩ := Pc.at.inj (he.symm.trans hd)
        exact hno ⟨hl, by rw [Option.some.inj (hx.symm.trans hy)]⟩
      have hqp : q ≠ p := by
        rintro rfl
        exact hed (h.inj e d l'' l q he hd)
      exact ⟨e, l'', q, y, by simp [hed, he], hl, (hm.heap_other hqp).trans hy, rfl⟩
  · intro q hq
    by_cases hqp : q = p
    · subst hqp
      exact ⟨x', hm.heap_self, .inl ⟨d, l', by simp⟩⟩
    · obtain ⟨y, hy, ⟨e, l'', he⟩ | horph⟩ := h.entry q ((hm.mem q hqp).1 hq)
      · have hed : e ≠ d := by
          rintro rfl
          exact hqp (Pc.at.inj (he.symm.trans hd)).2
        exact ⟨y, (hm.heap_other hqp).trans hy, .inl ⟨e, l'', by simp [hed, he]⟩⟩
      · exact ⟨y, (hm.heap_other hqp).trans hy, .inr (hm.lock.orphan horph)⟩
  · intro q hq q' hq' y y' hy hy' hv
    by_cases hqp : q = p <;> by_cases hqp' : q' = p
    · rw [hqp, hqp']
    · subst hqp
      obtain rfl : x' = y := Option.some.inj (hm.heap_self.symm.trans hy)
      exact absurd hv (hm.devt_ne_of_mem h hd hx hq hq' hqp' hy')
    · subst hqp'
      obtain rfl : x' = y' := Option.some.inj (hm.heap_self.symm.trans hy')
      exact absurd hv.symm (hm.devt_ne_of_mem h hd hx hq' hq hqp hy)
    · rw [hm.heap_other hqp] at hy
      rw [hm.heap_other hqp'] at hy'
      exact h.distinct q ((hm.mem q hqp).1 hq) q' ((hm.mem q' hqp').1 hq') y y' hy hy' hv

end

end Steps

end Dcs
