import Dcs.DriverStepMoves

/-!
# The steps and the calls

Without interruption the steps of a `probe` and of a `remove` are the calls of `World`.
-/

namespace Dcs
open Function

namespace Steps
variable {Reg : Type} {D : Driver Reg} {w : World Reg} {s : Steps Reg}

section
variable {d : PlatDev} {p : Ptr} {x : DevData Reg}

def advances (D : Driver Reg) (d : PlatDev) (o : World.Services) (n : ℕ) (s : Steps Reg) : Steps Reg :=
  (stepwise D).run s (List.replicate n (.advance d o))

theorem advances_succ {o : World.Services} {l : Label} {pc : PlatDev → Pc} {n : ℕ} (hx : w.heap p = some x) :
    advances D d o (n + 1) ⟨w, update pc d (.at l p)⟩ =
      advances D d o n ⟨(step D w d o p x l).1, update pc d (step D w d o p x l).2⟩ := by
  simp [advances, List.replicate_succ, Lts.System.run, stepwise, next, hx]

theorem heap_modify (hx : w.heap p = some x) (f : DevData Reg → DevData Reg) :
    (w.modify p f).heap p = some (f x) := by
  rw [modify_heap hx, update_self]

/-- The world after the node of a new device has been created. -/
def created (D : Driver Reg) (w : World Reg) (p : Ptr) : World Reg :=
  ((w.kzalloc p).lockList.modify p fun x => { x with devt := w.nextDevt D }).deviceCreate (w.nextDevt D)

theorem heap_created : (created D w p).heap p = some { DevData.zero with devt := w.nextDevt D } :=
  heap_modify (w := (w.kzalloc p).lockList) (by simp [World.kzalloc, World.lockList]) _

theorem advances_created {o : World.Services} {pc : PlatDev → Pc} {n : ℕ} (hreq : w.Requests D o) :
    advances D d o (n + 2) ⟨w.kzalloc p, update pc d (.at .kzalloced p)⟩ =
      advances D d o n ⟨created D w p, update pc d (.at (.created (w.findFirstZeroBit D.nMinors)) p)⟩ := by
  have hzero : (w.kzalloc p).heap p = some .zero := by simp [World.kzalloc]
  rw [advances_succ hzero, step, advances_succ (x := .zero) (by exact hzero)]
  rcases World.createNode_eq D (w.kzalloc p).lockList p o with ⟨-, -, hnode⟩ | ⟨hno, -⟩
  · simp only [step, hnode, ↓reduceIte]
    rfl
  · exact absurd ⟨hreq.2.1, hreq.2.2⟩ hno

theorem advances_failed {o : World.Services} {pc : PlatDev → Pc} (ho : o.kzalloc = some p) (hno : ¬ w.Requests D o) :
    advances D d o 4 ⟨w.kzalloc p, update pc d (.at .kzalloced p)⟩ =
      ⟨w.unlockList.kfree p, update pc d .idle⟩ := by
  have hzero : (w.kzalloc p).heap p = some .zero := by simp [World.kzalloc]
  rw [advances_succ hzero, step, advances_succ (x := .zero) (by exact hzero)]
  rcases World.createNode_eq D (w.kzalloc p).lockList p o with ⟨hm, hc, -⟩ | ⟨-, f, -, e, he, hnode⟩
  · exact absurd ⟨by simp [ho], hm, hc⟩ hno
  · simp only [step, hnode, he, ↓reduceIte]
    have hdata := heap_modify (w := (w.kzalloc p).lockList) hzero f
    rw [advances_succ hdata, step, advances_succ (x := f .zero) (by exact hdata), step]
    simp [advances, Lts.System.run, World.kzalloc, World.kfree, World.modify, World.unlockList, World.lockList]

theorem advances_refused {o : World.Services} {pc : PlatDev → Pc} (hreq : w.Requests D o)
    (hr : o.requestMemRegion = false) :
    advances D d o 7 ⟨w.kzalloc p, update pc d (.at .kzalloced p)⟩ = ⟨w.refused D p, update pc d .idle⟩ := by
  have hdata : (created D w p).heap p = _ := heap_created
  rw [advances_created hreq, advances_succ hdata, step, advances_succ (by exact hdata), step,
    advances_succ (by exact hdata)]
  simp only [step, hr, ↓reduceIte]
  rw [advances_succ (by exact hdata), step, advances_succ (by exact hdata), step]
  simp [advances, Lts.System.run, created, World.kzalloc, World.modify, World.lockList, World.deviceCreate,
    World.setBit, World.listAdd, World.deviceDestroy, World.clearBit, World.refused, World.nextDevt,
    World.findFirstZeroBit]

theorem advances_registered {o : World.Services} {pc : PlatDev → Pc} (hreq : w.Requests D o)
    (hr : o.requestMemRegion = true) :
    advances D d o 8 ⟨w.kzalloc p, update pc d (.at .kzalloced p)⟩ =
      ⟨w.registered D d p o.ofIomap, update pc d (.at .bound p)⟩ := by
  have hdata : (created D w p).heap p = _ := heap_created
  rw [advances_created hreq, advances_succ hdata, step, advances_succ (by exact hdata), step,
    advances_succ (by exact hdata)]
  simp only [step, hr, ↓reduceIte, reduceCtorEq]
  rw [advances_succ (by exact heap_modify (by exact hdata) _), step,
    advances_succ (by exact heap_modify (by exact heap_modify (by exact hdata) _) _), step,
    advances_succ (by exact heap_modify (by exact heap_modify (by exact hdata) _) _), step]
  simp [advances, Lts.System.run, created, World.kzalloc, World.modify, World.lockList, World.deviceCreate,
    World.setBit, World.listAdd, World.holdRegion, World.ofIomap, World.mapRegisters, World.unlockList,
    World.setDrvdata, World.registered, World.newData, World.nextDevt, World.findFirstZeroBit, IoAddr.add,
    DevData.zero]

/-- Without interruption the steps of a `probe` are the call. -/
theorem probe_steps (hd : s.pc d = .idle) (hfree : s.world.deviceListLock = false) (o : World.Services) :
    ∃ n, advances D d o n (s.next D (.probe d o)) = ⟨(s.world.probe D d o).1, update s.pc d
      (if (s.world.probe D d o).2 = .returns 0 then .at .bound (o.kzalloc.getD 0) else .idle)⟩ := by
  have hidle : update s.pc d Pc.idle = s.pc := by rw [← hd, update_eq_self]
  have hstart : ∀ p, o.kzalloc = some p →
      s.next D (.probe d o) = ⟨s.world.kzalloc p, update s.pc d (.at .kzalloced p)⟩ := by
    intro p hko
    simp only [next, hko]
  rcases World.probe_cases D s.world d o with ⟨hko, h⟩ | ⟨p, hko, ⟨hlock, -⟩ | ⟨-, hno, e, he, h⟩ |
    ⟨-, hreq, hr, h⟩ | ⟨-, hreq, hr, h⟩⟩
  · exact ⟨0, by simp [advances, Lts.System.run, next, hko, h, ENOMEM, hidle]⟩
  · simp [hfree] at hlock
  · exact ⟨4, by rw [hstart p hko, advances_failed hko hno, h]; simp [he]⟩
  · exact ⟨7, by rw [hstart p hko, advances_refused hreq hr, h]; simp [ENODEV]⟩
  · exact ⟨8, by rw [hstart p hko, advances_registered hreq hr, h]; simp [hko]⟩

/-- Without interruption the steps of a `remove` are the call. -/
theorem remove_steps (h : s.Inv D) (hd : s.pc d = .at .bound p) (hfree : s.world.deviceListLock = false)
    (o : World.Services) :
    advances D d o 7 (s.next D (.remove d)) = ⟨(s.world.remove D d).1, update s.pc d .idle⟩ := by
  obtain ⟨x, hx, hown⟩ := h.own d _ p hd
  have hdrv := hown.drvdata rfl
  rcases World.remove_cases D s.world d hdrv hx with ⟨hlock, -⟩ | ⟨-, h⟩
  · simp [hfree] at hlock
  · have hstart : s.next D (.remove d) = ⟨s.world.lockList, update s.pc d (.at .removing p)⟩ := by
      simp only [next, hdrv]
    rw [hstart, advances_succ (by exact hx), step, advances_succ (by exact hx), step, advances_succ (by exact hx),
      step, advances_succ (by exact hx), step, advances_succ (by exact hx), step]
    rw [advances_succ (x := x) (by split <;> exact hx), step, h]
    by_cases hb : x.baseRegister = 0 <;>
      simp [advances, Lts.System.run, stepwise, next, hb, World.lockList, World.iounmap, World.listDel,
        World.deviceDestroy, World.clearBit, World.releaseMemRegion, World.kfree, World.unlockList, World.setDrvdata,
        World.unregistered]

end

end Steps

end Dcs
