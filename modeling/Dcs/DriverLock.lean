import Dcs.DriverWf

/-!
# The device list lock

`open`, `probe` and `remove` take `device_list_lock`. Two of their exits keep it: `open` returns
`-EBUSY` without unlocking when the device mutex is taken, and `probe` leaves through
`failed_memregion` without unlocking. `Call.Balanced` excludes exactly these two.
-/

namespace Dcs

variable {Reg : Type} {D : Driver Reg} {w : World Reg}

/-- The call does not leave through one of the two exits that keep the lock. -/
def Call.Balanced (D : Driver Reg) (w : World Reg) : Call → Prop
  | .open _ _ => w.deviceMutex = false
  | .probe _ o => w.Requests D o → o.requestMemRegion = true
  | _ => True

instance (D : Driver Reg) (w : World Reg) (c : Call) : Decidable (c.Balanced D w) :=
  match c with
  | .open _ _ => inferInstanceAs (Decidable (_ = _))
  | .probe _ o => inferInstanceAs (Decidable (w.Requests D o → o.requestMemRegion = true))
  | .release _ | .read _ _ | .write _ _ | .remove _ => inferInstanceAs (Decidable True)

namespace World

theorem call_deviceListLock (hw : w.Wf D) (hlock : w.deviceListLock = false) {c : Call} (hc : w.Issues c) :
    (w.call D c).2 ≠ .blocks ∧ ((w.call D c).1.deviceListLock = false ↔ c.Balanced D w) := by
  have hlocked : ¬ w.deviceListLock = true := by simp [hlock]
  cases c with
  | «open» f v =>
    rcases open_cases w f v with ⟨h, -⟩ | ⟨-, hmutex, g, h⟩ | ⟨-, hmutex, g, h⟩
    · exact absurd h hlocked
    · simp [call, h, Call.Balanced, hmutex]
    · simp [call, h, Call.Balanced, hmutex]
  | release f => simp [call, release, Call.Balanced, hlock]
  | read f result =>
    obtain ⟨g, out, hout, h⟩ := read_eq w f result
    simp [call, h, hout, touch, Call.Balanced, hlock]
  | write f result =>
    obtain ⟨out, hout, h⟩ := write_eq D w f result
    simp [call, h, hout, Call.Balanced, hlock]
  | probe d o =>
    rcases probe_cases D w d o with ⟨hko, h⟩ | ⟨p, hko, ⟨h, -⟩ | ⟨-, hreq, e, -, h⟩ | ⟨-, hreq, hr, h⟩ |
      ⟨-, hreq, hr, h⟩⟩
    · have hreq : ¬ w.Requests D o := by simp [Requests, hko]
      simp [call, h, Call.Balanced, hreq, hlock]
    · exact absurd h hlocked
    · simp [call, h, Call.Balanced, hreq, unlockList, kfree]
    · simp [call, h, Call.Balanced, hreq, hr, refused]
    · simp [call, h, Call.Balanced, hr, registered]
  | remove d =>
    obtain ⟨p, hd⟩ := Option.ne_none_iff_exists'.1 hc
    obtain ⟨x, hx, -⟩ := hw.bound d p hd
    rcases remove_cases D w d hd hx.2 with ⟨h, -⟩ | ⟨-, h⟩
    · exact absurd h hlocked
    · simp [call, h, Call.Balanced, unregistered]

/-- In a run without those two exits the lock is free between calls and no call blocks; any other
call leaves it locked. -/
theorem deviceListLock_free (D : Driver Reg) (w : World Reg)
    (h : Lts.Reach (drive D) (fun w c => c.Balanced D w) w) :
    w.deviceListLock = false ∧ ∀ c, w.Issues c →
      (w.call D c).2 ≠ .blocks ∧ ((w.call D c).1.deviceListLock = false ↔ c.Balanced D w) := by
  have hlock : w.deviceListLock = false := by
    refine h.invariant_of (I := Wf D) (J := fun w => w.deviceListLock = false) (fun _ => Wf.of_reach) ?_ ?_
    · rintro _ ⟨major, rfl⟩; rfl
    · intro w c hw hlock hc hbal
      exact (call_deviceListLock hw hlock hc).2.2 hbal
  exact ⟨hlock, fun c hc => call_deviceListLock (.of_reach h) hlock hc⟩

theorem deviceListLock_free_session :
    let w := (drive pid).run (.initial 240) [.probe ⟨0, 0x43C00000⟩ ⟨some 1, 0, true, some 7⟩,
      .open 0 ⟨240, 0⟩, .release 0, .remove ⟨0, 0x43C00000⟩]
    w.deviceListLock = false ∧ ∀ c, w.Issues c →
      (w.call pid c).2 ≠ .blocks ∧ ((w.call pid c).1.deviceListLock = false ↔ c.Balanced pid w) :=
  deviceListLock_free pid _ (.run _ (.init ⟨240, rfl⟩) (by decide))

/-- A second `open` returns `-EBUSY` and keeps the lock; so does a `probe` that is refused its region. -/
theorem deviceListLock_kept :
    ¬ (∀ w, Lts.Reach (drive pid) (fun _ _ => True) w → w.deviceListLock = false) ∧
    ¬ (∀ w, Lts.Reach (drive pwm) (fun _ _ => True) w → w.deviceListLock = false) ∧
    ¬ ∀ w, Lts.Reach (drive encoder) (fun _ _ => True) w → w.deviceListLock = false := by
  refine ⟨fun h => ?_, fun h => ?_, fun h => ?_⟩
  · exact absurd (h _ (.run [.probe ⟨0, 0x43C00000⟩ ⟨some 1, 0, true, some 7⟩,
      .open 0 ⟨240, 0⟩, .open 1 ⟨240, 0⟩] (.init ⟨240, rfl⟩) (by decide))) (by decide)
  · exact absurd (h _ (.run [.probe ⟨0, 0x43C10000⟩ ⟨some 1, 0, false, none⟩] (.init ⟨241, rfl⟩)
      (by decide))) (by decide)
  · exact absurd (h _ (.run [.open 0 ⟨242, 0⟩, .open 1 ⟨242, 0⟩] (.init ⟨242, rfl⟩)
      (by decide))) (by decide)

end World

end Dcs
