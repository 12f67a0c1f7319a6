import Dcs.DriverFiles
import Dcs.Reads

/-!
# A handler and the devices it does not belong to

On a device list whose entries have different numbers and different registers (`World.Listed`), a write
to an attribute is one store to the register of its own device. A read of `P` or `I` takes the address of
the last entry of the list, whichever device it is called for.
-/

namespace Dcs
open Function

namespace World
variable {Reg : Type} {D : Driver Reg} {w : World Reg}

/-- The entries of the device list have different numbers, and their registers are different words. -/
structure Listed (w : World Reg) : Prop extends w.Entries where
  disjoint : ∀ p q x y r r', w.Entry p x → w.Entry q y → x.address r = y.address r' → p = q ∧ r = r'

theorem Wf.listed (hw : w.Wf D) (hoffset : Injective D.offset)
    (hlive : ∀ p x, w.Entry p x → ∃ m, w.Live D x.devt p x m) : w.Listed := by
  refine { hw.entries with disjoint := fun p q x y r r' hx hy haddr => ?_ }
  obtain ⟨m, hp⟩ := hlive p x hx
  obtain ⟨m', hq⟩ := hlive q y hy
  obtain ⟨d, hd, hm⟩ := hp.mapped
  obtain ⟨d', hd', hm'⟩ := hq.mapped
  rw [hp.address r, hq.address r', IoAddr.mk.injEq, Option.some.injEq] at haddr
  obtain ⟨rfl, hword⟩ := haddr
  obtain rfl : d = d' := Option.some.inj (hm.symm.trans hm')
  exact ⟨Option.some.inj (hd.symm.trans hd'), hoffset hword⟩

theorem Wf.address_base (hw : w.Wf D) {d : PlatDev} {p : Ptr} {x : DevData Reg} (hd : w.drvdata d = some p)
    (hx : w.heap p = some x) (r : Reg) : x.address r = (x.address D.base).add (D.offset r) := by
  have hold := hw.holds hd hx
  rw [IoAddr.add, hold.address r, hold.address D.base, D.offset_base, Nat.zero_add]

end World

/-- Two PID devices; the second one is the head of the list. -/
def twoDevices : World PidReg :=
  (drive pid).run (.initial 240) [.probe ⟨0, 0x43C00000⟩ ⟨some 1, 0, true, some 7⟩,
    .probe ⟨1, 0x43C10000⟩ ⟨some 2, 0, true, some 8⟩]

theorem twoDevices_listed : twoDevices.Listed := by
  have hreach : Lts.Reach (drive pid) (fun _ _ => True) twoDevices := .run _ (.init ⟨240, rfl⟩) (by decide)
  refine (World.Wf.of_reach hreach).listed (fun r r' h => ?_) ?_
  · cases r <;> cases r' <;> first | rfl | cases h
  · rintro p x ⟨hp, hx⟩
    obtain rfl | rfl : p = 2 ∨ p = 1 := by simpa using (show p ∈ [2, 1] from hp)
    · obtain rfl : _ = x := Option.some.inj hx
      exact ⟨8, ⟨by decide, rfl⟩, rfl, fun r => by cases r <;> rfl, ⟨1, 0x43C10000⟩, by decide, by decide⟩
    · obtain rfl : _ = x := Option.some.inj hx
      exact ⟨7, ⟨by decide, rfl⟩, rfl, fun r => by cases r <;> rfl, ⟨0, 0x43C00000⟩, by decide, by decide⟩

theorem twoDevices_entry : ∃ x, twoDevices.Entry 2 x ∧ x.devt = ⟨240, 1⟩ ∧ x.address .P = ⟨some 8, 1⟩ :=
  ⟨_, ⟨by decide, rfl⟩, rfl, rfl⟩

/-! ### Reads of PID -/

section
variable {w : World PidReg} {p q : Ptr} {x y : DevData PidReg} {a : PidAttr}

theorem pidReadAddress_last (hw : w.Entries) (ha : a = .P ∨ a = .I) (hlast : w.deviceList.getLast? = some q)
    (hy : w.heap q = some y) (v : DevT) : pidReadAddress w v a = .ok (y.address a.reg) := by
  refine World.walk_last (g := fun y => y.address a.reg) hw.alloc (fun z t => ?_) hlast hy
  rcases ha with rfl | rfl <;> simp [pidReadBody, PidAttr.reg]

theorem pidReadAddress_own (hw : w.Entries) (hx : w.Entry p x) (ha : a.Readable) (hPI : ¬ (a = .P ∨ a = .I)) :
    pidReadAddress w x.devt a = .ok (x.address a.reg) := by
  cases a with
  | P => exact absurd (.inl rfl) hPI
  | I => exact absurd (.inr rfl) hPI
  | Update => exact absurd rfl ha
  | D | State | Emerg =>
    rw [pidReadAddress, hw.walk_entry hx fun y t hv => by simp [pidReadBody, hv]]
    simp [pidReadBody, PidAttr.reg]

/-- The readable attributes are looked up in the same way in `PID_Bas_v3.c`. -/
theorem pidBasReadAddress_eq (w : World PidReg) (v : DevT) (ha : a.Readable) :
    pidBasReadAddress w v a = pidReadAddress w v a := by
  have hbody : pidBasReadBody v a = pidReadBody v a := by
    cases a with
    | Update => exact absurd rfl ha
    | P | I | D | State | Emerg => rfl
  rw [pidBasReadAddress, hbody, pidReadAddress]

/-- What `sys_read_node` returns if it reads the register of `x` for `a`. -/
def pidOwnRead (x : DevData PidReg) (a : PidAttr) : Io → ℕ → Outcome × Buffer :=
  sysRead (.ok (x.address a.reg)) fun value => printInt (value / 100000)

/-- If `sys_read_node` reads another register, some contents of the two show it. -/
theorem pidSysRead_ne {v : DevT} {b : IoAddr} (haddr : pidReadAddress w v a = .ok b) (hb : b ≠ x.address a.reg) :
    ∃ io, pidSysRead w v a io 0 ≠ pidOwnRead x a io 0 := by
  refine ⟨update (fun _ => 0) b 100000, fun heq => ?_⟩
  have htext : printInt 1 = printInt 0 := by
    have := congrArg Prod.snd heq
    rw [pidSysRead, haddr] at this
    simpa [pidOwnRead, sysRead, Ne.symm hb] using this
  exact absurd (printInt_inj.1 htext) (by decide)

end

/-- For a device `p` on a list of any devices, a read of an attribute is a read of its own register, if
and only if the attribute is not `P` or `I` or the device is the last of the list; `PID_Bas_v3.c` is alike. -/
theorem read_isolated (w : World PidReg) (hw : w.Listed) (p : Ptr) (x : DevData PidReg) (hx : w.Entry p x)
    (a : PidAttr) (ha : a.Readable) :
    (pidReadAddress w x.devt a = .ok (x.address a.reg) ↔
      (a = .P ∨ a = .I → w.deviceList.getLast? = some p)) ∧
    ((∀ io left, pidSysRead w x.devt a io left = pidOwnRead x a io left) ↔
      (a = .P ∨ a = .I → w.deviceList.getLast? = some p)) ∧
    (pidBasReadAddress w x.devt a = .ok (x.address a.reg) ↔
      (a = .P ∨ a = .I → w.deviceList.getLast? = some p)) := by
  rw [pidBasReadAddress_eq w x.devt ha]
  have hread : pidReadAddress w x.devt a = .ok (x.address a.reg) →
      ∀ io left, pidSysRead w x.devt a io left = pidOwnRead x a io left := fun haddr io left => by
    rw [pidSysRead, haddr, pidOwnRead]
  by_cases hPI : a = .P ∨ a = .I
  · obtain ⟨q, hlast⟩ := Option.ne_none_iff_exists'.1 fun h => List.ne_nil_of_mem hx.1 (List.getLast?_eq_none_iff.1 h)
    obtain ⟨y, hy⟩ := hw.alloc q (List.mem_of_getLast? hlast)
    have haddr := pidReadAddress_last hw.toEntries hPI hlast hy x.devt
    by_cases hqp : q = p
    · subst hqp
      obtain rfl : x = y := Option.some.inj (hx.2.symm.trans hy)
      have hown := iff_of_true haddr fun _ : a = .P ∨ a = .I => hlast
      exact ⟨hown, iff_of_true (hread haddr) fun _ => hlast, hown⟩
    · have hcond : ¬ (a = .P ∨ a = .I → w.deviceList.getLast? = some p) := fun h =>
        hqp (Option.some.inj (hlast.symm.trans (h hPI)))
      have hne : y.address a.reg ≠ x.address a.reg := fun h =>
        hqp (hw.disjoint q p y x _ _ ⟨List.mem_of_getLast? hlast, hy⟩ hx h).1
      obtain ⟨io, hio⟩ := pidSysRead_ne (x := x) haddr hne
      have hother := iff_of_false (fun h => hne (Except.ok.inj (haddr.symm.trans h))) hcond
      exact ⟨hother, iff_of_false (fun h => hio (h io 0)) hcond, hother⟩
  · have haddr := pidReadAddress_own hw.toEntries hx ha hPI
    have hown := iff_of_true haddr fun h : a = .P ∨ a = .I =>
      absurd (b := w.deviceList.getLast? = some p) h hPI
    exact ⟨hown, iff_of_true (hread haddr) fun h => absurd h hPI, hown⟩

theorem read_isolated_D : ∃ x, twoDevices.Entry 2 x ∧ pidReadAddress twoDevices x.devt .D = .ok (x.address .D) := by
  obtain ⟨x, hx, -, -⟩ := twoDevices_entry
  exact ⟨x, hx, (read_isolated twoDevices twoDevices_listed 2 x hx .D (by decide)).1.2 (by decide)⟩

/-- Of two devices the second one's `P` is read from the first. -/
theorem read_not_isolated :
    ¬ ∀ w p x a, World.Listed w → w.Entry p x → PidAttr.Readable a →
      pidReadAddress w x.devt a = .ok (x.address a.reg) := by
  intro h
  obtain ⟨x, hx, hv, hP⟩ := twoDevices_entry
  have haddr := h twoDevices 2 x .P twoDevices_listed hx (by decide)
  rw [hv, show PidAttr.reg .P = .P from rfl, hP] at haddr
  exact absurd haddr (by decide)

/-! ### Writes -/

/-- A store to one of the registers leaves the others. -/
theorem World.Listed.update_of_ne {Reg : Type} {w : World Reg} (hw : w.Listed) {p q : Ptr} {x y : DevData Reg}
    (hx : w.Entry p x) (hy : w.Entry q y) {r r' : Reg} (hne : q ≠ p ∨ r' ≠ r) (io : Io) (value : BitVec 32) :
    update io (x.address r) value (y.address r') = io (y.address r') := by
  refine Function.update_of_ne (fun haddr => ?_) _ _
  obtain ⟨hqp, hr⟩ := hw.disjoint q p y x r' r hy hx haddr
  exact hne.elim (fun h => h hqp) fun h => h hr

/-- A write to an attribute of a device on a list of any devices is one store, to the register that the
device has for the attribute; all other registers, also those of other devices, are left. The addresses
are those that `probe` has counted from the base. -/
theorem write_isolated (K : Kstrto) :
    (∀ w p x a buffer value io, World.Listed w → w.Entry p x → PidAttr.Writable a →
      K.kstrtoint buffer = .ok value →
      pidSysSet K w x.devt a buffer io =
        (.returns buffer.length, update io (x.address a.reg) (value * 100000)) ∧
      ∀ q y r, w.Entry q y → q ≠ p ∨ r ≠ a.reg →
        (pidSysSet K w x.devt a buffer io).2 (y.address r) = io (y.address r)) ∧
    (∀ w p x a buffer value io, World.Listed w → w.Entry p x → K.kstrtoint buffer = .ok value →
      pwmSysSet K w x.devt a buffer io =
        (.returns buffer.length,
          update io (x.address a.reg) (PwmAttr.transform a (io (x.address a.reg)) value)) ∧
      ∀ q y r, w.Entry q y → q ≠ p ∨ r ≠ a.reg →
        (pwmSysSet K w x.devt a buffer io).2 (y.address r) = io (y.address r)) ∧
    (∀ w d p x r, Lts.Reach (drive pid) (fun _ _ => True) w → w.drvdata d = some p → w.heap p = some x →
      x.address r = (x.address .setpoint).add (pid.offset r)) ∧
    ∀ w d p x r, Lts.Reach (drive pwm) (fun _ _ => True) w → w.drvdata d = some p → w.heap p = some x →
      x.address r = (x.address .pulsewidth).add (pwm.offset r) := by
  refine ⟨fun w p x a buffer value io hw hx ha hvalue => ?_, fun w p x a buffer value io hw hx hvalue => ?_,
    fun w d p x r hw hd hx => (World.Wf.of_reach hw).address_base hd hx r,
    fun w d p x r hw hd hx => (World.Wf.of_reach hw).address_base hd hx r⟩
  · rw [pidSysSet_entry hw.toEntries hx ha, hvalue]
    exact ⟨rfl, fun q y r hy hne => hw.update_of_ne hx hy hne _ _⟩
  · rw [pwmSysSet_entry hw.toEntries hx, hvalue]
    exact ⟨rfl, fun q y r hy hne => hw.update_of_ne hx hy hne _ _⟩

theorem write_isolated_second :
    ∃ x, twoDevices.Entry 2 x ∧ ∀ io q y r, twoDevices.Entry q y → q ≠ 2 ∨ r ≠ .P →
      (pidSysSet decimal twoDevices x.devt .P [53] io).2 (y.address r) = io (y.address r) := by
  obtain ⟨x, hx, -, -⟩ := twoDevices_entry
  have hvalue : decimal.kstrtoint [53] = .ok 5 := by decide
  refine ⟨x, hx, fun io => ?_⟩
  exact ((write_isolated decimal).1 twoDevices 2 x .P [53] _ io twoDevices_listed hx (by decide) hvalue).2

end Dcs
