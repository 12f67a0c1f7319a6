import Dcs.DriverFiles
import Dcs.DriverInit
import Dcs.Reads

/-!
# One read for each open

A file delivers its value once and end of file after that. The flag that says so is in the device
structure, not in the file, and `open` clears it before it looks whether the device is in use: an `open`
that fails with `-EBUSY` lets the file that is open deliver its value again. `one_shot` says which runs of
`open`, `read` and `release` are not disturbed in this way.
-/

namespace Dcs
open Function

variable {Reg : Type} {D : Driver Reg}

/-- The module, and whether each file has been read since its `open`. -/
structure Sessions (Reg : Type) where
  world : World Reg
  hasRead : FileId → Bool

/-- The calls of processes that read. -/
def Call.OfReader : Call → Prop
  | .open _ _ | .release _ | .read _ _ => True
  | .write _ _ | .probe _ _ | .remove _ => False

instance (c : Call) : Decidable c.OfReader :=
  match c with
  | .open _ _ | .release _ | .read _ _ => inferInstanceAs (Decidable True)
  | .write _ _ | .probe _ _ | .remove _ => inferInstanceAs (Decidable False)

namespace Sessions

def next (D : Driver Reg) (s : Sessions Reg) (c : Call) : Sessions Reg where
  world := (s.world.call D c).1
  hasRead := match c with
    | .open f _ => if (s.world.call D c).2 = .returns 0 then update s.hasRead f false else s.hasRead
    | .read f _ => update s.hasRead f true
    | _ => s.hasRead

end Sessions

/-- The interleavings of `open`, `read` and `release`, from any state of the module with no file open. -/
def sessions (D : Driver Reg) : Lts.System (Sessions Reg) Call where
  Init s := Lts.Reach (drive D) (fun _ _ => True) s.world ∧ ∀ f, s.world.files f = none
  Enabled s c := s.world.Issues c ∧ c.OfReader
  next := Sessions.next D

instance (D : Driver Reg) (s : Sessions Reg) (c : Call) : Decidable ((sessions D).Enabled s c) :=
  inferInstanceAs (Decidable (_ ∧ _))

namespace Sessions

/-- The next read of an open file returns its value if it is the first one, and 0 otherwise. -/
def OneShot (s : Sessions Reg) : Prop :=
  ∀ f, s.world.files f ≠ none → ∀ result,
    (s.world.read f result).2 = .returns (if s.hasRead f then 0 else result)

/-- An `open` that gets the list lock is of a registered device if it succeeds, and if it fails it is not
of the device of an open file that has been read. -/
def Undisturbed (s : Sessions Reg) : Call → Prop
  | .open _ v => s.world.deviceListLock = false →
      (s.world.deviceMutex = false → ∃ p x, s.world.Entry p x ∧ x.devt = v) ∧
      (s.world.deviceMutex = true → ∀ g F, s.world.files g = some F → F.rdev = v → s.hasRead g = false)
  | _ => True

/-- An open file is on the device of its number, whose flag says whether the file has been read. -/
structure Inv (D : Driver Reg) (s : Sessions Reg) : Prop where
  wf : s.world.Wf D
  exclusive : s.world.Exclusive
  flag : ∀ f F, s.world.files f = some F → ∃ p x, F.privateData = some p ∧ s.world.Entry p x ∧
    x.devt = F.rdev ∧ x.messageRead = s.hasRead f

variable {s : Sessions Reg}

theorem Inv.oneShot (hs : s.Inv D) : s.OneShot := by
  intro f hf result
  obtain ⟨F, hF⟩ := Option.ne_none_iff_exists'.1 hf
  obtain ⟨p, x, hp, hx, -, hflag⟩ := hs.flag f F hF
  have hpriv := World.bind_privateData hF hp
  simp only [World.read, hpriv, hx.2, hflag]
  split <;> simp_all

end Sessions

namespace World
variable {w : World Reg}

/-- After an `open` that gets the list lock, each entry is as before but for the flags of its number. -/
theorem open_entry (hlock : w.deviceListLock = false) (f : FileId) (v : DevT) {p : Ptr} {x : DevData Reg}
    (hx : w.Entry p x) :
    (w.open f v).1.Entry p { x with messageRead := if x.devt = v then false else x.messageRead } := by
  refine ⟨(keeps_open w f v).1.deviceList ▸ hx.1, ?_⟩
  rw [open_heap hlock, hx.2, Option.map_some]
  by_cases hv : x.devt = v
  · rw [if_pos ⟨hx.1, hv⟩, if_pos hv]
  · rw [if_neg fun h => hv h.2, if_neg hv]

theorem read_entry {f : FileId} {p : Ptr} {x : DevData Reg} (hp : w.files f >>= File.privateData = some p)
    (hx : w.Entry p x) (result : ℤ) :
    (w.read f result).1.files = w.files ∧ (w.read f result).1.Entry p { x with messageRead := true } := by
  simp only [read, hp, hx.2]
  split
  · rename_i hread
    refine ⟨rfl, hx.1, ?_⟩
    rw [hx.2, ← hread]
  · exact ⟨rfl, hx.1, by simp [modify, hx.2]⟩

end World

namespace Sessions
variable {s : Sessions Reg}

/-- All that an `open` can do to the files and to whether they have been read. -/
theorem next_open_cases (D : Driver Reg) (s : Sessions Reg) (f : FileId) (v : DevT) :
    (s.world.deviceListLock = true ∧ s.next D (.open f v) = s) ∨
    (s.world.deviceListLock = false ∧ s.world.deviceMutex = true ∧
      (s.next D (.open f v)).world.files = s.world.files ∧ (s.next D (.open f v)).hasRead = s.hasRead) ∨
    (s.world.deviceListLock = false ∧ s.world.deviceMutex = false ∧
      (s.next D (.open f v)).world.files = update s.world.files f (some ⟨v, s.world.lookup v⟩) ∧
      (s.next D (.open f v)).hasRead = update s.hasRead f false) := by
  rcases World.open_cases s.world f v with ⟨hlock, h⟩ | ⟨hlock, hmutex, t, h⟩ | ⟨hlock, hmutex, t, h⟩
  · exact .inl ⟨hlock, by simp [Sessions.next, World.call, h]⟩
  · exact .inr (.inl ⟨hlock, hmutex, by simp [Sessions.next, World.call, h, World.touch],
      by simp [Sessions.next, World.call, h, EBUSY]⟩)
  · exact .inr (.inr ⟨hlock, hmutex, by simp [Sessions.next, World.call, h], by simp [Sessions.next, World.call, h]⟩)

theorem Inv.next_open (hs : s.Inv D) {f : FileId} {v : DevT} (hund : s.Undisturbed (.open f v)) :
    ∀ g F, (s.next D (.open f v)).world.files g = some F → ∃ p x, F.privateData = some p ∧
      (s.next D (.open f v)).world.Entry p x ∧ x.devt = F.rdev ∧
      x.messageRead = (s.next D (.open f v)).hasRead g := by
  rcases next_open_cases D s f v with ⟨-, hnext⟩ | ⟨hlock, hmutex, hfiles, hread⟩ | ⟨hlock, hmutex, hfiles, hread⟩
  · rw [hnext]
    exact hs.flag
  · -- the flags of the number `v` are cleared, which no open file of this number has set
    intro g F hF
    rw [hfiles] at hF
    obtain ⟨p, x, hp, hx, hv, hflag⟩ := hs.flag g F hF
    refine ⟨p, _, hp, World.open_entry hlock f v hx, hv, ?_⟩
    rw [hread]
    show (if x.devt = v then false else x.messageRead) = s.hasRead g
    split
    · rename_i hdev
      exact ((hund hlock).2 hmutex g F hF (hv.symm.trans hdev)).symm
    · exact hflag
  · have hnone : ∀ g, s.world.files g = none := fun g => by
      by_contra hg
      simp [hs.exclusive.locked.2 ⟨g, hg⟩] at hmutex
    intro g F hF
    rw [hfiles] at hF
    by_cases hgf : g = f
    · subst hgf
      obtain rfl : (⟨v, s.world.lookup v⟩ : File) = F := by simpa using hF
      obtain ⟨p, x, hx, rfl⟩ := (hund hlock).1 hmutex
      refine ⟨p, _, World.lookup_of_entry hs.wf hx, World.open_entry hlock g x.devt hx, rfl, ?_⟩
      rw [hread, update_self]
      exact if_pos rfl
    · rw [update_of_ne hgf, hnone] at hF
      cases hF

theorem Inv.next (hs : s.Inv D) {c : Call} (hc : s.world.Issues c) (hr : c.OfReader) (hund : s.Undisturbed c) :
    (s.next D c).Inv D := by
  refine ⟨hs.wf.call hc, hs.exclusive.call hc, ?_⟩
  cases c with
  | «open» f v => exact hs.next_open hund
  | release f =>
    intro g F hF
    have hgf : g ≠ f := by
      rintro rfl
      simp [Sessions.next, World.call, World.release] at hF
    exact hs.flag g F (by simpa [Sessions.next, World.call, World.release, hgf] using hF)
  | read f result =>
    obtain ⟨F, hF⟩ := Option.ne_none_iff_exists'.1 hc
    obtain ⟨p, x, hp, hx, hv, -⟩ := hs.flag f F hF
    have hpriv := World.bind_privateData hF hp
    obtain ⟨hfiles, hentry⟩ := World.read_entry hpriv hx result
    intro g G hG
    have hG' : s.world.files g = some G := hfiles ▸ hG
    -- the file that is read is the only one that is open
    obtain rfl : g = f := hs.exclusive.unique g f (by simp [hG']) hc
    obtain rfl : G = F := Option.some.inj (hG'.symm.trans hF)
    exact ⟨p, _, hp, hentry, hv, (update_self (β := fun _ => Bool) g true s.hasRead).symm⟩
  | write f result => exact hr.elim
  | probe d o => exact hr.elim
  | remove d => exact hr.elim

/-- An `open` after which each file still delivers its value once has been undisturbed. -/
theorem Inv.undisturbed (hs : s.Inv D) {c : Call} (h : (s.next D c).OneShot) : s.Undisturbed c := by
  cases c with
  | «open» f v =>
    intro hlock
    rcases next_open_cases D s f v with ⟨h', -⟩ | ⟨-, hmutex, hfiles, hread⟩ | ⟨-, hmutex, hfiles, -⟩
    · simp [hlock] at h'
    · refine ⟨fun h' => by simp [hmutex] at h', fun _ g F hF hv => ?_⟩
      by_contra hset
      obtain ⟨p, x, hp, hx, hdev, -⟩ := hs.flag g F hF
      have hpriv : (s.next D (.open f v)).world.files g >>= File.privateData = some p :=
        World.bind_privateData (hfiles ▸ hF) hp
      have hentry : (s.next D (.open f v)).world.heap p = _ := (World.open_entry hlock f v hx).2
      rw [if_pos (hdev.trans hv)] at hentry
      -- the value 1 is delivered although the file has been read
      have hagain := h g (by simp [hfiles, hF]) 1
      rw [hread, (Bool.not_eq_false _).mp hset, if_pos rfl] at hagain
      simp only [World.read, hpriv, hentry] at hagain
      cases hagain
    · refine ⟨fun _ => ?_, fun h' => by simp [hmutex] at h'⟩
      have hvalue := h f (by simp [hfiles]) 1
      cases hlook : s.world.lookup v with
      | none =>
        have hpriv : (s.next D (.open f v)).world.files f >>= File.privateData = none := by
          rw [hfiles, update_self, hlook]
          rfl
        simp only [World.read, hpriv] at hvalue
        cases hvalue
      | some p =>
        obtain ⟨hp, x, hx, hv⟩ := World.lookup_eq_some hlook
        exact ⟨p, x, ⟨hp, hx⟩, hv⟩
  | _ => trivial

/-- In every run whose opens are undisturbed each open file delivers its value once and then end of file,
and an `open` that is not undisturbed breaks it. -/
theorem one_shot (D : Driver Reg) (s : Sessions Reg)
    (h : Lts.Reach (sessions D) (fun s c => s.Undisturbed c) s) :
    s.OneShot ∧ ∀ c, (sessions D).Enabled s c → ((s.next D c).OneShot ↔ s.Undisturbed c) := by
  have hs : s.Inv D := by
    refine h.invariant (I := Inv D) ?_ ?_
    · rintro s ⟨hreach, hnone⟩
      exact ⟨.of_reach hreach, World.exclusive_of_reach hreach, fun f F hF => by simp [hnone f] at hF⟩
    · intro s c hs hc hund
      exact hs.next hc.1 hc.2 hund
  exact ⟨hs.oneShot, fun c hc => ⟨hs.undisturbed, fun hund => (hs.next hc.1 hc.2 hund).oneShot⟩⟩

/-- One device, opened and read. -/
def opened (D : Driver Reg) : Sessions Reg :=
  (sessions D).run ⟨oneDevice D, fun _ => false⟩ [.open 0 ⟨240, 0⟩, .read 0 1]

theorem one_shot_opened : (opened pid).OneShot := by
  have hinit : (sessions pid).Init ⟨oneDevice pid, fun _ => false⟩ := ⟨oneDevice_reach pid, fun _ => rfl⟩
  have hund : Undisturbed ⟨oneDevice pid, fun _ => false⟩ (.open 0 ⟨240, 0⟩) := fun _ =>
    ⟨fun _ => ⟨1, _, ⟨by decide, rfl⟩, by decide⟩, fun _ g F hF => by cases hF⟩
  have hreach : Lts.Reach (sessions pid) (fun s c => s.Undisturbed c) (opened pid) :=
    .run _ (.init hinit) ⟨by decide, hund, by decide, trivial, trivial⟩
  exact (one_shot pid _ hreach).1

/-- A second `open` of the device fails, and the file that is open delivers its value again. -/
theorem two_shots :
    ¬ (∀ s, Lts.Reach (sessions pid) (fun _ _ => True) s → s.OneShot) ∧
    ¬ (∀ s, Lts.Reach (sessions pwm) (fun _ _ => True) s → s.OneShot) ∧
    ¬ ∀ s, Lts.Reach (sessions encoder) (fun _ _ => True) s → s.OneShot := by
  have hagain : ∀ {Reg : Type} (D : Driver Reg), (∀ f, (oneDevice D).files f = none) →
      (sessions D).Runs (fun _ _ => True) ⟨oneDevice D, fun _ => false⟩
        [.open 0 ⟨240, 0⟩, .read 0 1, .open 1 ⟨240, 0⟩] →
      ((sessions D).next (opened D) (.open 1 ⟨240, 0⟩)).world.files 0 ≠ none →
      (((sessions D).next (opened D) (.open 1 ⟨240, 0⟩)).world.read 0 1).2 = .returns 1 →
      ((sessions D).next (opened D) (.open 1 ⟨240, 0⟩)).hasRead 0 = true →
      ¬ ∀ s, Lts.Reach (sessions D) (fun _ _ => True) s → s.OneShot := fun D hnone hruns hfile hvalue hread h => by
    have hshot := h _ (.run _ (.init ⟨oneDevice_reach D, hnone⟩) hruns) 0 hfile 1
    have hend : (if ((sessions D).next (opened D) (.open 1 ⟨240, 0⟩)).hasRead 0 = true then 0 else 1 : ℤ) = 1 :=
      (Outcome.returns.inj (hvalue.symm.trans hshot)).symm
    rw [if_pos hread] at hend
    exact absurd hend (by decide)
  exact ⟨hagain pid (fun _ => rfl) (by decide) (by decide) (by decide) (by decide),
    hagain pwm (fun _ => rfl) (by decide) (by decide) (by decide) (by decide),
    hagain encoder (fun _ => rfl) (by decide) (by decide) (by decide) (by decide)⟩

end Sessions

end Dcs
