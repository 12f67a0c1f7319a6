import Dcs.DriverWf

/-!
# Open files and the devices behind them

`open` computes a status for the walk over the device list and does not look at it, so a file may have
no device; `remove` frees the device structure whoever has it open. `Call.Attached` excludes the two,
and an `open` of a device whose `of_iomap` failed; then every open file has its device for as long as
it is open.
-/

namespace Dcs
open Function

variable {Reg : Type} {D : Driver Reg} {w : World Reg}

namespace World

/-- `p` is the structure of a registered device with device number `v`, and its registers are mapped. -/
structure Live (D : Driver Reg) (w : World Reg) (v : DevT) (p : Ptr) (x : DevData Reg) (m : MapId) : Prop where
  entry : w.Entry p x
  devt : x.devt = v
  address : ∀ r, x.address r = ⟨some m, D.offset r⟩
  mapped : ∃ d, w.drvdata d = some p ∧ w.mapped m = some d

/-- Every open file has a live device of its own device number. -/
def FilesLive (D : Driver Reg) (w : World Reg) : Prop :=
  ∀ f F, w.files f = some F → ∃ p x m, F.privateData = some p ∧ w.Live D F.rdev p x m

end World

/-- An `open` that will succeed is of a live device, and a device is removed while no file is open on it. -/
def Call.Attached (D : Driver Reg) (w : World Reg) : Call → Prop
  | .open _ v => w.deviceListLock = false → w.deviceMutex = false → ∃ p x m, w.Live D v p x m
  | .remove d => w.deviceListLock = false → ∀ f F, w.files f = some F → F.privateData ≠ w.drvdata d
  | _ => True

namespace World

theorem lookup_of_entry (hw : w.Wf D) {p : Ptr} {x : DevData Reg} (hx : w.Entry p x) :
    w.lookup x.devt = some p := by
  cases h : w.lookup x.devt with
  | none =>
    rw [lookup, List.getLast?_eq_none_iff, List.filter_eq_nil_iff] at h
    exact absurd (by simp [hx.2]) (h p hx.1)
  | some q =>
    obtain ⟨hq, y, hy, hv⟩ := lookup_eq_some h
    rw [hw.distinct q p y x ⟨hq, hy⟩ hx hv]

theorem Live.keeps {w' : World Reg} {v : DevT} {p : Ptr} {x : DevData Reg} {m : MapId} (h : w.Live D v p x m)
    (hk : w.Keeps w') : ∃ y, w'.Live D v p y m := by
  obtain ⟨d, hd, hm⟩ := h.mapped
  obtain ⟨b, hb⟩ := hk.entry h.entry
  exact ⟨_, hb, h.devt, h.address, d, by rw [hk.drvdata]; exact hd, by rw [hk.mapped]; exact hm⟩

theorem Live.keeps_back {w' : World Reg} {v : DevT} {p : Ptr} {y : DevData Reg} {m : MapId} (hw : w.Wf D)
    (hk : w.Keeps w') (h : w'.Live D v p y m) : ∃ x, w.Live D v p x m := by
  obtain ⟨d, hd, hm⟩ := h.mapped
  obtain ⟨x, hx, b, rfl⟩ := hk.entry_back hw h.entry
  exact ⟨x, hx, h.devt, h.address, d, by rw [← hk.drvdata]; exact hd, by rw [← hk.mapped]; exact hm⟩

/-- A live device stays live under every call but its own removal. -/
theorem Live.call (hw : w.Wf D) {c : Call} (hc : w.Issues c) {v : DevT} {p : Ptr} {x : DevData Reg} {m : MapId}
    (h : w.Live D v p x m)
    (hrem : ∀ d, c = .remove d → w.deviceListLock = false → w.drvdata d ≠ some p) :
    ∃ y, (w.call D c).1.Live D v p y m := by
  obtain ⟨e, he, hm⟩ := h.mapped
  rcases call_cases hw hc with ⟨hk, -⟩ | ⟨d, o, q, rfl, hq, -, -, -, hcall⟩ |
    ⟨d, o, q, rfl, hd, hq, hfresh, -, -, hcall⟩ | ⟨d, q, y, rfl, hd, hy, hold, hlock, hcall⟩
  · exact h.keeps hk
  · rw [hcall]
    exact ⟨x, (entry_add rfl rfl (hw.not_mem hq)).2 (.inr h.entry), h.devt, h.address, e, he, hm⟩
  · have hed : e ≠ d := by rintro rfl; rw [hd] at he; cases he
    have hold := hw.holds he h.entry.2
    rw [hcall]
    refine ⟨x, (entry_add rfl rfl (hw.not_mem hq)).2 (.inr h.entry), h.devt, h.address, e, ?_, ?_⟩
    · simpa [registered, hed] using he
    · exact (hold.ofIomap hfresh rfl).mapped m (by rw [h.address])
  · have hed : e ≠ d := by rintro rfl; exact hrem e rfl hlock he
    have hold' := hw.holds he h.entry.2
    have hpq : p ≠ q := by rintro rfl; exact hed (hw.bound_inj e d p he hd)
    rw [hcall]
    refine ⟨x, (entry_unregistered hw).2 ⟨hpq, h.entry⟩, h.devt, h.address, e, ?_, ?_⟩
    · simpa [unregistered, hed] using he
    · exact (hold.iounmap hold' hed rfl).mapped m (by rw [h.address])

theorem FilesLive.call (hw : w.Wf D) (hf : w.FilesLive D) {c : Call} (hc : w.Issues c)
    (ha : c.Attached D w) : (w.call D c).1.FilesLive D := by
  intro f F hF
  have hold : w.files f = some F → ∃ p x m, F.privateData = some p ∧ (w.call D c).1.Live D F.rdev p x m := by
    intro hF'
    obtain ⟨p, x, m, hp, hlive⟩ := hf f F hF'
    obtain ⟨y, hy⟩ := hlive.call hw hc fun d hcd hlock hd => by
      subst hcd
      exact ha hlock f F hF' (by rw [hp, hd])
    exact ⟨p, y, m, hp, hy⟩
  rcases call_files D w c with ⟨hfiles, -, -⟩ | ⟨g, v, rfl, hlock, hmutex, hfiles, -, -⟩ | ⟨g, rfl, hfiles, -⟩
  · exact hold (hfiles ▸ hF)
  · rw [hfiles] at hF
    by_cases hfg : f = g
    · subst hfg
      obtain rfl : (⟨v, w.lookup v⟩ : File) = F := by simpa using hF
      obtain ⟨p, x, m, hlive⟩ := ha hlock hmutex
      obtain ⟨y, hy⟩ := hlive.keeps (keeps_open w f v).1
      refine ⟨p, y, m, ?_, hy⟩
      rw [← hlive.devt]
      exact lookup_of_entry hw hlive.entry
    · exact hold (by simpa [hfg] using hF)
  · rw [hfiles] at hF
    by_cases hfg : f = g
    · simp [hfg] at hF
    · exact hold (by simpa [hfg] using hF)

theorem attached_of_filesLive (hw : w.Wf D) {c : Call} (hc : w.Issues c) (h : (w.call D c).1.FilesLive D) :
    c.Attached D w := by
  cases c with
  | «open» f v =>
    intro hlock hmutex
    rcases call_files D w (.open f v) with ⟨-, -, hne⟩ | ⟨g, v', hcall, -, -, hfiles, -, -⟩ | ⟨g, hcall, -⟩
    · rcases open_cases w f v with ⟨h', -⟩ | ⟨-, h', -⟩ | ⟨-, -, g, h'⟩
      · simp [hlock] at h'
      · simp [hmutex] at h'
      · exact absurd (by rw [World.call, h']) (hne f v rfl)
    · obtain ⟨rfl, rfl⟩ := Call.open.inj hcall
      obtain ⟨p, y, m, -, hlive⟩ := h f ⟨v, w.lookup v⟩ (by rw [hfiles, update_self])
      obtain ⟨x, hx⟩ := hlive.keeps_back hw (keeps_open w f v).1
      exact ⟨p, x, m, hx⟩
    · cases hcall
  | remove d =>
    intro hlock f F hF hFd
    obtain ⟨p, hd⟩ := Option.ne_none_iff_exists'.1 hc
    obtain ⟨x, hx, -⟩ := hw.bound d p hd
    rcases remove_cases D w d hd hx.2 with ⟨h', -⟩ | ⟨-, hcall⟩
    · simp [hlock] at h'
    · rw [World.call, hcall] at h
      obtain ⟨q, y, m, hq, hlive⟩ := h f F hF
      obtain rfl : q = p := Option.some.inj (by rw [← hq, hFd, hd])
      exact ((entry_unregistered hw).1 hlive.entry).1 rfl
  | _ => trivial

theorem FilesLive.read_write (hf : w.FilesLive D) {f : FileId} (h : w.files f ≠ none) (result : ℤ) :
    (w.read f result).2 ≠ .faults ∧ (w.write D f result).2 ≠ .faults := by
  obtain ⟨F, hF⟩ := Option.ne_none_iff_exists'.1 h
  obtain ⟨p, x, m, hp, hlive⟩ := hf f F hF
  have hpriv := bind_privateData hF hp
  have hx : w.heap p = some x := hlive.entry.2
  constructor
  · simp only [read, hpriv, hx]
    split <;> simp
  · simp only [write, hpriv, hx]
    split <;> simp

/-- In a run of attached calls every open file keeps a live device of its own number, which its reads
and writes find; any other call leaves a file without. -/
theorem files_live (D : Driver Reg) (w : World Reg)
    (h : Lts.Reach (drive D) (fun w c => c.Attached D w) w) :
    w.FilesLive D ∧
    (∀ f result, w.files f ≠ none → (w.read f result).2 ≠ .faults ∧ (w.write D f result).2 ≠ .faults) ∧
    ∀ c, w.Issues c → ((w.call D c).1.FilesLive D ↔ c.Attached D w) := by
  have hw : w.Wf D := .of_reach h
  have hf : w.FilesLive D := by
    refine h.invariant_of (I := Wf D) (J := FilesLive D) (fun _ => Wf.of_reach) ?_ ?_
    · rintro _ ⟨major, rfl⟩ f F hF
      cases hF
    · intro w c hw hf hc ha
      exact hf.call hw hc ha
  exact ⟨hf, fun f result hne => hf.read_write hne result,
    fun c hc => ⟨attached_of_filesLive hw hc, hf.call hw hc⟩⟩

theorem files_live_one_open :
    let w := (drive pid).run (.initial 240) [.probe ⟨0, 0x43C00000⟩ ⟨some 1, 0, true, some 7⟩,
      .probe ⟨1, 0x43C10000⟩ ⟨some 2, 0, true, some 8⟩, .remove ⟨0, 0x43C00000⟩, .open 0 ⟨240, 1⟩]
    w.FilesLive pid ∧
    (∀ f result, w.files f ≠ none → (w.read f result).2 ≠ .faults ∧ (w.write pid f result).2 ≠ .faults) ∧
    ∀ c, w.Issues c → ((w.call pid c).1.FilesLive pid ↔ c.Attached pid w) := by
  refine files_live pid _ (.run _ (.init ⟨240, rfl⟩) ⟨by decide, trivial, by decide, trivial, by decide, ?_,
    by decide, ?_, trivial⟩)
  · intro _ f F hF
    cases hF
  · exact fun _ _ => ⟨2, _, 8, ⟨by decide, rfl⟩, by decide, fun r => by cases r <;> rfl,
      ⟨1, 0x43C10000⟩, by decide, by decide⟩

/-- An `open` of a minor without a device succeeds, and so does the removal of a device that is open. -/
theorem files_not_live :
    ¬ (∀ w, Lts.Reach (drive pid) (fun _ _ => True) w → w.FilesLive pid) ∧
    ¬ (∀ w, Lts.Reach (drive pwm) (fun _ _ => True) w → w.FilesLive pwm) ∧
    ¬ ∀ w, Lts.Reach (drive encoder) (fun _ _ => True) w → w.FilesLive encoder := by
  refine ⟨fun h => ?_, fun h => ?_, fun h => ?_⟩
  · obtain ⟨p, x, m, hp, -⟩ := h _ (.run [.open 0 ⟨240, 5⟩] (.init ⟨240, rfl⟩) (by decide)) 0 _ rfl
    cases hp
  · obtain ⟨p, x, m, hp, hlive⟩ := h _ (.run [.probe ⟨0, 0x43C10000⟩ ⟨some 1, 0, true, some 7⟩, .open 0 ⟨241, 0⟩,
      .remove ⟨0, 0x43C10000⟩] (.init ⟨241, rfl⟩) (by decide)) 0 _ rfl
    exact absurd hlive.entry.1 (List.not_mem_nil)
  · obtain ⟨p, x, m, hp, hlive⟩ := h _ (.run [.probe ⟨0, 0x43C20000⟩ ⟨some 1, 0, true, none⟩, .open 0 ⟨242, 0⟩]
      (.init ⟨242, rfl⟩) (by decide)) 0 _ rfl
    obtain ⟨d, -, hd⟩ := hlive.mapped
    cases hd

end World

end Dcs
