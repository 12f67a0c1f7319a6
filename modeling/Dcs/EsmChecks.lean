import Dcs.EsmMain

/-!
# The checks of the sync managers

`checkSmSettings_cases` and `smSettings_cases` say all that the checks do: which variables change, and what is
known of the registers when they are passed.
-/

namespace Dcs
namespace Ecat
variable {e : Regs} {s : Esm} {result : UInt16} {t : ℕ}

/-! ### Settings that pass the checks -/

/-- The bounds on the area of a mailbox or of process data. It starts in the memory of the controller; where it
ends is not checked. -/
structure AreaOk (address size : UInt16) (least most : ℕ) : Prop where
  even : address.toNat % 2 = 0 ∧ size.toNat % 2 = 0
  size : least ≤ size.toNat ∧ size.toNat ≤ most
  address : 0x1000 ≤ address.toNat ∧ address.toNat ≤ 0x2FFF

theorem even_of_and_one {w : UInt16} (h : w &&& 1 = 0) : w.toNat % 2 = 0 := by
  have hw : (w &&& 1).toNat = 0 := by rw [h]; rfl
  rwa [UInt16.toNat_and, UInt16.toNat_one, Nat.and_one_is_mod] at hw

theorem SyncMan.even {q : SyncMan} (h : ¬ q.Odd) :
    q.physicalStartAddress.toNat % 2 = 0 ∧ q.length.toNat % 2 = 0 := by
  unfold Odd at h
  rw [not_or, not_not, not_not] at h
  exact ⟨even_of_and_one h.2, even_of_and_one h.1⟩

theorem checkMailbox_ok {q : SyncMan} {direction : UInt16} (h : checkMailbox q direction 0x1000 0x2FFF = 0) :
    AreaOk q.physicalStartAddress q.length 0x22 0x100 := by
  unfold checkMailbox at h
  split at h
  · cases h
  rename_i hodd
  iterate 3
    split at h
    · cases h
  split at h
  · cases h
  rename_i hmin
  split at h
  · cases h
  rename_i hmax
  split at h
  · cases h
  rename_i hlow
  split at h
  · cases h
  rename_i hhigh
  rw [UInt16.lt_iff_toNat_lt] at hmin hmax hlow hhigh
  exact ⟨SyncMan.even hodd, ⟨Nat.not_lt.1 hmin, Nat.not_lt.1 hmax⟩, Nat.not_lt.1 hlow, Nat.not_lt.1 hhigh⟩

theorem checkMailbox_mem (q : SyncMan) (direction lo hi : UInt16) : checkMailbox q direction lo hi ∈
    [0, ALSTATUSCODE_INVALIDMBXCFGINPREOP, ALSTATUSCODE_INVALIDSMCFG] := by
  unfold checkMailbox
  split
  · simp
  iterate 7
    split
    · simp
  simp

theorem checkProcessData_ok {q : SyncMan} {size most direction lo hi a : UInt16} (hsize : size ≠ 0)
    (h : checkProcessData s q size most direction lo hi a = 0) :
    q.length = size ∧ AddressOk s q lo hi a := by
  unfold checkProcessData at h
  split at h
  · cases h
  split at h
  · split at h
    · cases h
    rename_i hlen
    rw [not_or, not_not] at hlen
    split at h
    · split at h
      · exact ⟨hlen.1, by assumption⟩
      · cases h
    · cases h
  · rw [if_pos (.inr hsize)] at h
    cases h

/-- The process data sync managers fit to the sizes; coming from PREOP, their addresses are in the memory. -/
def DataChecked (e : Regs) (s : Esm) : Prop :=
  ¬ (e.syncMan PROCESS_DATA_IN).Odd ∧ ¬ (e.syncMan PROCESS_DATA_OUT).Odd ∧
    (s.nPdInputSize ≠ 0 → (e.syncMan PROCESS_DATA_IN).length = s.nPdInputSize ∧
      AddressOk s (e.syncMan PROCESS_DATA_IN) 0x1000 0x2FFF s.nEscAddrInputData) ∧
    (s.nPdOutputSize ≠ 0 → (e.syncMan PROCESS_DATA_OUT).length = s.nPdOutputSize ∧
      AddressOk s (e.syncMan PROCESS_DATA_OUT) 0x1000 0x2FFF s.nEscAddrOutputData)

theorem checkInputs_cases (q : SyncMan) (s : Esm) :
    (∃ b, (checkInputs q s).2 = { s with b3BufferMode := b }) ∧
      ((checkInputs q s).1 = ALSTATUSCODE_INVALIDSMCFG ∨ (checkInputs q s).1 = ALSTATUSCODE_INVALIDSMINCFG ∨
        (checkInputs q s).1 = 0 ∧ ¬ q.Odd ∧
          (s.nPdInputSize ≠ 0 → q.length = s.nPdInputSize ∧ AddressOk s q 0x1000 0x2FFF s.nEscAddrInputData)) := by
  unfold checkInputs
  dsimp only
  split
  · exact ⟨⟨true, rfl⟩, .inl rfl⟩
  rename_i hodd
  split
  · exact ⟨⟨true, rfl⟩, .inr (.inl rfl)⟩
  rename_i hok
  have hdata : s.nPdInputSize ≠ 0 → q.length = s.nPdInputSize ∧ AddressOk s q 0x1000 0x2FFF s.nEscAddrInputData :=
    fun hsize => checkProcessData_ok hsize (not_not.1 hok)
  split
  · exact ⟨⟨false, rfl⟩, .inr (.inr ⟨rfl, hodd, hdata⟩)⟩
  · exact ⟨⟨true, rfl⟩, .inr (.inr ⟨rfl, hodd, hdata⟩)⟩

theorem checkOutputs_cases (q : SyncMan) (s : Esm) :
    (∃ b w, (checkOutputs q s).2 = { s with b3BufferMode := b, bWdTrigger := w }) ∧
      ((checkOutputs q s).1 = ALSTATUSCODE_INVALIDSMCFG ∨ (checkOutputs q s).1 = ALSTATUSCODE_INVALIDSMOUTCFG ∨
        (checkOutputs q s).1 = 0 ∧ ¬ q.Odd ∧
          (s.nPdOutputSize ≠ 0 → q.length = s.nPdOutputSize ∧ AddressOk s q 0x1000 0x2FFF s.nEscAddrOutputData)) := by
  unfold checkOutputs
  split
  · exact ⟨⟨_, _, rfl⟩, .inl rfl⟩
  rename_i hodd
  split
  · exact ⟨⟨_, _, rfl⟩, .inr (.inl rfl)⟩
  rename_i hok
  have hdata : s.nPdOutputSize ≠ 0 →
      q.length = s.nPdOutputSize ∧ AddressOk s q 0x1000 0x2FFF s.nEscAddrOutputData :=
    fun hsize => checkProcessData_ok hsize (not_not.1 hok)
  split
  · dsimp only
    split
    · exact ⟨⟨false, _, rfl⟩, .inr (.inr ⟨rfl, hodd, hdata⟩)⟩
    · exact ⟨⟨_, _, rfl⟩, .inr (.inr ⟨rfl, hodd, hdata⟩)⟩
  · exact ⟨⟨_, _, rfl⟩, .inr (.inr ⟨rfl, hodd, hdata⟩)⟩

/-- Only two flags change, and the result is one of these. -/
theorem checkSmSettings_cases (e : Regs) (m : ℕ) (s : Esm) :
    (∃ b w, (checkSmSettings e m s).2 = { s with b3BufferMode := b, bWdTrigger := w }) ∧
      ((checkSmSettings e m s).1 ∈ [ALSTATUSCODE_NOVALIDFIRMWARE, ALSTATUSCODE_INVALIDMBXCFGINPREOP,
          ALSTATUSCODE_INVALIDSMCFG, ALSTATUSCODE_INVALIDSMINCFG, ALSTATUSCODE_INVALIDSMOUTCFG] ∨
        (checkSmSettings e m s).1 = 0 ∧
          AreaOk (e.syncMan MAILBOX_WRITE).physicalStartAddress (e.syncMan MAILBOX_WRITE).length 0x22 0x100 ∧
          AreaOk (e.syncMan MAILBOX_READ).physicalStartAddress (e.syncMan MAILBOX_READ).length 0x22 0x100 ∧
          (PROCESS_DATA_IN < m → DataChecked e s)) := by
  unfold checkSmSettings
  split
  · exact ⟨⟨_, _, rfl⟩, .inl (by simp)⟩
  dsimp only
  split
  · rename_i hreceive
    refine ⟨⟨_, _, rfl⟩, .inl ?_⟩
    have hmem := checkMailbox_mem (e.syncMan MAILBOX_WRITE) SM_SETTING_DIRECTION_WRITE_VALUE MIN_MBX_WRITE_ADDRESS
      MAX_MBX_WRITE_ADDRESS
    simp only [List.mem_cons, hreceive, false_or, List.not_mem_nil, or_false] at hmem ⊢
    tauto
  rename_i hreceive
  split
  · rename_i hsend
    refine ⟨⟨_, _, rfl⟩, .inl ?_⟩
    have hmem := checkMailbox_mem (e.syncMan MAILBOX_READ) SM_SETTING_DIRECTION_READ_VALUE MIN_MBX_READ_ADDRESS
      MAX_MBX_READ_ADDRESS
    simp only [List.mem_cons, hsend, false_or, List.not_mem_nil, or_false] at hmem ⊢
    tauto
  rename_i hsend
  have hr := checkMailbox_ok (not_not.1 hreceive)
  have hs := checkMailbox_ok (not_not.1 hsend)
  obtain ⟨⟨b, hb⟩, hin⟩ := checkInputs_cases (e.syncMan PROCESS_DATA_IN) s
  obtain ⟨⟨b', w', hb'⟩, hout⟩ := checkOutputs_cases (e.syncMan PROCESS_DATA_OUT) { s with b3BufferMode := b }
  by_cases hm : PROCESS_DATA_IN < m
  · have hm' : PROCESS_DATA_OUT < m := Nat.lt_of_succ_lt hm
    rw [if_pos hm, if_pos hm']
    obtain hin | hin | ⟨hin, hodd, hdata⟩ := hin
    · rw [if_pos (by rw [hin]; decide)]
      exact ⟨⟨b, s.bWdTrigger, hb⟩, .inl (by rw [hin]; simp)⟩
    · rw [if_pos (by rw [hin]; decide)]
      exact ⟨⟨b, s.bWdTrigger, hb⟩, .inl (by rw [hin]; simp)⟩
    · rw [if_neg (by rw [hin]; decide), hb, hb']
      refine ⟨⟨b', w', rfl⟩, ?_⟩
      obtain hout | hout | ⟨hout, hodd', hdata'⟩ := hout
      · exact .inl (by rw [hout]; simp)
      · exact .inl (by rw [hout]; simp)
      · exact .inr ⟨hout, hr, hs, fun _ => ⟨hodd, hodd', hdata, hdata'⟩⟩
  · rw [if_neg hm]
    dsimp only
    rw [if_neg (by decide)]
    split
    · obtain ⟨⟨b', w', hb'⟩, hout⟩ := checkOutputs_cases (e.syncMan PROCESS_DATA_OUT) s
      refine ⟨⟨b', w', hb'⟩, ?_⟩
      obtain hout | hout | ⟨hout, -⟩ := hout
      · exact .inl (by rw [hout]; simp)
      · exact .inl (by rw [hout]; simp)
      · exact .inr ⟨hout, hr, hs, fun h => absurd h hm⟩
    · exact ⟨⟨_, _, rfl⟩, .inr ⟨rfl, hr, hs, fun h => absurd h hm⟩⟩

/-- The result of the check of the sync managers, if it is an error. -/
def SmError (result : UInt16) : Prop :=
  result ∈ [ALSTATUSCODE_NOVALIDFIRMWARE.toUInt16, ALSTATUSCODE_INVALIDMBXCFGINPREOP.toUInt16,
    ALSTATUSCODE_INVALIDSMCFG.toUInt16, ALSTATUSCODE_INVALIDSMINCFG.toUInt16, ALSTATUSCODE_INVALIDSMOUTCFG.toUInt16]

theorem SmError.failed (h : SmError result) : Failed result := by
  unfold SmError at h
  fin_cases h <;> decide

/-- The transitions before which all sync managers are checked, or only those of the mailbox. -/
def ChecksAll (t : ℕ) : Prop := t ∈ [PREOP_2_SAFEOP, SAFEOP_2_OP, OP_2_SAFEOP, SAFEOP_2_SAFEOP, OP_2_OP]

def ChecksMailbox (t : ℕ) : Prop := ChecksAll t ∨ t ∈ [INIT_2_PREOP, OP_2_PREOP, SAFEOP_2_PREOP, PREOP_2_PREOP]

instance : Decidable (ChecksAll t) := inferInstanceAs (Decidable (_ ∈ _))

instance : Decidable (ChecksMailbox t) := inferInstanceAs (Decidable (_ ∨ _))

/-- The sizes of the process data, once they have been generated. -/
def Sized (s : Esm) : Prop := s.nPdInputSize = 4 ∧ s.nPdOutputSize = 4

theorem applGenerateMapping_eq (s : Esm) :
    applGenerateMapping s = (0, { s with nPdInputSize := 4, nPdOutputSize := 4 }) := by
  have hin : pdoSize txPDOMap = 4 := by decide
  have hout : pdoSize rxPDOMap = 4 := by decide
  unfold applGenerateMapping
  rw [hin, hout]
  rfl

/-- What was checked when the sync manager settings are passed. -/
structure Checked (e : Regs) (t : ℕ) (s : Esm) : Prop where
  mailbox : ChecksMailbox t →
    AreaOk (e.syncMan MAILBOX_WRITE).physicalStartAddress (e.syncMan MAILBOX_WRITE).length 0x22 0x100 ∧
      AreaOk (e.syncMan MAILBOX_READ).physicalStartAddress (e.syncMan MAILBOX_READ).length 0x22 0x100
  data : ChecksAll t → 4 ≤ s.nMaxSyncMan.toNat → DataChecked e s
  sized : t = PREOP_2_SAFEOP → Sized s

/-- The sizes change on the way to SAFEOP only. -/
theorem smSettings_cases (e : Regs) (t : ℕ) (s : Esm) : ∃ i o b w,
    (smSettings e t s).2 = { s with nPdInputSize := i, nPdOutputSize := o, b3BufferMode := b, bWdTrigger := w } ∧
      (t ≠ PREOP_2_SAFEOP → i = s.nPdInputSize ∧ o = s.nPdOutputSize) ∧
      (SmError (smSettings e t s).1 ∧ ChecksMailbox t ∨
        (smSettings e t s).1 = 0 ∧ Checked e t (smSettings e t s).2) := by
  have herror : ∀ m s, (checkSmSettings e m s).1 ∈ [ALSTATUSCODE_NOVALIDFIRMWARE, ALSTATUSCODE_INVALIDMBXCFGINPREOP,
      ALSTATUSCODE_INVALIDSMCFG, ALSTATUSCODE_INVALIDSMINCFG, ALSTATUSCODE_INVALIDSMOUTCFG] →
      SmError (checkSmSettings e m s).1.toUInt16 := fun m s h => by
    unfold SmError
    generalize (checkSmSettings e m s).1 = r at h ⊢
    fin_cases h <;> decide
  have hmailbox : ChecksMailbox t → ¬ ChecksAll t → smSettings e t s =
      ((checkSmSettings e (MAILBOX_READ + 1) s).1.toUInt16, (checkSmSettings e (MAILBOX_READ + 1) s).2) := by
    rintro (h | h) hall
    · exact absurd h hall
    · fin_cases h <;> rfl
  have hdata : ChecksAll t → t ≠ PREOP_2_SAFEOP → smSettings e t s =
      ((checkSmSettings e s.nMaxSyncMan.toNat s).1.toUInt16, (checkSmSettings e s.nMaxSyncMan.toNat s).2) := by
    intro h hne
    unfold ChecksAll at h
    fin_cases h
    · exact absurd rfl hne
    all_goals rfl
  have hother : ¬ ChecksMailbox t → smSettings e t s = (0, s) := by
    intro h
    unfold smSettings
    split <;> first | exact absurd (by decide) h | rfl
  by_cases hpre : t = PREOP_2_SAFEOP
  · subst hpre
    have heq : smSettings e PREOP_2_SAFEOP s =
        ((checkSmSettings e s.nMaxSyncMan.toNat { s with nPdInputSize := 4, nPdOutputSize := 4 }).1.toUInt16,
          (checkSmSettings e s.nMaxSyncMan.toNat { s with nPdInputSize := 4, nPdOutputSize := 4 }).2) := by
      unfold smSettings
      rw [applGenerateMapping_eq]
      rfl
    obtain ⟨⟨b, w, hs⟩, hr⟩ := checkSmSettings_cases e s.nMaxSyncMan.toNat { s with nPdInputSize := 4, nPdOutputSize := 4 }
    rw [heq]
    refine ⟨4, 4, b, w, hs, fun h => absurd rfl h, ?_⟩
    obtain hr | ⟨hr, hw, hread, hd⟩ := hr
    · exact .inl ⟨herror _ _ hr, by decide⟩
    · dsimp only
      rw [hr, hs]
      exact .inr ⟨rfl, fun _ => ⟨hw, hread⟩, fun _ hmax => hd hmax, fun _ => ⟨rfl, rfl⟩⟩
  by_cases hall : ChecksAll t
  · obtain ⟨⟨b, w, hs⟩, hr⟩ := checkSmSettings_cases e s.nMaxSyncMan.toNat s
    rw [hdata hall hpre]
    refine ⟨_, _, b, w, hs, fun _ => ⟨rfl, rfl⟩, ?_⟩
    obtain hr | ⟨hr, hw, hread, hd⟩ := hr
    · exact .inl ⟨herror _ _ hr, .inl hall⟩
    · dsimp only
      rw [hr, hs]
      exact .inr ⟨rfl, fun _ => ⟨hw, hread⟩, fun _ hmax => hd hmax, fun h => absurd h hpre⟩
  by_cases hmbx : ChecksMailbox t
  · obtain ⟨⟨b, w, hs⟩, hr⟩ := checkSmSettings_cases e (MAILBOX_READ + 1) s
    rw [hmailbox hmbx hall]
    refine ⟨_, _, b, w, hs, fun _ => ⟨rfl, rfl⟩, ?_⟩
    obtain hr | ⟨hr, hw, hread, -⟩ := hr
    · exact .inl ⟨herror _ _ hr, hmbx⟩
    · dsimp only
      rw [hr, hs]
      exact .inr ⟨rfl, fun _ => ⟨hw, hread⟩, fun h => absurd h hall, fun h => absurd h hpre⟩
  · rw [hother hmbx]
    exact ⟨_, _, s.b3BufferMode, s.bWdTrigger, rfl, fun _ => ⟨rfl, rfl⟩, .inr ⟨rfl, fun h => absurd h hmbx,
      fun h => absurd h hall, fun h => absurd h hpre⟩⟩

end Ecat
end Dcs
