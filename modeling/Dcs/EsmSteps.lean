import Dcs.EsmChecks

/-!
# The handlers of the state machine

What goes with each state (`InState`), and that the handlers which are called between two states lead from the
one to the other.
-/

namespace Dcs
namespace Ecat
open Function

variable {e : Regs} {s s' : Esm} {p n : UInt8} {result : UInt16}

/-! ### States and what goes with them -/

def IsState (n : UInt8) : Prop := n = STATE_INIT ∨ n = STATE_PREOP ∨ n = STATE_SAFEOP ∨ n = STATE_OP

/-- Process data are exchanged. -/
def Exchanges (n : UInt8) : Prop := n = STATE_SAFEOP ∨ n = STATE_OP

instance : Decidable (IsState n) := inferInstanceAs (Decidable (_ ∨ _))

instance : Decidable (Exchanges n) := inferInstanceAs (Decidable (_ ∨ _))

/-- The handlers that run in a state. -/
def Running (n : UInt8) (s : Esm) : Prop :=
  (s.bMbxRunning = true ↔ n ≠ STATE_INIT) ∧ (s.bEcatInputUpdateRunning = true ↔ Exchanges n) ∧
    (s.bEcatOutputUpdateRunning = true ↔ n = STATE_OP)

/-- The areas that were taken over on the way to a state. -/
def Config (n : UInt8) (s : Esm) : Prop :=
  (n ≠ STATE_INIT → AreaOk s.u16EscAddrReceiveMbx s.u16ReceiveMbxSize 0x22 0x100 ∧
    AreaOk s.u16EscAddrSendMbx s.u16SendMbxSize 0x22 0x100 ∧
      ¬ Overlap s.u16EscAddrReceiveMbx.toNat s.u16ReceiveMbxSize.toNat s.u16EscAddrSendMbx.toNat s.u16SendMbxSize.toNat) ∧
    (Exchanges n → Sized s ∧ (4 ≤ s.nMaxSyncMan.toNat →
      AreaOk s.nEscAddrInputData s.nPdInputSize 4 4 ∧ AreaOk s.nEscAddrOutputData s.nPdOutputSize 4 4))

/-- The sync managers that are disabled from this side, if the controller has the four. The one of the outputs may
be disabled in SAFEOP and in OP, too. -/
def Channels (n : UInt8) (s : Esm) : Prop :=
  4 ≤ s.nMaxSyncMan.toNat →
    (s.pdiDisabled MAILBOX_WRITE = true ↔ n = STATE_INIT) ∧ (s.pdiDisabled MAILBOX_READ = true ↔ n = STATE_INIT) ∧
      (¬ Exchanges n → s.pdiDisabled PROCESS_DATA_OUT = true) ∧
        (s.pdiDisabled PROCESS_DATA_IN = true ↔ ¬ Exchanges n)

/-- All that goes with a state. -/
structure InState (n : UInt8) (s : Esm) : Prop where
  flags : Running n s
  config : Config n s
  channels : Channels n s

/-- The registers and the variables that no handler touches. -/
def Frame (s s' : Esm) : Prop :=
  s'.nAlStatus = s.nAlStatus ∧ s'.alStatus = s.alStatus ∧ s'.alStatusCode = s.alStatusCode ∧
    s'.bLocalErrorFlag = s.bLocalErrorFlag ∧ s'.u16LocalErrorCode = s.u16LocalErrorCode ∧ s'.nMaxSyncMan = s.nMaxSyncMan

theorem Frame.refl : Frame s s := ⟨rfl, rfl, rfl, rfl, rfl, rfl⟩

/-- The slave is in the state `p`, and no error is shown. -/
structure Clean (p : UInt8) (s : Esm) : Prop where
  status : s.nAlStatus = p
  state : IsState p
  within : InState p s
  code : s.bLocalErrorFlag = true → s.u16LocalErrorCode ≠ 0

theorem flags_init (hmbx : s.bMbxRunning = false) (hin : s.bEcatInputUpdateRunning = false)
    (hout : s.bEcatOutputUpdateRunning = false) : Running STATE_INIT s := by
  unfold Running; rw [hmbx, hin, hout]; decide

theorem flags_preop (hmbx : s.bMbxRunning = true) (hin : s.bEcatInputUpdateRunning = false)
    (hout : s.bEcatOutputUpdateRunning = false) : Running STATE_PREOP s := by
  unfold Running; rw [hmbx, hin, hout]; decide

theorem flags_safeop (hmbx : s.bMbxRunning = true) (hin : s.bEcatInputUpdateRunning = true)
    (hout : s.bEcatOutputUpdateRunning = false) : Running STATE_SAFEOP s := by
  unfold Running; rw [hmbx, hin, hout]; decide

theorem flags_op (hmbx : s.bMbxRunning = true) (hin : s.bEcatInputUpdateRunning = true)
    (hout : s.bEcatOutputUpdateRunning = true) : Running STATE_OP s := by
  unfold Running; rw [hmbx, hin, hout]; decide

theorem config_init : Config STATE_INIT s := ⟨fun h => absurd rfl h, fun h => absurd h (by decide)⟩

/-- From a state above INIT to PREOP, and from one with process data to another. -/
theorem Config.preop (h : Config p s) (hp : p ≠ STATE_INIT) : Config STATE_PREOP s :=
  ⟨fun _ => h.1 hp, fun h => absurd h (by decide)⟩

theorem Config.exchanges (h : Config p s) (hp : Exchanges p) : Config n s :=
  ⟨fun _ => h.1 (by rintro rfl; exact absurd hp (by decide)), fun _ => h.2 hp⟩

theorem Running.mbx (h : Running p s) (hp : p ≠ STATE_INIT) : s.bMbxRunning = true := h.1.2 hp

theorem Running.input (h : Running p s) (hp : ¬ Exchanges p) : s.bEcatInputUpdateRunning = false :=
  Bool.eq_false_iff.2 fun hin => hp (h.2.1.1 hin)

theorem Running.output (h : Running p s) (hp : p ≠ STATE_OP) : s.bEcatOutputUpdateRunning = false :=
  Bool.eq_false_iff.2 fun hout => hp (h.2.2.1 hout)

theorem Channels.exchanges (h : Channels p s) (hp : Exchanges p) (hn : Exchanges n) : Channels n s := by
  intro hmax
  obtain ⟨hwrite, hread, -, hin⟩ := h hmax
  have hp' : p ≠ STATE_INIT := by rintro rfl; exact absurd hp (by decide)
  have hn' : n ≠ STATE_INIT := by rintro rfl; exact absurd hn (by decide)
  exact ⟨⟨fun hd => absurd (hwrite.1 hd) hp', fun hd => absurd hd hn'⟩,
    ⟨fun hd => absurd (hread.1 hd) hp', fun hd => absurd hd hn'⟩, fun hd => absurd hn hd,
    ⟨fun hd => absurd hp (hin.1 hd), fun hd => absurd hn hd⟩⟩

/-- The sync manager of the outputs, or in PREOP and below the one of the inputs, is disabled. -/
theorem Channels.disable (h : Channels p s) (hsized : Exchanges p → Sized s) :
    Channels p { s with pdiDisabled := pdChannel disableSyncManChannel s } := by
  intro hmax
  obtain ⟨hwrite, hread, hout, hin⟩ := h hmax
  show (pdChannel disableSyncManChannel s MAILBOX_WRITE = true ↔ _) ∧ (pdChannel disableSyncManChannel s MAILBOX_READ = true ↔ _) ∧
    (_ → pdChannel disableSyncManChannel s PROCESS_DATA_OUT = true) ∧
      (pdChannel disableSyncManChannel s PROCESS_DATA_IN = true ↔ _)
  unfold pdChannel
  split
  · exact ⟨hwrite, hread, fun _ => rfl, hin⟩
  rename_i hzero
  have hlow : ¬ Exchanges p := fun hp => hzero (by rw [(hsized hp).2]; decide)
  split
  · exact ⟨hwrite, hread, hout, fun _ => hlow, fun _ => rfl⟩
  · exact ⟨hwrite, hread, hout, hin⟩

/-- Where process data are exchanged, the sync manager of the outputs is the one that is switched. -/
theorem Channels.enable (h : Channels p s) (hp : Exchanges p) (hsized : Sized s) :
    Channels p { s with pdiDisabled := pdChannel enableSyncManChannel s } := by
  intro hmax
  obtain ⟨hwrite, hread, -, hin⟩ := h hmax
  have heq : pdChannel enableSyncManChannel s = update s.pdiDisabled PROCESS_DATA_OUT false :=
    if_pos (by rw [hsized.2]; decide)
  dsimp only
  rw [heq]
  exact ⟨hwrite, hread, fun hn => absurd hp hn, hin⟩

/-! ### The way down -/

/-- With the sizes of the mapping, both sync managers of the process data are switched. -/
theorem pdChannels_sized (switch : ℕ → (ℕ → Bool) → ℕ → Bool) (h : Sized s) :
    pdChannels switch s = switch PROCESS_DATA_IN (switch PROCESS_DATA_OUT s.pdiDisabled) := by
  unfold pdChannels
  rw [h.1, h.2]
  rfl

theorem InState.stopOutput (h : InState STATE_OP s) : InState STATE_SAFEOP (stopOutputHandler s) :=
  ⟨flags_safeop (h.flags.mbx (by decide)) (h.flags.2.1.2 (by decide)) rfl, h.config.exchanges (by decide),
    h.channels.exchanges (by decide) (by decide)⟩

theorem InState.stopInput (h : InState STATE_SAFEOP s) : InState STATE_PREOP (stopInputHandler s) := by
  have hsized := (h.config.2 (by decide)).1
  refine ⟨flags_preop (h.flags.mbx (by decide)) rfl (h.flags.output (by decide)), h.config.preop (by decide),
    fun hmax => ?_⟩
  obtain ⟨hwrite, hread, -, -⟩ := h.channels hmax
  show (pdChannels disableSyncManChannel s MAILBOX_WRITE = true ↔ _) ∧
    (pdChannels disableSyncManChannel s MAILBOX_READ = true ↔ _) ∧
      (_ → pdChannels disableSyncManChannel s PROCESS_DATA_OUT = true) ∧
        (pdChannels disableSyncManChannel s PROCESS_DATA_IN = true ↔ _)
  rw [pdChannels_sized _ hsized]
  exact ⟨⟨fun hd => absurd (hwrite.1 hd) (by decide), fun hd => absurd hd (by decide)⟩,
    ⟨fun hd => absurd (hread.1 hd) (by decide), fun hd => absurd hd (by decide)⟩, fun _ => rfl,
    ⟨fun _ => by decide, fun _ => rfl⟩⟩

theorem InState.stopMailbox (h : InState STATE_PREOP s) : InState STATE_INIT (stopMailboxHandler s) := by
  refine ⟨flags_init rfl (h.flags.input (by decide)) (h.flags.output (by decide)), config_init, fun hmax => ?_⟩
  obtain ⟨-, -, hout, hin⟩ := h.channels hmax
  exact ⟨⟨fun _ => rfl, fun _ => rfl⟩, ⟨fun _ => rfl, fun _ => rfl⟩, fun _ => hout (by decide),
    ⟨fun _ => by decide, fun _ => hin.2 (by decide)⟩⟩

theorem InState.leaveOp (h : InState p s) :
    InState (if p = STATE_OP then STATE_SAFEOP else p) (leaveOp s) := by
  have hsized : Exchanges p → Sized s := fun hp => (h.config.2 hp).1
  unfold Ecat.leaveOp
  dsimp only
  by_cases hp : p = STATE_OP
  · subst hp
    have hstop := h.stopOutput
    rw [if_pos rfl, if_pos (h.flags.2.2.2 rfl)]
    exact ⟨hstop.flags, hstop.config, hstop.channels.disable fun _ => hsized (by decide)⟩
  · rw [if_neg hp, h.flags.output hp]
    exact ⟨h.flags, h.config, h.channels.disable hsized⟩

/-! ### The handlers of the way up -/

/-- What the handlers for a higher state can do: all is started, or nothing is left running. -/
def Started (p n : UInt8) (s : Esm) (out : UInt16 × Esm) : Prop :=
  Frame s out.2 ∧ (out.1 = 0 ∧ InState n out.2 ∨ Failed out.1 ∧ InState p out.2)

theorem startMailbox_ok (hload : (updateEepromLoadedState e s).eepromLoaded = true)
    (h : mbxStartMailboxHandler e (updateEepromLoadedState e s) = (0, s')) :
    startMailbox e s = (0, { s' with bApplEsmPending := false, bMbxRunning := true }) := by
  unfold startMailbox
  dsimp only
  rw [if_neg (by rw [hload]; decide), h]
  rfl

theorem startMailbox_failed (hload : (updateEepromLoadedState e s).eepromLoaded = true)
    (h : mbxStartMailboxHandler e (updateEepromLoadedState e s) = (result, s')) (hresult : Failed result) :
    startMailbox e s = (result, stopMailboxHandler s') := by
  unfold startMailbox
  dsimp only
  rw [if_neg (by rw [hload]; decide), h]
  dsimp only
  rw [if_neg hresult.1]
  dsimp only
  rw [if_pos hresult]

theorem startMailbox_cases (h : Clean STATE_INIT s)
    (hwrite : AreaOk (e.syncMan MAILBOX_WRITE).physicalStartAddress (e.syncMan MAILBOX_WRITE).length 0x22 0x100)
    (hread : AreaOk (e.syncMan MAILBOX_READ).physicalStartAddress (e.syncMan MAILBOX_READ).length 0x22 0x100) :
    Started STATE_INIT STATE_PREOP s (startMailbox e s) := by
  have heeprom : Failed ALSTATUSCODE_EE_ERROR := by decide
  have hmailbox : Failed ALSTATUSCODE_INVALIDMBXCFGINPREOP.toUInt16 := by decide
  have hin := h.within.flags.input (by decide)
  have hout := h.within.flags.output (by decide)
  have hmbx : s.bMbxRunning = false := Bool.eq_false_iff.2 fun hm => h.within.flags.1.1 hm rfl
  cases hload : (updateEepromLoadedState e s).eepromLoaded with
  | false =>
    have heq : startMailbox e s = (ALSTATUSCODE_EE_ERROR, updateEepromLoadedState e s) := if_pos hload
    rw [heq]
    exact ⟨Frame.refl, .inr ⟨heeprom, flags_init hmbx hin hout, config_init, h.within.channels⟩⟩
  | true =>
    by_cases hoverlap : Overlap (e.syncMan MAILBOX_WRITE).physicalStartAddress.toNat
        (e.syncMan MAILBOX_WRITE).length.toNat (e.syncMan MAILBOX_READ).physicalStartAddress.toNat
        (e.syncMan MAILBOX_READ).length.toNat
    · rw [startMailbox_failed hload (if_pos hoverlap) hmailbox]
      refine ⟨Frame.refl, .inr ⟨hmailbox, flags_init rfl hin hout, config_init, fun hmax => ?_⟩⟩
      obtain ⟨-, -, hpout, hpin⟩ := h.within.channels hmax
      exact ⟨⟨fun _ => rfl, fun _ => rfl⟩, ⟨fun _ => rfl, fun _ => rfl⟩, hpout, hpin⟩
    · rw [startMailbox_ok hload (if_neg hoverlap)]
      refine ⟨Frame.refl, .inl ⟨rfl, flags_preop rfl hin hout, ⟨fun _ => ⟨hwrite, hread, hoverlap⟩,
        fun h => absurd h (by decide)⟩, fun hmax => ?_⟩⟩
      obtain ⟨-, -, hpout, hpin⟩ := h.within.channels hmax
      exact ⟨⟨fun hd => (by cases hd), fun hd => absurd hd (by decide)⟩,
        ⟨fun hd => (by cases hd), fun hd => absurd hd (by decide)⟩, fun _ => hpout (by decide),
        ⟨fun _ => by decide, fun _ => hpin.2 (by decide)⟩⟩

/-- The areas of the process data are those of the registers, and they were found not to overlap. -/
def AreasTaken (e : Regs) (s : Esm) : Prop :=
  s.nEscAddrOutputData = (e.syncMan PROCESS_DATA_OUT).physicalStartAddress ∧
    s.nEscAddrInputData = (e.syncMan PROCESS_DATA_IN).physicalStartAddress ∧
      ¬ inputsOverlap s (e.syncMan PROCESS_DATA_IN).buffers ∧ ¬ outputsOverlap s (e.syncMan PROCESS_DATA_OUT).buffers

/-- What `StartInputHandler` leaves as it is. -/
def InputFrame (s s' : Esm) : Prop :=
  Frame s s' ∧ s'.bMbxRunning = s.bMbxRunning ∧ s'.bEcatInputUpdateRunning = s.bEcatInputUpdateRunning ∧
    s'.bEcatOutputUpdateRunning = s.bEcatOutputUpdateRunning ∧ s'.u16EscAddrReceiveMbx = s.u16EscAddrReceiveMbx ∧
      s'.u16ReceiveMbxSize = s.u16ReceiveMbxSize ∧ s'.u16EscAddrSendMbx = s.u16EscAddrSendMbx ∧
        s'.u16SendMbxSize = s.u16SendMbxSize ∧ s'.nPdInputSize = s.nPdInputSize ∧ s'.nPdOutputSize = s.nPdOutputSize

theorem checkDc_cases (e : Regs) : e.checkDc = 0 ∨ Failed e.checkDc := by
  have hsync : Failed ALSTATUSCODE_DCINVALIDSYNCCFG := by decide
  have hcycle : Failed ALSTATUSCODE_DCSYNC0CYCLETIME := by decide
  unfold Regs.checkDc
  split
  · exact .inl rfl
  iterate 3
    split
    · exact .inr hsync
  split
  · exact .inr hcycle
  split
  · exact .inr hsync
  · exact .inl rfl

/-- The sync managers are switched at the end only. -/
theorem startInputHandler_cases (e : Regs) (s : Esm) :
    InputFrame s (startInputHandler e s).2 ∧
      ((startInputHandler e s).1 = 0 ∧ AreasTaken e (startInputHandler e s).2 ∧
          (startInputHandler e s).2.pdiDisabled = pdChannels enableSyncManChannel s ∨
        Failed (startInputHandler e s).1 ∧ (startInputHandler e s).2.pdiDisabled = s.pdiDisabled) := by
  have hin : Failed ALSTATUSCODE_INVALIDSMINCFG.toUInt16 := by decide
  have hout : Failed ALSTATUSCODE_INVALIDSMOUTCFG.toUInt16 := by decide
  have hsync : Failed ALSTATUSCODE_DCINVALIDSYNCCFG := by decide
  have hfree : Failed ALSTATUSCODE_FREERUNNEEDS3BUFFERMODE := by decide
  have hwd : Failed ALSTATUSCODE_INVALIDWDCFG := by decide
  have hframe : ∀ a b c, InputFrame s { s with
      u16ALEventMask := a, bEcatFirstOutputsReceived := false, nEscAddrOutputData := b, nEscAddrInputData := c } :=
    fun _ _ _ => ⟨Frame.refl, rfl, rfl, rfl, rfl, rfl, rfl, rfl, rfl, rfl⟩
  unfold startInputHandler
  dsimp only
  split
  · exact ⟨hframe _ _ _, .inr ⟨hin, rfl⟩⟩
  rename_i hinputs
  split
  · exact ⟨hframe _ _ _, .inr ⟨hout, rfl⟩⟩
  rename_i houtputs
  split
  · rename_i hdc
    exact ⟨hframe _ _ _, .inr ⟨(checkDc_cases e).resolve_left hdc, rfl⟩⟩
  split
  · exact ⟨hframe _ _ _, .inr ⟨hsync, rfl⟩⟩
  split
  · exact ⟨hframe _ _ _, .inr ⟨hfree, rfl⟩⟩
  split
  · exact ⟨⟨Frame.refl, rfl, rfl, rfl, rfl, rfl, rfl, rfl, rfl, rfl⟩, .inr ⟨hwd, rfl⟩⟩
  · exact ⟨⟨Frame.refl, rfl, rfl, rfl, rfl, rfl, rfl, rfl, rfl, rfl⟩,
      .inl ⟨rfl, ⟨rfl, rfl, hinputs, houtputs⟩, rfl⟩⟩

theorem startInput_ok (h : startInputHandler e s = (0, s')) :
    startInput e s = (0, { s' with
      bApplEsmPending := false, alEventMask := s'.alEventMask ||| s'.u16ALEventMask, bEcatInputUpdateRunning := true }) := by
  unfold startInput
  rw [h]
  rfl

theorem startInput_failed (h : startInputHandler e s = (result, s')) (hresult : Failed result) :
    startInput e s = (result, stopInputHandler s') := by
  unfold startInput
  rw [h]
  dsimp only
  rw [if_neg hresult.1]
  dsimp only
  rw [if_pos hresult]

/-- The addresses are those that were checked when the slave was still in PREOP. -/
theorem AreasTaken.areaOk (h : AreasTaken e s') (hdata : DataChecked e s) (hstatus : s.nAlStatus = STATE_PREOP)
    (hsized : Sized s) (hin : s'.nPdInputSize = s.nPdInputSize) (hout : s'.nPdOutputSize = s.nPdOutputSize) :
    AreaOk s'.nEscAddrInputData s'.nPdInputSize 4 4 ∧ AreaOk s'.nEscAddrOutputData s'.nPdOutputSize 4 4 := by
  obtain ⟨hodd, hodd', hinput, houtput⟩ := hdata
  obtain ⟨hout', hin', -, -⟩ := h
  have haddress : ∀ q : SyncMan, ∀ a, AddressOk s q 0x1000 0x2FFF a →
      0x1000 ≤ q.physicalStartAddress.toNat ∧ q.physicalStartAddress.toNat ≤ 0x2FFF := by
    rintro q a (⟨-, hlow, hhigh⟩ | ⟨hne, -⟩)
    · rw [UInt16.le_iff_toNat_le] at hlow hhigh
      exact ⟨hlow, hhigh⟩
    · exact absurd hstatus hne
  have hsize : (4 : UInt16).toNat = 4 := rfl
  rw [hin, hout, hin', hout', hsized.1, hsized.2]
  rw [hsized.1] at hinput
  rw [hsized.2] at houtput
  exact ⟨⟨⟨(SyncMan.even hodd).1, rfl⟩, ⟨hsize.ge, hsize.le⟩, haddress _ _ (hinput (by decide)).2⟩,
    ⟨⟨(SyncMan.even hodd').1, rfl⟩, ⟨hsize.ge, hsize.le⟩, haddress _ _ (houtput (by decide)).2⟩⟩

theorem startInput_cases (h : Clean STATE_PREOP s) (hchecked : Checked e PREOP_2_SAFEOP s) :
    Started STATE_PREOP STATE_SAFEOP s (startInput e s) ∧
      ((startInput e s).1 = 0 → AreasTaken e (startInput e s).2) := by
  have hmbx := h.within.flags.mbx (by decide)
  have hout := h.within.flags.output (by decide)
  have hsized : Sized s := hchecked.sized rfl
  obtain ⟨⟨hframe, hm, -, ho, hra, hrs, hsa, hss, hi, hos⟩, hcase⟩ := startInputHandler_cases e s
  cases hstart : startInputHandler e s with | mk result s' =>
  rw [hstart] at hframe hm ho hra hrs hsa hss hi hos hcase
  dsimp only at hframe hm ho hra hrs hsa hss hi hos hcase
  have hsized' : Sized s' := ⟨hi.trans hsized.1, hos.trans hsized.2⟩
  have hmax : 4 ≤ s'.nMaxSyncMan.toNat → 4 ≤ s.nMaxSyncMan.toNat := fun hmax => by rwa [← hframe.2.2.2.2.2]
  have hmailbox : AreaOk s'.u16EscAddrReceiveMbx s'.u16ReceiveMbxSize 0x22 0x100 ∧
      AreaOk s'.u16EscAddrSendMbx s'.u16SendMbxSize 0x22 0x100 ∧
        ¬ Overlap s'.u16EscAddrReceiveMbx.toNat s'.u16ReceiveMbxSize.toNat s'.u16EscAddrSendMbx.toNat
          s'.u16SendMbxSize.toNat := by
    rw [hra, hrs, hsa, hss]
    exact h.within.config.1 (by decide)
  obtain ⟨hresult, htaken, hdisabled⟩ | ⟨hresult, hdisabled⟩ := hcase
  · subst hresult
    rw [startInput_ok hstart]
    refine ⟨⟨hframe, .inl ⟨rfl, flags_safeop (hm.trans hmbx) rfl (ho.trans hout), ⟨fun _ => hmailbox,
      fun _ => ⟨hsized', fun hmax' => ?_⟩⟩, fun hmax' => ?_⟩⟩, fun _ => htaken⟩
    · exact htaken.areaOk (hchecked.data (by decide) (hmax hmax')) h.status hsized hi hos
    · obtain ⟨hwrite, hread, -, -⟩ := h.within.channels (hmax hmax')
      dsimp only
      rw [hdisabled, pdChannels_sized _ hsized]
      exact ⟨⟨fun hd => absurd (hwrite.1 hd) (by decide), fun hd => absurd hd (by decide)⟩,
        ⟨fun hd => absurd (hread.1 hd) (by decide), fun hd => absurd hd (by decide)⟩, fun hn => absurd (by decide) hn,
        ⟨fun hd => (by cases hd), fun hn => absurd (by decide) hn⟩⟩
  · rw [startInput_failed hstart hresult]
    refine ⟨⟨hframe, .inr ⟨hresult, flags_preop (hm.trans hmbx) rfl (ho.trans hout), ⟨fun _ => hmailbox,
      fun h => absurd h (by decide)⟩, fun hmax' => ?_⟩⟩, fun h0 => absurd h0 hresult.1⟩
    obtain ⟨hwrite, hread, -, -⟩ := h.within.channels (hmax hmax')
    show (pdChannels disableSyncManChannel s' MAILBOX_WRITE = true ↔ _) ∧
      (pdChannels disableSyncManChannel s' MAILBOX_READ = true ↔ _) ∧
        (_ → pdChannels disableSyncManChannel s' PROCESS_DATA_OUT = true) ∧
          (pdChannels disableSyncManChannel s' PROCESS_DATA_IN = true ↔ _)
    rw [pdChannels_sized _ hsized', hdisabled]
    exact ⟨hwrite, hread, fun _ => rfl, ⟨fun _ => by decide, fun _ => rfl⟩⟩

/-- A transition to OP is never completed at once, and its wait for the PLL is restarted. -/
theorem startOutput_cases (h : Clean STATE_SAFEOP s) :
    Frame s (startOutput s).2 ∧ InState STATE_SAFEOP (startOutput s).2 ∧
      ((startOutput s).1 = NOERROR_INWORK ∧ (startOutput s).2.bApplEsmPending = s.bApplEsmPending ∧
          (s.u16LocalErrorCode ≠ NOERROR_INWORK → (startOutput s).2.bDcSyncActive = true →
            (startOutput s).2.i16WaitForPllRunningTimeout = 200 ∧ (startOutput s).2.i16WaitForPllRunningCnt = 0) ∨
        Failed (startOutput s).1) := by
  cases hlocal : s.bLocalErrorFlag with
  | false =>
    have heq : startOutput s = (NOERROR_INWORK,
        if s.bDcSyncActive then { s with i16WaitForPllRunningTimeout := 200, i16WaitForPllRunningCnt := 0 } else s) := by
      unfold startOutput startOutputHandler
      rw [hlocal]
      rfl
    rw [heq]
    dsimp only
    split
    · exact ⟨Frame.refl, ⟨h.within.flags, h.within.config, h.within.channels⟩, .inl ⟨rfl, rfl, fun _ _ => ⟨rfl, rfl⟩⟩⟩
    · rename_i hdc
      exact ⟨Frame.refl, h.within, .inl ⟨rfl, rfl, fun _ hdc' => absurd hdc' hdc⟩⟩
  | true =>
    have hcode := h.code hlocal
    have heq : startOutput s = (s.u16LocalErrorCode, if Failed s.u16LocalErrorCode then stopOutputHandler s else s) := by
      unfold startOutput startOutputHandler
      rw [hlocal]
      dsimp only
      rw [if_pos rfl]
      dsimp only
      rw [if_neg hcode]
    rw [heq]
    dsimp only
    split
    · rename_i hfailed
      have hmbx := h.within.flags.mbx (by decide)
      have hin := h.within.flags.2.1.2 (by decide)
      exact ⟨Frame.refl, ⟨flags_safeop hmbx hin rfl, h.within.config, h.within.channels⟩, .inr hfailed⟩
    · rename_i hfailed
      have hinWork : s.u16LocalErrorCode = NOERROR_INWORK := by_contra fun hne => hfailed ⟨hcode, hne⟩
      exact ⟨Frame.refl, h.within, .inl ⟨hinWork, rfl, fun hne => absurd hinWork hne⟩⟩

end Ecat
end Dcs
