import Dcs.EsmWait
import Dcs.EscWords

/-!
# Checks that fail, and errors in OP

What a wrong configuration leads to, where the checks let one pass, and what is stopped when an error happens in
OP.
-/

namespace Dcs
namespace Ecat

variable {s s' : Esm} {a : EsmAction} {e : Regs} {c n p : UInt8} {code result : UInt16} {t : ℕ} {ack err : Bool}
  {as : List EsmAction}

/-! ### The areas of the process data -/

/-- With `outputsOverlap` taken for one input buffer, this is what it misses. -/
theorem overlap_buffers {out inp outs ins : ℕ} (h : ¬ Overlap out outs inp 4) (houts : 0 < outs) :
    Overlap out outs inp ins ↔ inp + 4 ≤ out ∧ out < inp + ins := by
  unfold Overlap at h ⊢
  omega

theorem SyncMan.buffers_pos (q : SyncMan) : 1 ≤ q.buffers := by
  unfold buffers
  split <;> decide

/-- In the step to SAFEOP the areas of inputs and outputs, with all their buffers, are found not to overlap the
mailboxes. They may still overlap each other: exactly when the outputs begin in the second or third buffer of the
inputs. -/
theorem areas_overlap_iff (h : s.Reachable) (hen : s.Enabled a) (hp : s.state = STATE_PREOP)
    (hn : (s.next a).state = STATE_SAFEOP) : ∃ e value, a = .alControl e value ∧
      let out := (s.next a).nEscAddrOutputData.toNat
      let inp := (s.next a).nEscAddrInputData.toNat
      let outs := 4 * (e.syncMan PROCESS_DATA_OUT).buffers
      let ins := 4 * (e.syncMan PROCESS_DATA_IN).buffers
      let receive := (s.next a).u16EscAddrReceiveMbx.toNat
      let send := (s.next a).u16EscAddrSendMbx.toNat
      out = (e.syncMan PROCESS_DATA_OUT).physicalStartAddress.toNat ∧
      inp = (e.syncMan PROCESS_DATA_IN).physicalStartAddress.toNat ∧
      ¬ Overlap inp ins send (s.next a).u16SendMbxSize.toNat ∧
      ¬ Overlap inp ins receive (s.next a).u16ReceiveMbxSize.toNat ∧
      ¬ Overlap out outs send (s.next a).u16SendMbxSize.toNat ∧
      ¬ Overlap out outs receive (s.next a).u16ReceiveMbxSize.toNat ∧
      (Overlap out outs inp ins ↔ inp + 4 ≤ out ∧ out < inp + ins) := by
  obtain ⟨n, err, hshows⟩ := h.inv.shows
  have hnp : n = STATE_PREOP := hshows.state_eq.symm.trans hp
  have hdoes := next_cases hshows h.inv.settled hen
  generalize s.next a = s' at hn hdoes ⊢
  have hrequests : a.Requests STATE_SAFEOP := by
    obtain hle | ⟨-, hrequests, -⟩ | ⟨hop, -⟩ := hdoes.state hshows
    · rw [hn, hnp] at hle
      exact absurd hle (by decide)
    · rwa [hn] at hrequests
    · rw [hn] at hop
      exact absurd hop (by decide)
  have htaken : ∃ e value, a = .alControl e value ∧ AreasTaken e s' ∧ Sized s' := by
    cases hdoes with
    | quiet hquiet =>
      have hstate : s'.state = s.state := by unfold Esm.state; rw [hquiet.status]
      rw [hn, hp] at hstate
      exact absurd hstate (by decide)
    | @asked e c code _ hask _ houtcome _ =>
      have hcause : ∃ value, a = .alControl e value ∧ c = value.toUInt8 := by
        cases hask with
        | alControl => exact ⟨_, rfl, rfl⟩
        | _ => exact hrequests.elim
      obtain ⟨value, rfl, rfl⟩ := hcause
      refine ⟨e, value, rfl, ?_⟩
      cases houtcome with
      | moved hmove hsettled _ htaken =>
        have hc : value.toUInt8 &&& STATE_MASK = STATE_SAFEOP := hrequests
        rw [hc] at hsettled
        exact ⟨htaken hc hnp, (hsettled.within.config.2 (by decide)).1⟩
      | same hc hsettled _ =>
        rw [hsettled.unmasked.1, hnp] at hn
        exact absurd hn (by decide)
      | refused _ _ hsettled _ =>
        rw [hsettled.unmasked.1, hnp] at hn
        exact absurd hn (by decide)
      | lowered _ hsettled _ =>
        rw [hsettled.unmasked.1] at hn
        obtain hfallen | hfallen := fallen_cases n _ <;> rw [hfallen] at hn <;> exact absurd hn (by decide)
      | pending hsafe _ _ _ _ _ =>
        rw [hnp] at hsafe
        exact absurd hsafe (by decide)
    | responded ha _ _ _ =>
      rw [ha] at hrequests
      exact hrequests.elim
  obtain ⟨e, value, ha, ⟨hout, hin, hinputs, houtputs⟩, hsized⟩ := htaken
  have hfour : (4 : UInt16).toNat = 4 := rfl
  unfold inputsOverlap at hinputs
  unfold outputsOverlap at houtputs
  rw [hsized.1, hfour] at hinputs
  rw [hsized.1, hsized.2, hfour] at houtputs
  rw [not_or] at hinputs
  rw [not_or, not_or] at houtputs
  have houts := (e.syncMan PROCESS_DATA_OUT).buffers_pos
  exact ⟨e, value, ha, by rw [hout], by rw [hin], hinputs.1, hinputs.2, houtputs.1, houtputs.2.1,
    overlap_buffers houtputs.2.2 (by omega)⟩

/-- The outputs begin in the second buffer of the inputs. -/
def Esm.mixedRegs : Regs := { Esm.regs with
  syncMan
    | 2 => ⟨0x1204, 4, 0x64, 1⟩
    | i => Esm.regs.syncMan i }

def Esm.preop : Esm := Esm.system.run Esm.started Esm.toPreop

theorem areas_overlap_iff_mixed : (Esm.preop.next (.alControl Esm.mixedRegs 4)).state = STATE_SAFEOP ∧
    Overlap (Esm.preop.next (.alControl Esm.mixedRegs 4)).nEscAddrOutputData.toNat
      (4 * (Esm.mixedRegs.syncMan PROCESS_DATA_OUT).buffers)
      (Esm.preop.next (.alControl Esm.mixedRegs 4)).nEscAddrInputData.toNat
      (4 * (Esm.mixedRegs.syncMan PROCESS_DATA_IN).buffers) := by
  have hsafeop : (Esm.preop.next (.alControl Esm.mixedRegs 4)).state = STATE_SAFEOP := by decide
  obtain ⟨e, value, ha, -, -, -, -, -, -, hiff⟩ := areas_overlap_iff (a := .alControl Esm.mixedRegs 4)
    (Esm.reachable_run Esm.toPreop (by decide)) (by decide) (by decide) hsafeop
  injection ha with he _
  rw [← he] at hiff
  exact ⟨hsafeop, hiff.2 (by decide)⟩

/-! ### Settings that do not pass the checks -/

/-- The variables as they are when `AL_ControlInd` checks the sync managers. -/
def Esm.asked (s : Esm) : Esm := { s with nAlStatus := s.state, esmTimeoutCounter := -1, bApplEsmPending := true }

/-- The result of these checks when `c` is requested. -/
def smResult (e : Regs) (c : UInt8) (s : Esm) : UInt16 := (smSettings e (s.state <<< 4 + c).toNat s.asked).1

theorem alControlInd_eq (e : Regs) (code : UInt16) (hshows : Shows n err s) (hignored : ¬ Ignored c err) :
    ∃ ack, alControlInd e c code s = request e (c &&& STATE_MASK) code ack s.asked := by
  obtain ⟨hflag, hmask, herr⟩ := hshows.unmasked
  unfold alControlInd Esm.asked Esm.state
  dsimp only
  split
  · rw [hflag, hmask]
    exact ⟨true, rfl⟩
  split
  · rename_i hack hcond
    exact absurd ⟨herr.1 hcond.1, not_not.1 hack, hcond.2⟩ hignored
  · exact ⟨false, rfl⟩

theorem Shows.asked (h : Shows n err s) : Clean n s.asked :=
  ⟨h.state_eq, h.state, ⟨h.within.flags, h.within.config, h.within.channels⟩, h.code⟩

theorem request_failed (e : Regs) (code : UInt16) (ack : Bool) (h : Clean p s) (hc : c.toNat < 16)
    (hr : (smSettings e (s.nAlStatus <<< 4 + c).toNat s).1 = result)
    (hresult : result ≠ 0) :
    Settled (fallen p result) (decide (c ≠ fallen p result)) (request e c code ack s) ∧
      (request e c code ack s).alStatusCode = if c = fallen p result then 0 else result := by
  have ht : (s.nAlStatus <<< 4 + c).toNat = 16 * p.toNat + c.toNat := by rw [h.status]; exact stateTrans_eq h.state hc
  have hsm := smSettings_cases e (16 * p.toNat + c.toNat) s
  unfold request
  rw [ht] at hr ⊢
  dsimp only
  generalize smSettings e (16 * p.toNat + c.toNat) s = out at hsm hr ⊢
  obtain ⟨r, s₁⟩ := out
  obtain ⟨i, o, b, w, rfl, hsizes, ⟨herror, -⟩ | ⟨hzero, -⟩⟩ := hsm
  · dsimp only at herror hr ⊢
    subst hr
    rw [if_neg hresult]
    exact herror.settled (h.settings i o b w hc hsizes)
  · exact absurd (hr.symm.trans hzero) hresult

/-- Wrong settings of the sync managers lead to PREOP or to INIT. They are reported with their code, and with the error
flag, unless the state they lead to is the one that the master has requested: then nothing is reported. -/
theorem sm_error_reported (e : Regs) (value : UInt16) (h : s.Reachable) (hignored : ¬ Ignored value.toUInt8 s.Error)
    (hresult : smResult e (value.toUInt8 &&& STATE_MASK) s ≠ 0) :
    let c := value.toUInt8 &&& STATE_MASK
    let n := fallen s.state (smResult e c s)
    let s' := s.next (.alControl e value)
    s'.state = n ∧ (s'.Error ↔ c ≠ n) ∧ s'.alStatus = s'.nAlStatus.toUInt16 ∧
      s'.alStatusCode = (if c = n then 0 else smResult e c s) := by
  obtain ⟨n, err, hshows⟩ := h.inv.shows
  have herr : decide s.Error = err := by
    rw [Bool.eq_iff_iff, decide_eq_true_eq]
    exact hshows.error_iff
  rw [herr] at hignored
  obtain ⟨ack, heq⟩ := alControlInd_eq e 0 hshows hignored
  obtain ⟨hsettled, hcode⟩ := request_failed e 0 ack hshows.asked (mask_lt value.toUInt8) rfl hresult
  have hnext : s.next (.alControl e value) = request e (value.toUInt8 &&& STATE_MASK) 0 ack s.asked := heq
  dsimp only
  rw [hnext, hshows.state_eq]
  obtain ⟨hstate, herror⟩ := hsettled.unmasked
  exact ⟨hstate, by rw [herror, decide_eq_true_eq]; rfl, hsettled.register, hcode⟩

/-- In PREOP the master writes an odd length for the mailbox and requests PREOP again. -/
theorem sm_error_reported_odd : (Esm.preop.next (.alControl Esm.badRegs 2)).state = STATE_PREOP ∧
    ¬ (Esm.preop.next (.alControl Esm.badRegs 2)).Error := by
  obtain ⟨hstate, herror, -, -⟩ := sm_error_reported Esm.badRegs 2
    (Esm.reachable_run Esm.toPreop (by decide)) (by decide) (by decide)
  exact ⟨hstate, fun h => absurd (herror.1 h) (by decide)⟩

/-! ### Errors in OP -/

/-- The outputs are stopped, none count as received, and the master cannot write new ones. -/
def OutputsOff (s : Esm) : Prop :=
  s.bEcatOutputUpdateRunning = false ∧ s.bEcatFirstOutputsReceived = false ∧ s.pdiDisabled PROCESS_DATA_OUT = true

theorem OutputsOff.leaveOp (h : OutputsOff s) : OutputsOff (leaveOp s) := by
  have hdisabled : ∀ s : Esm, s.pdiDisabled PROCESS_DATA_OUT = true →
      pdChannel disableSyncManChannel s PROCESS_DATA_OUT = true := fun s hd => by
    unfold pdChannel
    split
    · rfl
    split
    · exact hd
    · exact hd
  unfold Ecat.leaveOp
  rw [h.1]
  exact ⟨h.1, h.2.1, hdisabled s h.2.2⟩

theorem OutputsOff.conclude (h : OutputsOff s) : OutputsOff (conclude c code result t s) :=
  conclude_keeps (fun _ h => h.leaveOp) (fun _ _ _ h => h) (fun _ _ _ h => h) h

theorem fallBack_outputsOff (h : Clean STATE_OP s) (result : UInt16) : OutputsOff (fallBack result s) := by
  have hsized : Sized (stopOutputHandler s) := (h.within.config.2 (by decide)).1
  have hoff : OutputsOff (stopInputHandler (stopOutputHandler s)) := by
    refine ⟨rfl, rfl, ?_⟩
    show pdChannels disableSyncManChannel (stopOutputHandler s) PROCESS_DATA_OUT = true
    rw [pdChannels_sized _ hsized]
    rfl
  unfold fallBack
  rw [if_pos h.status]
  unfold backToPreop
  split
  · exact hoff
  · exact hoff

/-- The end of a request that leaves OP for an error. -/
theorem conclude_outputsOff (h : Clean STATE_OP s) (hcode : code ≠ 0) :
    OutputsOff (conclude STATE_SAFEOP code 0 t (stopOutput s)) := by
  have hsized := (h.within.config.2 (by decide)).1
  have hout : 0 < (stopOutput s).nPdOutputSize := by
    show 0 < s.nPdOutputSize
    rw [hsized.2]
    decide
  have hne : STATE_SAFEOP ≠ (stopOutput s).nAlStatus &&& STATE_MASK := by
    show STATE_SAFEOP ≠ s.nAlStatus &&& STATE_MASK
    rw [h.status]
    decide
  have hcond : ((0 : UInt16) ≠ 0 ∨ code ≠ 0) ∧ (STATE_SAFEOP ||| (stopOutput s).nAlStatus) &&& STATE_OP ≠ 0 := by
    refine ⟨.inr hcode, ?_⟩
    show (STATE_SAFEOP ||| s.nAlStatus) &&& STATE_OP ≠ 0
    rw [h.status]
    decide
  have hleave : OutputsOff (leaveOp (stopOutput s)) := by
    refine ⟨rfl, rfl, ?_⟩
    show pdChannel disableSyncManChannel (stopOutput s) PROCESS_DATA_OUT = true
    unfold pdChannel
    rw [if_pos hout]
    rfl
  unfold conclude
  rw [if_neg (by decide), if_pos hne]
  dsimp only
  rw [if_pos hcond, if_neg (by decide), if_pos hcode]
  exact hleave

theorem request_outputsOff (h : Clean STATE_OP s) (hcode : code ≠ 0) :
    OutputsOff (request e STATE_SAFEOP code ack s) := by
  have ht : (s.nAlStatus <<< 4 + STATE_SAFEOP).toNat = OP_2_SAFEOP := by rw [h.status]; rfl
  have hsm := smSettings_cases e OP_2_SAFEOP s
  unfold request
  rw [ht]
  dsimp only
  generalize smSettings e OP_2_SAFEOP s = out at hsm ⊢
  obtain ⟨r, s₁⟩ := out
  obtain ⟨i, o, b, w, rfl, hsizes, -⟩ := hsm
  have hclean := h.settings i o b w (by decide : STATE_SAFEOP.toNat < 16) hsizes
  dsimp only
  split
  · exact conclude_outputsOff (hclean.trans 0) hcode
  · exact (fallBack_outputsOff hclean r).conclude

/-- When the process data watchdog has expired in OP, or with distributed clocks the sync signal has failed, the check
in the main loop takes the slave out of OP in the same call: an error is shown, the outputs are stopped, and the
master cannot write new ones. -/
theorem error_leaves_op (h : s.Reachable) (hop : s.state = STATE_OP)
    (herror : WdExpired e s ∨ s.bDcSyncActive = true ∧ (s.bDcRunning = false ∨ s.bSmSyncSequenceValid = false)) :
    (s.next (.checkError e)).state < STATE_OP ∧ (s.next (.checkError e)).Error ∧
      OutputsOff (s.next (.checkError e)) := by
  obtain ⟨n, err, hshows⟩ := h.inv.shows
  obtain rfl : n = STATE_OP := hshows.state_eq.symm.trans hop
  have hrun := hshows.within.flags.2.2.2 rfl
  have hcall : ∃ code, code ≠ 0 ∧ checkIfEcatError e s = alControlInd e STATE_SAFEOP code s := by
    unfold checkIfEcatError
    by_cases hwd : WdExpired e s
    · rw [if_pos hwd, if_pos hrun]
      exact ⟨_, by decide, rfl⟩
    · rw [if_neg hwd]
      obtain ⟨hdc, hsync⟩ := herror.resolve_left hwd
      unfold checkSyncError
      rw [if_pos ⟨hdc, hrun⟩]
      split
      · exact ⟨_, by decide, rfl⟩
      · rename_i hdcRun
        have hvalid : s.bSmSyncSequenceValid = false := hsync.resolve_left fun hf => by
          rw [hf] at hdcRun
          exact hdcRun (by decide)
        rw [if_pos (by rw [hvalid]; decide)]
        exact ⟨_, by decide, rfl⟩
  obtain ⟨code, hcode, heq⟩ := hcall
  have herr : err = false := by
    obtain ⟨m, err', hsettled⟩ | hw := h.inv.settled
    · have hm : m = STATE_OP := hsettled.unmasked.1.symm.trans hop
      have herror' : s.Error ↔ err = true := hshows.error_iff
      rw [hsettled.unmasked.2, hsettled.op hm] at herror'
      exact Bool.eq_false_iff.2 fun ht => absurd (herror'.2 ht) (by decide)
    · exact absurd (hw.unmasked.1.symm.trans hop) (by decide)
  have hignored : ¬ Ignored STATE_SAFEOP err := by
    rw [herr]
    decide
  obtain ⟨ack, hrequest⟩ := alControlInd_eq e code hshows hignored
  have hmask : STATE_SAFEOP &&& STATE_MASK = STATE_SAFEOP := by decide
  rw [hmask] at hrequest
  have hoff : OutputsOff (request e STATE_SAFEOP code ack s.asked) := request_outputsOff hshows.asked hcode
  have houtcome : Outcome e STATE_OP _ code s (alControlInd e STATE_SAFEOP code s) :=
    (alControlInd_cases hshows hignored).1
  rw [hmask] at houtcome
  show (checkIfEcatError e s).state < STATE_OP ∧ (checkIfEcatError e s).Error ∧ OutputsOff (checkIfEcatError e s)
  rw [heq]
  rw [← hrequest] at hoff
  generalize alControlInd e STATE_SAFEOP code s = s' at houtcome hoff ⊢
  cases houtcome with
  | moved _ hsettled _ _ =>
    rw [hsettled.unmasked.1, hsettled.unmasked.2]
    exact ⟨by decide, decide_eq_true hcode, hoff⟩
  | same hc _ _ => exact absurd hc (by decide)
  | refused _ _ hsettled _ =>
    rw [hsettled.unmasked.1, hsettled.unmasked.2]
    exact ⟨by decide, rfl, hoff⟩
  | @lowered r _ _ hsettled _ =>
    rw [hsettled.unmasked.1, hsettled.unmasked.2]
    obtain hfallen | hfallen := fallen_cases STATE_OP r
    · rw [hfallen]
      exact ⟨by decide, by decide, hoff⟩
    · rw [hfallen]
      exact ⟨by decide, by decide, hoff⟩
  | pending hp _ _ _ _ _ => exact absurd hp (by decide)

/-- The registers of a controller whose watchdog has expired. -/
def Esm.wdRegs : Regs := { Esm.regs with pdWdState := 0 }

def Esm.op : Esm := Esm.system.run Esm.started Esm.toOp

theorem error_leaves_op_wd : OutputsOff (Esm.op.next (.checkError Esm.wdRegs)) :=
  (error_leaves_op (Esm.reachable_run Esm.toOp (by decide)) (by decide) (.inl (by decide))).2.2

/-! ### The sync manager of the outputs -/

/-- The sync manager of the outputs is not enabled. -/
def StaysDisabled (s s' : Esm) : Prop := s.pdiDisabled PROCESS_DATA_OUT = true → s'.pdiDisabled PROCESS_DATA_OUT = true

theorem pdChannels_disable (s : Esm) (h : s.pdiDisabled PROCESS_DATA_OUT = true) :
    pdChannels disableSyncManChannel s PROCESS_DATA_OUT = true ∧
      pdChannel disableSyncManChannel s PROCESS_DATA_OUT = true := by
  unfold pdChannels pdChannel
  constructor
  · split <;> split <;> first | rfl | exact h
  · split
    · rfl
    split
    · exact h
    · exact h

theorem stopInput_staysDisabled (s : Esm) : StaysDisabled s (stopInputHandler s) := fun h => (pdChannels_disable s h).1

theorem conclude_staysDisabled (h : StaysDisabled s s') : StaysDisabled s (conclude c code result t s') := by
  refine conclude_keeps (fun s' h => ?_) (fun _ _ _ h => h) (fun _ _ _ h => h) h
  unfold leaveOp
  dsimp only
  split
  · exact fun hd => (pdChannels_disable (stopOutputHandler s') (h hd)).2
  · exact fun hd => (pdChannels_disable s' (h hd)).2

theorem fallBack_staysDisabled (result : UInt16) (s : Esm) : StaysDisabled s (fallBack result s) := by
  have hback : ∀ s' : Esm, StaysDisabled s' (backToPreop result s') := fun s' => by
    unfold backToPreop
    split
    · exact fun hd => hd
    · exact fun hd => hd
  unfold fallBack
  split
  · exact fun hd => hback _ (stopInput_staysDisabled (stopOutputHandler s) hd)
  split
  · exact fun hd => hback _ (stopInput_staysDisabled s hd)
  split
  · exact hback s
  · exact fun hd => hd

theorem startMailbox_staysDisabled (e : Regs) (s : Esm) : StaysDisabled s (startMailbox e s).2 := by
  unfold startMailbox mbxStartMailboxHandler
  dsimp only
  split
  · exact fun hd => hd
  split
  · exact fun hd => hd
  · exact fun hd => hd

theorem startOutput_staysDisabled (s : Esm) : StaysDisabled s (startOutput s).2 := by
  have hhandler : StaysDisabled s (startOutputHandler s).2 := by
    unfold startOutputHandler
    split
    · exact fun hd => hd
    · dsimp only
      split <;> exact fun hd => hd
  unfold startOutput
  generalize startOutputHandler s = out at hhandler ⊢
  obtain ⟨result, s'⟩ := out
  dsimp only
  by_cases hresult : result = 0
  · rw [if_pos hresult]
    dsimp only
    split <;> exact hhandler
  · rw [if_neg hresult]
    dsimp only
    split <;> exact hhandler

/-- The services that may enable it are those of the step to SAFEOP, and those without a change of the state. -/
theorem services_staysDisabled (e : Regs) (ack : Bool) (s : Esm)
    (ht : t ∉ [INIT_2_INIT, PREOP_2_PREOP, PREOP_2_SAFEOP, SAFEOP_2_SAFEOP, OP_2_OP]) :
    StaysDisabled s (services e ack t s).2.2 := by
  have hoff : applStopOutputHandler = 0 ∧ applStopInputHandler = 0 := ⟨rfl, rfl⟩
  unfold services
  rw [hoff.1, hoff.2]
  split
  case h_3 => exact startMailbox_staysDisabled e s
  case h_5 => exact startOutput_staysDisabled s
  case h_7 => exact fun hd => stopInput_staysDisabled (stopOutput s) hd
  case h_8 => exact stopInput_staysDisabled s
  case h_9 => exact fun hd => stopInput_staysDisabled (stopOutput s) hd
  case h_10 => exact stopInput_staysDisabled s
  case h_4 | h_12 | h_13 | h_14 | h_15 => exact absurd (by decide) ht
  all_goals exact fun hd => hd

theorem request_staysDisabled (h : Clean p s) (hlt : c < p) (hc : c.toNat < 16) :
    StaysDisabled s (request e c code ack s) := by
  have ht : (s.nAlStatus <<< 4 + c).toNat = 16 * p.toNat + c.toNat := by rw [h.status]; exact stateTrans_eq h.state hc
  have hnot : 16 * p.toNat + c.toNat ∉ [INIT_2_INIT, PREOP_2_PREOP, PREOP_2_SAFEOP, SAFEOP_2_SAFEOP, OP_2_OP] := by
    have hp : p.toNat = 1 ∨ p.toNat = 2 ∨ p.toNat = 4 ∨ p.toNat = 8 := by
      obtain rfl | rfl | rfl | rfl := h.state <;> decide
    rw [UInt8.lt_iff_toNat_lt] at hlt
    simp only [INIT_2_INIT, PREOP_2_PREOP, PREOP_2_SAFEOP, SAFEOP_2_SAFEOP, OP_2_OP, List.mem_cons, List.not_mem_nil,
      or_false, not_or]
    omega
  obtain ⟨i, o, b, w, hs, -⟩ := smSettings_cases e (16 * p.toNat + c.toNat) s
  have hdisabled : (smSettings e (16 * p.toNat + c.toNat) s).2.pdiDisabled = s.pdiDisabled := by rw [hs]
  unfold request
  rw [ht]
  dsimp only
  generalize smSettings e (16 * p.toNat + c.toNat) s = out at hdisabled ⊢
  obtain ⟨r, s₁⟩ := out
  dsimp only at hdisabled ⊢
  have hkept : StaysDisabled s s₁ := fun hd => by rw [hdisabled]; exact hd
  split
  · exact conclude_staysDisabled fun hd => services_staysDisabled e ack { s₁ with nEcatStateTrans := 0 } hnot (hkept hd)
  · exact conclude_staysDisabled fun hd => fallBack_staysDisabled r s₁ (hkept hd)

theorem alControlInd_staysDisabled (hshows : Shows n err s) (hlt : c &&& STATE_MASK < n) :
    StaysDisabled s (alControlInd e c code s) := by
  by_cases hignored : Ignored c err
  · rw [alControlInd_ignored hshows hignored]
    exact fun hd => hd
  · obtain ⟨ack, heq⟩ := alControlInd_eq e code hshows hignored
    have hrequest : StaysDisabled s.asked (request e (c &&& STATE_MASK) code ack s.asked) :=
      request_staysDisabled hshows.asked hlt (mask_lt c)
    rw [heq]
    exact fun hd => hrequest hd

/-- Neither the master nor a sync manager has caused the call. -/
def EsmAction.Local : EsmAction → Prop
  | .alControl _ _ | .smChange _ | .smDisabled _ => False
  | _ => True

instance : ∀ a : EsmAction, Decidable a.Local
  | .alControl _ _ | .smChange _ | .smDisabled _ => inferInstanceAs (Decidable False)
  | .controlRes | .timer | .checkError _ | .outputs _ | .sync0 _ | .sync1 | .write _ _ _ _ | .stateChange _ _ _ =>
    inferInstanceAs (Decidable True)

theorem Inv.staysDisabled (h : Inv s) (hen : s.Enabled a) (ha : a.Local) : StaysDisabled s (s.next a) := by
  obtain ⟨n, err, hshows⟩ := h.shows
  cases a with
  | alControl e value => exact ha.elim
  | smChange e => exact ha.elim
  | smDisabled e => exact ha.elim
  | controlRes =>
    have hw := waiting_of_waits h.settled hen
    show StaysDisabled s (alControlRes s)
    unfold alControlRes
    rw [hw.waits, if_neg (by simp)]
    split
    · rw [expired_eq hw]
      exact fun hd => hd
    · obtain ⟨-, k, j, heq⟩ | ⟨-, heq⟩ := complete_cases hw
      · rw [heq]
        exact fun hd => hd
      · rw [heq]
        exact fun hd => hd
  | timer =>
    obtain ⟨_, _, _, _, _, heq, -⟩ := ecatCheckTimer_eq s
    show StaysDisabled s (ecatCheckTimer s)
    rw [heq]
    exact fun hd => hd
  | checkError e =>
    have hask : ∀ code, s.bEcatOutputUpdateRunning = true → StaysDisabled s (alControlInd e STATE_SAFEOP code s) :=
      fun code hrun => alControlInd_staysDisabled hshows (by rw [hshows.within.flags.2.2.1 hrun]; decide)
    have hsync : StaysDisabled s (checkSyncError e s) := by
      unfold checkSyncError
      split
      · rename_i hcond
        split
        · exact hask _ hcond.2
        split
        · exact hask _ hcond.2
        · exact fun hd => hd
      · exact fun hd => hd
    show StaysDisabled s (checkIfEcatError e s)
    unfold checkIfEcatError
    by_cases hwd : WdExpired e s
    · rw [if_pos hwd]
      by_cases hrun : s.bEcatOutputUpdateRunning = true
      · rw [if_pos hrun]
        exact hask _ hrun
      · have hself : checkSyncError e { s with bEcatFirstOutputsReceived := false } =
            { s with bEcatFirstOutputsReceived := false } := if_neg fun hcond => hrun hcond.2
        rw [if_neg hrun, hself]
        exact fun hd => hd
    · rw [if_neg hwd]
      exact hsync
  | outputs missed => exact fun hd => hd
  | sync0 missed => exact fun hd => hd
  | sync1 => exact fun hd => hd
  | write out inp limit user => exact fun hd => hd
  | stateChange e alStatus code =>
    show StaysDisabled s (ecatStateChange e alStatus code s)
    unfold ecatStateChange
    by_cases hwait : s.bEcatWaitForAlControlRes = true
    · have hw := waiting_of_waits h.settled hwait
      rw [if_pos hwait, if_pos hw.pending]
      split <;> exact fun hd => hd
    rw [if_neg hwait]
    by_cases hcode : code = 0
    · have hnever : s.nAlStatus &&& STATE_MASK ≠ STATE_SAFEOP ||| STATE_OP := by
        rw [hshows.unmasked.2.1]
        obtain rfl | rfl | rfl | rfl := hshows.state <;> decide
      rw [if_neg (not_not.2 hcode), if_neg hnever]
      split <;> exact fun hd => hd
    · have hshows' := hshows.localError hcode
      rw [if_pos hcode]
      dsimp only
      split
      · rename_i hlt
        rw [hshows.unmasked.2.1] at hlt
        exact fun hd => alControlInd_staysDisabled hshows' hlt hd
      · exact fun hd => hd

/-- Once the sync manager of the outputs is disabled, nothing that the slave does by itself enables it again. This holds of
`ECAT_StateChange`, too, with which the application says that its error is gone. -/
theorem outputs_stay_disabled (h : s.Reachable) (hd : s.pdiDisabled PROCESS_DATA_OUT = true)
    (has : Esm.system.Runs (fun _ a => a.Local) s as) :
    (Esm.system.run s as).pdiDisabled PROCESS_DATA_OUT = true := by
  refine (has.invariant (I := fun s' => Inv s' ∧ s'.pdiDisabled PROCESS_DATA_OUT = true) ?_ ⟨h.inv, hd⟩).2
  rintro s' a ⟨hinv, hd⟩ hen ha
  exact ⟨hinv.next hen, hinv.staysDisabled hen ha hd⟩

/-- The application reports an error in OP, and the master acknowledges it. -/
def Esm.failed : Esm := Esm.system.run Esm.started (Esm.toOp ++
  [EsmAction.stateChange Esm.regs 4 0x99, EsmAction.alControl Esm.regs 0x14])

theorem outputs_stay_disabled_failed :
    (Esm.system.run Esm.failed [.stateChange Esm.regs 8 0, .timer]).pdiDisabled PROCESS_DATA_OUT = true :=
  outputs_stay_disabled (Esm.reachable_run _ (by decide)) (by decide) (by decide)

/-! ### Without events -/

def AL_CONTROL_EVENT : UInt16 := 0x0001
def SM_CHANGE_EVENT : UInt16 := 0x0010

/-- The events for which `ECAT_Main` looks in this register. -/
def EsmAction.Notified (alEventReg : UInt16) : EsmAction → Prop
  | .alControl _ _ => alEventReg &&& AL_CONTROL_EVENT ≠ 0
  | .smChange _ => alEventReg &&& SM_CHANGE_EVENT ≠ 0
  | _ => True

instance (alEventReg : UInt16) : ∀ a : EsmAction, Decidable (a.Notified alEventReg)
  | .alControl _ _ | .smChange _ => inferInstanceAs (Decidable (_ ≠ _))
  | .smDisabled _ | .controlRes | .timer | .checkError _ | .outputs _ | .sync0 _ | .sync1 | .write _ _ _ _
  | .stateChange _ _ _ => inferInstanceAs (Decidable True)

/-- With the event register that `hw.c` returns, the slave never leaves INIT, whatever the master writes. -/
theorem stays_init {s₀ : Esm} (hstart : s₀.Start)
    (has : Esm.system.Runs (fun _ a => a.Notified hwGetALEventRegister) s₀ as) :
    (Esm.system.run s₀ as).state = STATE_INIT := by
  have hstate : s₀.state = STATE_INIT := by
    unfold Esm.state
    rw [hstart.status]
    decide
  refine (has.invariant (I := fun s => Inv s ∧ s.state = STATE_INIT) ?_ ⟨hstart.inv, hstate⟩).2
  rintro s a ⟨hinv, hs⟩ hen hnotified
  obtain ⟨n, err, hshows⟩ := hinv.shows
  obtain rfl : n = STATE_INIT := hshows.state_eq.symm.trans hs
  have hinv' : Inv (s.next a) := hinv.next hen
  obtain ⟨n', err', hshows'⟩ := hinv'.shows
  refine ⟨hinv', ?_⟩
  show (s.next a).state = _
  obtain hle | ⟨-, hrequests, -⟩ | ⟨-, -, -, hw, -⟩ := (next_cases hshows hinv.settled hen).state hshows
  · rw [hshows'.state_eq] at hle ⊢
    obtain rfl | rfl | rfl | rfl := hshows'.state
    · rfl
    all_goals exact absurd hle (by decide)
  · cases a with
    | alControl e value => exact absurd rfl hnotified
    | _ => exact hrequests.elim
  · rw [hw.unmasked.1] at hs
    exact absurd hs (by decide)

theorem stays_init_poll : (Esm.system.run Esm.started [.timer, .outputs 0, .checkError Esm.regs,
    .stateChange Esm.regs 2 0x99]).state = STATE_INIT :=
  stays_init Esm.started_start (by decide)

end Ecat
end Dcs
