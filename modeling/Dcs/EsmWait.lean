import Dcs.EsmLadder

/-!
# The wait for OP

How long the slave waits, and for what: the timer ends the wait, the PLL has to be valid for 200 ticks with
distributed clocks, and without them outputs have to be received.
-/

namespace Dcs
namespace Ecat

variable {s s' : Esm} {a : EsmAction} {e : Regs} {c n : UInt8} {code result : UInt16} {t : ℕ} {ack err : Bool}
  {as : List EsmAction}

def EsmAction.isTimer : EsmAction → Bool
  | .timer => true
  | _ => false

/-! ### The flag of the first outputs -/

/-- No outputs are taken for received that were not. -/
def NoOutputs (s s' : Esm) : Prop := s'.bEcatFirstOutputsReceived = true → s.bEcatFirstOutputsReceived = true

theorem startMailbox_noOutputs (e : Regs) (s : Esm) : NoOutputs s (startMailbox e s).2 := by
  unfold startMailbox mbxStartMailboxHandler
  dsimp only
  split
  · exact fun h => h
  split
  · exact fun h => h
  · exact fun h => h

theorem startInputHandler_first (e : Regs) (s : Esm) : (startInputHandler e s).2.bEcatFirstOutputsReceived = false := by
  unfold startInputHandler
  dsimp only
  split
  · rfl
  split
  · rfl
  split
  · rfl
  split
  · rfl
  split
  · rfl
  split
  · rfl
  · rfl

theorem startInput_noOutputs (e : Regs) (s : Esm) : NoOutputs s (startInput e s).2 := by
  have hfirst := startInputHandler_first e s
  unfold startInput
  generalize startInputHandler e s = out at hfirst ⊢
  obtain ⟨result, s'⟩ := out
  have hnever : NoOutputs s s' := fun h => by
    dsimp only at hfirst
    rw [hfirst] at h
    cases h
  dsimp only
  by_cases hresult : result = 0
  · rw [if_pos hresult]
    dsimp only
    split
    · exact fun h => (by cases h)
    · exact hnever
  · rw [if_neg hresult]
    dsimp only
    split
    · exact fun h => (by cases h)
    · exact hnever

theorem startOutput_noOutputs (s : Esm) : NoOutputs s (startOutput s).2 := by
  have hfirst : NoOutputs s (startOutputHandler s).2 := by
    unfold startOutputHandler
    split
    · exact fun h => h
    · dsimp only
      split <;> exact fun h => h
  unfold startOutput
  generalize startOutputHandler s = out at hfirst ⊢
  obtain ⟨result, s'⟩ := out
  dsimp only
  by_cases hresult : result = 0
  · rw [if_pos hresult]
    dsimp only
    split
    · exact fun h => (by cases h)
    · exact hfirst
  · rw [if_neg hresult]
    dsimp only
    split
    · exact fun h => (by cases h)
    · exact hfirst

theorem NoOutputs.stopped (h : s'.bEcatFirstOutputsReceived = false) : NoOutputs s s' := fun h' => by
  rw [h] at h'
  cases h'

theorem NoOutputs.kept (h : s'.bEcatFirstOutputsReceived = s.bEcatFirstOutputsReceived) : NoOutputs s s' := fun h' => by
  rwa [h] at h'

theorem services_noOutputs (e : Regs) (ack : Bool) (t : ℕ) (s : Esm) : NoOutputs s (services e ack t s).2.2 := by
  have hsame : ∀ t s, (sameState ack t s).2.bEcatFirstOutputsReceived = s.bEcatFirstOutputsReceived := fun t s => by
    cases ack <;> rfl
  unfold services
  split
  any_goals dsimp only
  all_goals
    first
    | with_reducible exact startMailbox_noOutputs e s
    | with_reducible exact startInput_noOutputs e s
    | with_reducible exact startOutput_noOutputs s
    | with_reducible exact .kept (hsame _ s)
    | with_reducible exact .kept (hsame _ (backToInitTransition s))
    | exact .stopped rfl
    | exact .kept rfl

theorem fallBack_noOutputs (result : UInt16) (s : Esm) : NoOutputs s (fallBack result s) := by
  unfold fallBack backToPreop
  split
  · split <;> exact fun h => (by cases h)
  split
  · split <;> exact fun h => (by cases h)
  split
  · split <;> exact fun h => h
  · exact fun h => h

theorem conclude_noOutputs (h : NoOutputs s s') : NoOutputs s (conclude c code result t s') := by
  refine conclude_keeps (fun s' h => ?_) (fun _ _ _ h => h) (fun _ _ _ h => h) h
  unfold leaveOp
  dsimp only
  split
  · exact fun h => (by cases h)
  · exact h

theorem request_noOutputs (e : Regs) (c : UInt8) (code : UInt16) (ack : Bool) (s : Esm) :
    NoOutputs s (request e c code ack s) := by
  obtain ⟨i, o, b, w, hs, -⟩ := smSettings_cases e (s.nAlStatus <<< 4 + c).toNat s
  have hfirst : (smSettings e (s.nAlStatus <<< 4 + c).toNat s).2.bEcatFirstOutputsReceived = s.bEcatFirstOutputsReceived := by
    rw [hs]
  unfold request
  dsimp only
  generalize smSettings e (s.nAlStatus <<< 4 + c).toNat s = out at hfirst ⊢
  obtain ⟨r, s₁⟩ := out
  dsimp only at hfirst ⊢
  have hkept : NoOutputs s s₁ := .kept hfirst
  split
  · exact conclude_noOutputs fun h => hkept (services_noOutputs e ack _ { s₁ with nEcatStateTrans := 0 } h)
  · exact conclude_noOutputs fun h => hkept (fallBack_noOutputs r s₁ h)

theorem alControlInd_noOutputs (e : Regs) (c : UInt8) (code : UInt16) (s : Esm) :
    NoOutputs s (alControlInd e c code s) := by
  have hrequest : ∀ ack st, NoOutputs s (request e (c &&& STATE_MASK) code ack
      { s with esmTimeoutCounter := -1, bApplEsmPending := true, nAlStatus := st }) :=
    fun ack st => request_noOutputs e (c &&& STATE_MASK) code ack _
  unfold alControlInd
  dsimp only
  split
  · exact hrequest true _
  split
  · exact .kept rfl
  · exact hrequest false _

theorem checkIfEcatError_noOutputs (e : Regs) (s : Esm) : NoOutputs s (checkIfEcatError e s) := by
  have hsync : ∀ s, NoOutputs s (checkSyncError e s) := fun s => by
    unfold checkSyncError
    split
    · split
      · exact alControlInd_noOutputs _ _ _ _
      split
      · exact alControlInd_noOutputs _ _ _ _
      · exact fun h => h
    · exact fun h => h
  unfold checkIfEcatError
  split
  · split
    · exact alControlInd_noOutputs _ _ _ _
    · exact fun h => absurd (hsync { s with bEcatFirstOutputsReceived := false } h) (by simp)
  · exact hsync s

theorem ecatStateChange_noOutputs (e : Regs) (alStatus : UInt8) (code : UInt16) (s : Esm) :
    NoOutputs s (ecatStateChange e alStatus code s) := by
  have hreject : ∀ s, NoOutputs s (rejectPending s) := fun s => by
    unfold rejectPending
    split
    · exact .kept rfl
    · exact .kept rfl
    · exact .stopped rfl
    · exact .stopped rfl
    · exact .kept rfl
  have haccept : ∀ s, NoOutputs s (acceptPending s) := fun s => by
    unfold acceptPending
    split <;> exact .kept rfl
  have hask : ∀ k, NoOutputs s (alControlInd e alStatus k { s with bLocalErrorFlag := true, u16LocalErrorCode := k }) :=
    fun k => alControlInd_noOutputs e alStatus k _
  unfold ecatStateChange
  split
  · split
    · split <;> exact .kept rfl
    split
    · exact fun h => hreject { s with bLocalErrorFlag := true, u16LocalErrorCode := code } h
    · exact fun h => haccept s h
  split
  · dsimp only
    split
    · exact hask code
    · exact .kept rfl
  split <;> exact .kept rfl

theorem Inv.noOutputs (h : Inv s) (hen : s.Enabled a) (ha : ∀ k, a ≠ .outputs k) : NoOutputs s (s.next a) := by
  cases a with
  | alControl e value => exact alControlInd_noOutputs _ _ _ _
  | smChange e => exact alControlInd_noOutputs _ _ _ _
  | smDisabled e => exact alControlInd_noOutputs _ _ _ _
  | controlRes =>
    have hw := waiting_of_waits h.settled hen
    show NoOutputs s (alControlRes s)
    unfold alControlRes
    rw [hw.waits, if_neg (by simp)]
    split
    · rw [expired_eq hw]
      unfold resolve
      exact .stopped rfl
    · obtain ⟨-, k, j, heq⟩ | ⟨-, heq⟩ := complete_cases hw
      · rw [heq]
        exact .kept rfl
      · rw [heq]
        exact .kept rfl
  | timer =>
    obtain ⟨_, _, _, _, _, heq, -⟩ := ecatCheckTimer_eq s
    show NoOutputs s (ecatCheckTimer s)
    rw [heq]
    exact .kept rfl
  | checkError e => exact checkIfEcatError_noOutputs e s
  | outputs missed => exact absurd rfl (ha missed)
  | sync0 missed => exact .kept rfl
  | sync1 => exact .kept rfl
  | write out inp limit user => exact .kept rfl
  | stateChange e alStatus alStatusCode => exact ecatStateChange_noOutputs _ _ _ _

/-- As long as no outputs are received, the slave gets to OP with distributed clocks only. -/
theorem outputs_needed (h : s.Reachable) (hfirst : s.bEcatFirstOutputsReceived = false)
    (has : Esm.system.Runs (fun _ a => ∀ k, a ≠ .outputs k) s as) (hen : (Esm.system.run s as).Enabled a)
    (hbefore : (Esm.system.run s as).state ≠ STATE_OP) (hop : ((Esm.system.run s as).next a).state = STATE_OP) :
    (Esm.system.run s as).bDcSyncActive = true := by
  obtain ⟨hreach, hfirst'⟩ : (Esm.system.run s as).Reachable ∧
      (Esm.system.run s as).bEcatFirstOutputsReceived = false := by
    refine has.invariant (I := fun s' => s'.Reachable ∧ s'.bEcatFirstOutputsReceived = false) ?_ ⟨h, hfirst⟩
    rintro s' a ⟨hreach, hf⟩ hen ha
    refine ⟨hreach.step hen trivial, Bool.eq_false_iff.2 fun ht => ?_⟩
    rw [hreach.inv.noOutputs hen ha ht] at hf
    cases hf
  obtain ⟨n, err, hshows⟩ := hreach.inv.shows
  have hup : (Esm.system.run s as).state < ((Esm.system.run s as).next a).state := by
    rw [hop]
    rw [hshows.state_eq] at hbefore ⊢
    obtain rfl | rfl | rfl | rfl := hshows.state
    · decide
    · decide
    · decide
    · exact absurd rfl hbefore
  obtain ⟨-, ⟨hrise, -⟩ | ⟨-, -, -, -, hready⟩⟩ := rises hreach hen hup
  · rw [hop] at hrise
    obtain ⟨-, hr⟩ | ⟨-, hr⟩ := hrise <;> exact absurd hr (by decide)
  · unfold ReadyForOp at hready
    split at hready
    · assumption
    · rw [hfirst'] at hready
      cases hready

/-- The registers of a master with distributed clocks, without a watchdog for the sync signal. -/
def Esm.dcRegs : Regs := { Esm.regs with dcControl := 0x300 }

def Esm.dcSafeop : Esm := Esm.system.run Esm.started [.alControl Esm.dcRegs 2, .alControl Esm.dcRegs 4]

def Esm.dcWait : Esm := Esm.dcSafeop.next (.alControl Esm.dcRegs 8)

theorem outputs_needed_dc :
    (Esm.system.run Esm.dcWait (List.replicate 200 EsmAction.timer)).bDcSyncActive = true := by
  have hruns : Esm.system.Runs (fun _ a => EsmAction.isTimer a = true) Esm.dcWait
      (List.replicate 200 EsmAction.timer) := by decide +kernel
  have hreach : Esm.dcWait.Reachable :=
    Esm.reachable_run [.alControl Esm.dcRegs 2, .alControl Esm.dcRegs 4, .alControl Esm.dcRegs 8] (by decide)
  have hquiet : Esm.system.Runs (fun _ a => ∀ k, a ≠ .outputs k) Esm.dcWait (List.replicate 200 EsmAction.timer) :=
    hruns.mono fun _ a ha k hk => by rw [hk] at ha; cases ha
  exact outputs_needed (a := .controlRes) hreach (by decide) hquiet (by decide +kernel) (by decide +kernel)
    (by decide +kernel)

/-! ### The timer -/

/-- One step of a slave that goes on waiting: the time is taken back by the timer at least, and the PLL counter
is counted up by the timer only. -/
structure WaitStep (s : Esm) (a : EsmAction) (s' : Esm) : Prop where
  dc : s'.bDcSyncActive = s.bDcSyncActive
  pll : s'.i16WaitForPllRunningTimeout = s.i16WaitForPllRunningTimeout
  cnt : s'.i16WaitForPllRunningCnt = s.i16WaitForPllRunningCnt ∨
    a.isTimer = true ∧ (s'.i16WaitForPllRunningCnt = s.i16WaitForPllRunningCnt + 1 ∨ s'.i16WaitForPllRunningCnt = 0)
  time : s'.esmTimeoutCounter = 0 ∨ s'.esmTimeoutCounter + (if a.isTimer then 1 else 0) ≤ s.esmTimeoutCounter

theorem WaitStep.of_eq (hdc : s'.bDcSyncActive = s.bDcSyncActive)
    (hpll : s'.i16WaitForPllRunningTimeout = s.i16WaitForPllRunningTimeout)
    (hcnt : s'.i16WaitForPllRunningCnt = s.i16WaitForPllRunningCnt) (ha : a.isTimer = false)
    (htime : s'.esmTimeoutCounter = 0 ∨ s'.esmTimeoutCounter = s.esmTimeoutCounter) : WaitStep s a s' where
  dc := hdc
  pll := hpll
  cnt := .inl hcnt
  time := htime.imp id fun h => by rw [h, ha]; simp

/-- A change of a sync manager ends the wait. -/
theorem Waiting.ask_same (h : Waiting s) (hcode : CodeSet s) :
    (alControlInd e (s.nAlStatus &&& STATE_MASK) 0 s).bEcatWaitForAlControlRes = false := by
  have hshows := h.shows hcode
  have hignored : ¬ Ignored (s.nAlStatus &&& STATE_MASK) false := fun hig => absurd hig.1 (by decide)
  have hmask : s.nAlStatus &&& STATE_MASK &&& STATE_MASK = STATE_SAFEOP := by rw [h.status]; rfl
  have houtcome : Outcome e STATE_SAFEOP _ 0 s (alControlInd e _ 0 s) := (alControlInd_cases hshows hignored).1
  rw [hmask] at houtcome
  cases houtcome with
  | moved hmove _ _ _ => exact absurd rfl hmove.ne
  | same _ hsettled _ => exact hsettled.waiting
  | refused hc _ _ _ => exact absurd rfl hc
  | lowered _ hsettled _ => exact hsettled.waiting
  | pending _ hc _ _ _ _ => exact absurd hc (by decide)

theorem Waiting.step (h : Waiting s) (hcode : CodeSet s) (hen : s.Enabled a)
    (hwaits : (s.next a).bEcatWaitForAlControlRes = true) : WaitStep s a (s.next a) := by
  have hnot : s.bEcatWaitForAlControlRes ≠ false := by rw [h.waits]; decide
  cases a with
  | alControl e value => exact absurd hen hnot
  | smChange e => exact absurd hen.1 hnot
  | smDisabled e =>
    have hends : (alControlInd e (s.nAlStatus &&& STATE_MASK) 0 s).bEcatWaitForAlControlRes = false := h.ask_same hcode
    exact absurd hwaits (by rw [Bool.not_eq_true]; exact hends)
  | controlRes =>
    have hstays : alControlRes s = s := by
      have hwaits' : (alControlRes s).bEcatWaitForAlControlRes = true := hwaits
      generalize hs' : alControlRes s = s' at hwaits'
      have hresponded := (alControlRes_cases h).1
      rw [hs'] at hresponded
      cases hresponded with
      | timedOut _ hsettled _ => rw [hsettled.waiting] at hwaits'; cases hwaits'
      | toOp _ _ hsettled _ => rw [hsettled.waiting] at hwaits'; cases hwaits'
      | waits _ _ => rfl
    show WaitStep s _ (alControlRes s)
    rw [hstays]
    exact .of_eq rfl rfl rfl rfl (.inr rfl)
  | timer =>
    obtain ⟨r, c₀, c₁, v, k, heq, hk⟩ := ecatCheckTimer_eq s
    show WaitStep s _ (ecatCheckTimer s)
    rw [heq]
    refine ⟨rfl, rfl, hk.imp id fun hk => ⟨rfl, hk⟩, ?_⟩
    have hleft := h.time.1
    have htimer : EsmAction.timer.isTimer = true := rfl
    by_cases hpos : 0 < s.esmTimeoutCounter
    · rw [if_pos ⟨h.waits, hpos⟩, if_pos htimer]
      exact .inr (Int.sub_add_cancel _ 1).le
    · rw [if_neg fun hcond => hpos hcond.2]
      exact .inl (Int.le_antisymm (Int.not_lt.1 hpos) hleft)
  | checkError e =>
    have hrun : ¬ s.bEcatOutputUpdateRunning = true := by rw [h.within.flags.output (by decide)]; decide
    have hsync : ∀ b, checkSyncError e { s with bEcatFirstOutputsReceived := b } =
        { s with bEcatFirstOutputsReceived := b } := fun b => if_neg fun hr => hrun hr.2
    show WaitStep s _ (checkIfEcatError e s)
    unfold checkIfEcatError
    by_cases hwd : WdExpired e s
    · rw [if_pos hwd, if_neg hrun, hsync false]
      exact .of_eq rfl rfl rfl rfl (.inr rfl)
    · have hself : checkSyncError e s = s := hsync s.bEcatFirstOutputsReceived
      rw [if_neg hwd, hself]
      exact .of_eq rfl rfl rfl rfl (.inr rfl)
  | outputs missed => exact .of_eq rfl rfl rfl rfl (.inr rfl)
  | sync0 missed => exact .of_eq rfl rfl rfl rfl (.inr rfl)
  | sync1 => exact .of_eq rfl rfl rfl rfl (.inr rfl)
  | write out inp limit user => exact .of_eq rfl rfl rfl rfl (.inr rfl)
  | stateChange e alStatus alStatusCode =>
    show WaitStep s _ (ecatStateChange e alStatus alStatusCode s)
    unfold ecatStateChange
    rw [if_pos h.waits, if_pos h.pending]
    split
    · exact .of_eq rfl rfl rfl rfl (.inl rfl)
    · exact .of_eq rfl rfl rfl rfl (.inr rfl)

/-- The slave goes on waiting. -/
def Waits (s : Esm) (a : EsmAction) : Prop := (s.next a).bEcatWaitForAlControlRes = true

instance (s : Esm) (a : EsmAction) : Decidable (Waits s a) := inferInstanceAs (Decidable (_ = _))

theorem Inv.wait_next (h : Inv s) (hen : s.Enabled a) (hwaits : Waits s a) : Inv (s.next a) ∧ Waiting (s.next a) :=
  ⟨h.next hen, waiting_of_waits (h.next hen).settled hwaits⟩

/-- A transition to OP that is in work ends: when as many ticks of the timer as were left have passed, the next call
of `AL_ControlRes` takes the slave back to SAFEOP and shows an error. With distributed clocks it is that they do
not run, or that no outputs were received, or else that they are not synchronous; without them it is that no
outputs were received. The code with which the application may have cut the wait short has no part in it. -/
theorem wait_ends (h : s.Reachable) (hwait : s.bEcatWaitForAlControlRes = true)
    (has : Esm.system.Runs Waits s as) (hticks : s.esmTimeoutCounter ≤ as.countP EsmAction.isTimer) :
    Settled STATE_SAFEOP true ((Esm.system.run s as).next .controlRes) ∧
      ((Esm.system.run s as).next .controlRes).alStatusCode = timeoutCode (Esm.system.run s as) := by
  obtain ⟨-, hw, htime⟩ : Inv (Esm.system.run s as) ∧ Waiting (Esm.system.run s as) ∧
      ((Esm.system.run s as).esmTimeoutCounter = 0 ∨
        (Esm.system.run s as).esmTimeoutCounter + as.countP EsmAction.isTimer ≤ s.esmTimeoutCounter) := by
    refine has.history (I := fun as s' => Inv s' ∧ Waiting s' ∧
      (s'.esmTimeoutCounter = 0 ∨ s'.esmTimeoutCounter + as.countP EsmAction.isTimer ≤ s.esmTimeoutCounter)) ?_
      ⟨h.inv, waiting_of_waits h.inv.settled hwait, .inr (by simp)⟩
    rintro as s' a ⟨hinv, hw, htime⟩ hen hwaits
    obtain ⟨hinv', hw'⟩ := hinv.wait_next hen hwaits
    have hstep := (hw.step hinv.code hen hwaits).time
    have hleft := hw.time.1
    have hleft' := hw'.time.1
    refine ⟨hinv', hw', ?_⟩
    rw [List.countP_append, List.countP_singleton]
    show (s'.next a).esmTimeoutCounter = 0 ∨ (s'.next a).esmTimeoutCounter + _ ≤ _
    push_cast
    split at hstep <;> simp_all <;> omega
  have hzero : (Esm.system.run s as).esmTimeoutCounter = 0 := by
    have hleft := hw.time.1
    omega
  show Settled STATE_SAFEOP true (alControlRes _) ∧ (alControlRes _).alStatusCode = _
  generalize hs' : alControlRes (Esm.system.run s as) = s'
  have hresponded := (alControlRes_cases hw).1
  rw [hs'] at hresponded
  cases hresponded with
  | timedOut _ hsettled hcode => exact ⟨hsettled, hcode⟩
  | toOp htime _ _ _ => exact absurd hzero htime
  | waits htime _ => exact absurd hzero htime

/-- Nothing happens but that time passes. -/
theorem Waiting.ticks (h : Waiting s) (k : ℕ) :
    Esm.system.Runs Waits s (List.replicate k .timer) ∧
      (Esm.system.run s (List.replicate k .timer)).bDcSyncActive = s.bDcSyncActive := by
  induction k generalizing s with
  | zero => exact ⟨trivial, rfl⟩
  | succ k ih =>
    have hnext : Waiting (Esm.system.next s .timer) := (Quiet.timer s).waiting h
    have hdc : (Esm.system.next s .timer).bDcSyncActive = s.bDcSyncActive := by
      obtain ⟨_, _, _, _, _, heq, -⟩ := ecatCheckTimer_eq s
      show (ecatCheckTimer s).bDcSyncActive = _
      rw [heq]
    rw [List.replicate_succ]
    exact ⟨⟨trivial, hnext.waits, (ih hnext).1⟩, (ih hnext).2.trans hdc⟩

/-- No outputs come, and there are no distributed clocks. -/
def Esm.silence : List EsmAction := List.replicate 8950 .timer

theorem wait_ends_silence :
    Settled STATE_SAFEOP true
        ((Esm.system.run (Esm.system.run Esm.started Esm.toWait) Esm.silence).next .controlRes) ∧
      ((Esm.system.run (Esm.system.run Esm.started Esm.toWait) Esm.silence).next .controlRes).alStatusCode =
        ALSTATUSCODE_SMWATCHDOG := by
  have hreach := Esm.reachable_run Esm.toWait (by decide)
  have hwait : (Esm.system.run Esm.started Esm.toWait).bEcatWaitForAlControlRes = true := by decide
  have hticks : (Esm.system.run Esm.started Esm.toWait).esmTimeoutCounter ≤ Esm.silence.countP EsmAction.isTimer := by
    rw [Esm.silence, List.countP_replicate]
    decide
  obtain ⟨hruns, hnone⟩ : Esm.system.Runs Waits (Esm.system.run Esm.started Esm.toWait) Esm.silence ∧
      (Esm.system.run (Esm.system.run Esm.started Esm.toWait) Esm.silence).bDcSyncActive = false :=
    (waiting_of_waits hreach.inv.settled hwait).ticks 8950
  obtain ⟨hsettled, hcode⟩ := wait_ends hreach hwait hruns hticks
  refine ⟨hsettled, hcode.trans ?_⟩
  unfold timeoutCode
  rw [hnone]
  rfl

/-! ### The PLL -/

theorem Int16.toInt_add_one_le (k : Int16) : (k + 1).toInt ≤ k.toInt + 1 := by
  have hk := k.toInt_lt
  have hk' := k.le_toInt
  have hone : (1 : Int16).toInt = 1 := rfl
  rw [Int16.toInt_add, hone, Int.bmod_def]
  split <;> omega

/-- With distributed clocks the slave is in OP 200 ticks of the timer after the request at the earliest, unless the
code of a local error is that of a transition in work. -/
theorem pll_needed {value : UInt16} (h : s.Reachable) (hlocal : s.u16LocalErrorCode ≠ NOERROR_INWORK)
    (hen : s.Enabled (.alControl e value)) (hs' : s' = s.next (.alControl e value))
    (hwait : s'.bEcatWaitForAlControlRes = true) (hdc : s'.bDcSyncActive = true)
    (has : Esm.system.Runs Waits s' as) (hop : ((Esm.system.run s' as).next .controlRes).state = STATE_OP) :
    200 ≤ as.countP EsmAction.isTimer := by
  have hinv' : Inv s' := hs' ▸ h.inv.next hen
  have hw' := waiting_of_waits hinv'.settled hwait
  have hpll : s'.i16WaitForPllRunningTimeout = 200 ∧ s'.i16WaitForPllRunningCnt = 0 := by
    have hsettled : ∀ {n err}, Settled n err s' → False := fun hsettled => by
      rw [hsettled.waiting] at hwait
      cases hwait
    obtain ⟨n, err, hshows⟩ := h.inv.shows
    have heq : alControlInd e value.toUInt8 0 s = s' := hs'.symm
    have hignored : ¬ Ignored value.toUInt8 err := fun hig => by
      rw [alControlInd_ignored hshows hig] at heq
      have hw : s.bEcatWaitForAlControlRes = false := hen
      rw [← heq] at hwait
      dsimp only at hwait
      rw [hw] at hwait
      cases hwait
    have houtcome : Outcome e n _ 0 s (alControlInd e _ 0 s) := (alControlInd_cases hshows hignored).1
    rw [heq] at houtcome
    cases houtcome with
    | moved _ hs _ _ => exact (hsettled hs).elim
    | same _ hs _ => exact (hsettled hs).elim
    | refused _ _ hs _ => exact (hsettled hs).elim
    | lowered _ hs _ => exact (hsettled hs).elim
    | pending _ _ _ _ _ hstarted => exact hstarted hlocal hdc
  obtain ⟨hinv, hw, hdc', htimeout, hcnt⟩ : Inv (Esm.system.run s' as) ∧ Waiting (Esm.system.run s' as) ∧
      (Esm.system.run s' as).bDcSyncActive = true ∧ (Esm.system.run s' as).i16WaitForPllRunningTimeout = 200 ∧
      (Esm.system.run s' as).i16WaitForPllRunningCnt.toInt ≤ as.countP EsmAction.isTimer := by
    refine has.history (I := fun as s => Inv s ∧ Waiting s ∧ s.bDcSyncActive = true ∧
      s.i16WaitForPllRunningTimeout = 200 ∧ s.i16WaitForPllRunningCnt.toInt ≤ as.countP EsmAction.isTimer) ?_
      ⟨hinv', hw', hdc, hpll.1, by rw [hpll.2]; decide⟩
    rintro as s a ⟨hinv, hw, hdc, htimeout, hcnt⟩ hen hwaits
    obtain ⟨hinv', hw'⟩ := hinv.wait_next hen hwaits
    have hstep := hw.step hinv.code hen hwaits
    refine ⟨hinv', hw', hstep.dc.trans hdc, hstep.pll.trans htimeout, ?_⟩
    show (s.next a).i16WaitForPllRunningCnt.toInt ≤ _
    rw [List.countP_append, List.countP_singleton]
    obtain heq | ⟨ha, heq | heq⟩ := hstep.cnt
    · rw [heq]
      push_cast
      split <;> omega
    · rw [heq, ha, if_pos rfl]
      have hle := Int16.toInt_add_one_le s.i16WaitForPllRunningCnt
      push_cast
      omega
    · rw [heq, ha, if_pos rfl]
      have hzero : (0 : Int16).toInt = 0 := rfl
      push_cast
      omega
  have hop' : (alControlRes (Esm.system.run s' as)).state = STATE_OP := hop
  generalize hs'' : alControlRes (Esm.system.run s' as) = s'' at hop'
  have hresponded := (alControlRes_cases hw).1
  rw [hs''] at hresponded
  have hready : ReadyForOp (Esm.system.run s' as) := by
    cases hresponded with
    | timedOut _ hsettled _ =>
      rw [hsettled.unmasked.1] at hop'
      exact absurd hop' (by decide)
    | toOp _ hready _ _ => exact hready
    | waits _ _ =>
      rw [hw.unmasked.1] at hop'
      exact absurd hop' (by decide)
  unfold ReadyForOp at hready
  rw [if_pos hdc', htimeout, Int16.le_iff_toInt_le] at hready
  have hle : (200 : ℤ) ≤ _ := hready.2
  omega

theorem pll_needed_dc : 200 ≤ (List.replicate 200 EsmAction.timer).countP EsmAction.isTimer :=
  pll_needed (Esm.reachable_run _ (by decide)) (by decide) (by decide)
    (rfl : Esm.dcWait = Esm.dcSafeop.next (.alControl Esm.dcRegs 8)) (by decide) (by decide) (by decide +kernel)
    (by decide +kernel)

end Ecat
end Dcs
