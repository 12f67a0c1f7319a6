import Dcs.EsmControl
import Dcs.MailboxShape

/-!
# Runs of the state machine

`next_cases` says what one step can do. From it the invariant of all runs follows, and with it what the slave
shows, which handlers run and how far its state can move at a time.
-/

namespace Dcs
namespace Ecat

variable {e : Regs} {s s' : Esm} {a : EsmAction} {p c n : UInt8} {code : UInt16} {err : Bool}

/-! ### The calls -/

/-- What ends the wait for OP: the PLL with distributed clocks, the first outputs without them. -/
def ReadyForOp (s : Esm) : Prop :=
  if s.bDcSyncActive then
    0 < s.i16WaitForPllRunningTimeout ∧ s.i16WaitForPllRunningTimeout ≤ s.i16WaitForPllRunningCnt
  else s.bEcatFirstOutputsReceived = true

instance (s : Esm) : Decidable (ReadyForOp s) := inferInstanceAs (Decidable (ite _ _ _))

theorem Waiting.sized (h : Waiting s) : Sized s := (h.within.config.2 (by decide)).1

theorem InState.toOp (h : InState STATE_SAFEOP s) :
    InState STATE_OP { s with bEcatOutputUpdateRunning := true } :=
  ⟨flags_op (h.flags.mbx (by decide)) (h.flags.2.1.2 (by decide)) rfl, h.config.exchanges (by decide),
    h.channels.exchanges (by decide) (by decide)⟩

/-- In SAFEOP the outputs are stopped already. -/
theorem InState.stopNoOutput (h : InState STATE_SAFEOP s) : InState STATE_SAFEOP (stopOutputHandler s) :=
  ⟨flags_safeop (h.flags.mbx (by decide)) (h.flags.2.1.2 (by decide)) rfl, h.config, h.channels⟩

/-- The error that a transition to OP ends with when it takes too long. -/
def timeoutCode (s : Esm) : UInt16 :=
  if s.bDcSyncActive then
    if ¬ s.bDcRunning then ALSTATUSCODE_NOSYNCERROR
    else if ¬ s.bEcatFirstOutputsReceived then ALSTATUSCODE_SMWATCHDOG
    else ALSTATUSCODE_SYNCERROR
  else ALSTATUSCODE_SMWATCHDOG

theorem timeoutCode_ne (s : Esm) (old : UInt16) :
    timeoutCode s ≠ 0 ∧ codeWritten old (timeoutCode s) = timeoutCode s := by
  unfold timeoutCode
  split
  · split
    · exact ⟨by decide, rfl⟩
    split
    · exact ⟨by decide, rfl⟩
    · exact ⟨by decide, rfl⟩
  · exact ⟨by decide, rfl⟩

theorem expired_eq (h : Waiting s) : expired s = (STATE_SAFEOP, timeoutCode s, stopOutputHandler s) := by
  have hout : 0 < s.nPdOutputSize := by rw [h.sized.2]; decide
  have hstatus : (s.nEcatStateTrans >>> 4).toUInt8 = STATE_SAFEOP := by
    have htrans : s.nEcatStateTrans = 0x48 := UInt16.toNat_inj.1 h.trans
    rw [htrans]
    decide
  have heq : expired s =
      if s.bDcSyncActive then
        if ¬ s.bDcRunning then (STATE_SAFEOP, ALSTATUSCODE_NOSYNCERROR, stopOutputHandler s)
        else if ¬ s.bEcatFirstOutputsReceived ∧ 0 < s.nPdOutputSize then
          (STATE_SAFEOP, ALSTATUSCODE_SMWATCHDOG, stopOutputHandler s)
        else (STATE_SAFEOP, ALSTATUSCODE_SYNCERROR, stopOutputHandler s)
      else (STATE_SAFEOP, ALSTATUSCODE_SMWATCHDOG, stopOutputHandler s) := by
    unfold expired
    rw [h.trans, hstatus]
    show (if s.bDcSyncActive then _ else if 0 < s.nPdOutputSize then _ else _) = _
    rw [if_pos hout]
  rw [heq]
  simp only [hout, and_true]
  unfold timeoutCode
  split
  · split
    · rfl
    split
    · rfl
    · rfl
  · rfl

/-- The wait is over as soon as the slave is ready; only the PLL counter changes with it. -/
theorem complete_cases (h : Waiting s) :
    (ReadyForOp s ∧ ∃ k j, complete s = (STATE_OP, { s with
      bEcatOutputUpdateRunning := true, i16WaitForPllRunningTimeout := k, i16WaitForPllRunningCnt := j })) ∨
    (¬ ReadyForOp s ∧ complete s = (0, s)) := by
  have heq : complete s =
      if s.bDcSyncActive then
        if 0 < s.i16WaitForPllRunningTimeout ∧ s.i16WaitForPllRunningTimeout ≤ s.i16WaitForPllRunningCnt then
          completeOutput { s with i16WaitForPllRunningTimeout := 0, i16WaitForPllRunningCnt := 0 }
        else (0, s)
      else if s.nPdOutputSize = 0 ∨ s.bEcatFirstOutputsReceived then completeOutput s
      else (0, s) := by
    unfold complete
    rw [if_neg (not_not.2 h.pending), h.trans]
    rfl
  have hout : s.nPdOutputSize ≠ 0 := by rw [h.sized.2]; decide
  rw [heq]
  unfold ReadyForOp
  split
  · split
    · rename_i hpll
      exact .inl ⟨hpll, 0, 0, rfl⟩
    · rename_i hpll
      exact .inr ⟨hpll, rfl⟩
  · split
    · rename_i hfirst
      exact .inl ⟨hfirst.resolve_left hout, s.i16WaitForPllRunningTimeout, s.i16WaitForPllRunningCnt, rfl⟩
    · rename_i hfirst
      exact .inr ⟨fun hf => hfirst (.inr hf), rfl⟩

/-- What `AL_ControlRes` can do. -/
inductive Responded (s : Esm) : Esm → Prop
  | timedOut {s' : Esm} : s.esmTimeoutCounter = 0 → Settled STATE_SAFEOP true s' →
      s'.alStatusCode = timeoutCode s → Responded s s'
  | toOp {s' : Esm} : s.esmTimeoutCounter ≠ 0 → ReadyForOp s → Settled STATE_OP false s' → s'.alStatusCode = 0 →
      Responded s s'
  | waits : s.esmTimeoutCounter ≠ 0 → ¬ ReadyForOp s → Responded s s

theorem alControlRes_cases (h : Waiting s) : Responded s (alControlRes s) ∧ LocalFrame s (alControlRes s) := by
  unfold alControlRes
  rw [h.waits, if_neg (by simp)]
  split
  · rename_i htime
    have hcode := timeoutCode_ne s s.alStatusCode
    have hin := h.within.stopNoOutput
    have hresolve : resolve (expired s).1 (expired s).2.1 (expired s).2.2 =
        setAlStatus (STATE_SAFEOP ||| STATE_CHANGE) (timeoutCode s)
          { stopOutputHandler s with bEcatWaitForAlControlRes := false } := by
      rw [expired_eq h]
      unfold resolve
      dsimp only
      rw [if_pos (by decide), if_pos hcode.1]
    rw [hresolve]
    refine ⟨.timedOut htime ⟨rfl, rfl, rfl, .inr (.inr (.inl rfl)), fun h => absurd h (by decide),
      hin.setAlStatus _ _ _⟩ hcode.2, rfl, rfl, rfl⟩
  · rename_i htime
    obtain ⟨hready, k, j, heq⟩ | ⟨hready, heq⟩ := complete_cases h
    · have hin := h.within.toOp
      rw [heq]
      exact ⟨.toOp htime hready ⟨rfl, rfl, rfl, .inr (.inr (.inr rfl)), fun _ => rfl,
        ⟨hin.flags, hin.config, hin.channels⟩⟩ rfl, rfl, rfl, rfl⟩
    · rw [heq]
      exact ⟨.waits htime hready, rfl, rfl, rfl⟩

/-! ### One step -/

/-- A call of `AL_ControlInd`: by the master, after a change of a sync manager, for an error, or by the
application. -/
inductive Asks (s : Esm) : EsmAction → Regs → UInt8 → UInt16 → Prop
  | alControl {e : Regs} {value : UInt16} : Asks s (.alControl e value) e value.toUInt8 0
  | smChange {e : Regs} : s.nAlStatus &&& STATE_CHANGE = 0 → s.nAlStatus &&& ~~~ STATE_CHANGE ≠ STATE_INIT →
      Asks s (.smChange e) e (s.nAlStatus &&& STATE_MASK) 0
  | smDisabled {e : Regs} : s.bMbxRunning = true → Asks s (.smDisabled e) e (s.nAlStatus &&& STATE_MASK) 0
  | error {e : Regs} {code : UInt16} : s.bEcatOutputUpdateRunning = true →
      code ∈ [ALSTATUSCODE_SMWATCHDOG, ALSTATUSCODE_FATALSYNCERROR, ALSTATUSCODE_SYNCERROR] →
      Asks s (.checkError e) e STATE_SAFEOP code
  | stateChange {e : Regs} {alStatus : UInt8} {code : UInt16} : code ≠ 0 →
      alStatus &&& STATE_MASK < s.nAlStatus &&& STATE_MASK → Asks s (.stateChange e alStatus code) e alStatus code

/-- What the slave shows is unchanged, and so is what goes with its state. -/
structure Quiet (s s' : Esm) : Prop where
  status : s'.nAlStatus = s.nAlStatus
  register : s'.alStatus = s.alStatus ∧ s'.alStatusCode = s.alStatusCode
  waits : s'.bEcatWaitForAlControlRes = s.bEcatWaitForAlControlRes
  within : ∀ n, InState n s → InState n s'
  waiting : Waiting s → Waiting s'
  max : s'.nMaxSyncMan = s.nMaxSyncMan

/-- What one step does to a slave that shows the state `n`. -/
inductive Does (n : UInt8) (err : Bool) (s : Esm) (a : EsmAction) : Esm → Prop
  | quiet {s' : Esm} : Quiet s s' → Does n err s a s'
  | asked {e : Regs} {c : UInt8} {code : UInt16} {s' : Esm} : Asks s a e c code → ¬ Ignored c err →
      Outcome e n (c &&& STATE_MASK) code s s' → s'.nMaxSyncMan = s.nMaxSyncMan → Does n err s a s'
  | responded {s' : Esm} : a = .controlRes → Waiting s → Responded s s' → s'.nMaxSyncMan = s.nMaxSyncMan →
      Does n err s a s'

theorem Quiet.of_ignored (s : Esm) (h : s.bEcatWaitForAlControlRes = false) :
    Quiet s { s with esmTimeoutCounter := -1, bApplEsmPending := true } where
  status := rfl
  register := ⟨rfl, rfl⟩
  waits := rfl
  within _ hin := ⟨hin.flags, hin.config, hin.channels⟩
  waiting hw := absurd hw.waits (by rw [h]; decide)
  max := rfl

theorem Waiting.shows (h : Waiting s) (hcode : s.bLocalErrorFlag = true → s.u16LocalErrorCode ≠ 0) :
    Shows STATE_SAFEOP false s := ⟨h.status, .inr (.inr (.inl rfl)), h.within, hcode⟩

theorem waiting_of_waits (hinv : (∃ n err, Settled n err s) ∨ Waiting s) (h : s.bEcatWaitForAlControlRes = true) :
    Waiting s := by
  obtain ⟨_, _, hsettled⟩ | hw := hinv
  · rw [hsettled.waiting] at h
    cases h
  · exact hw

/-- While the slave waits, no error is shown. -/
theorem Shows.not_waits (h : Shows n err s) (herr : err = true) (hinv : (∃ n err, Settled n err s) ∨ Waiting s) :
    s.bEcatWaitForAlControlRes = false := by
  obtain ⟨_, _, hsettled⟩ | hw := hinv
  · exact hsettled.waiting
  · have hshown := h.unmasked.2.2.2 herr
    rw [hw.status] at hshown
    exact absurd rfl hshown

/-- A request that is made, from the state `s` itself. -/
theorem Does.ask (hshows : Shows n err s) (hinv : (∃ n err, Settled n err s) ∨ Waiting s) (hask : Asks s a e c code) :
    Does n err s a (alControlInd e c code s) := by
  by_cases hignored : Ignored c err
  · rw [alControlInd_ignored hshows hignored]
    exact .quiet (.of_ignored s (hshows.not_waits hignored.1 hinv))
  · obtain ⟨houtcome, hlocal⟩ := alControlInd_cases (e := e) hshows hignored
    exact .asked hask hignored houtcome hlocal.2.2

theorem checkSyncError_cases (hshows : Shows n err s) (hinv : (∃ n err, Settled n err s) ∨ Waiting s) :
    Does n err s (.checkError e) (checkSyncError e s) := by
  unfold checkSyncError
  split
  · rename_i hrun
    split
    · exact .ask hshows hinv (.error hrun.2 (by simp))
    split
    · exact .ask hshows hinv (.error hrun.2 (by simp))
    · exact .quiet ⟨rfl, ⟨rfl, rfl⟩, rfl, fun _ h => h, fun h => h, rfl⟩
  · exact .quiet ⟨rfl, ⟨rfl, rfl⟩, rfl, fun _ h => h, fun h => h, rfl⟩

theorem Quiet.firstOutputs (s : Esm) (b : Bool) (k : UInt16) :
    Quiet s { s with bEcatFirstOutputsReceived := b, u16SmEventMissedCounter := k } where
  status := rfl
  register := ⟨rfl, rfl⟩
  waits := rfl
  within _ hin := ⟨hin.flags, hin.config, hin.channels⟩
  waiting hw := ⟨hw.status, hw.waits, hw.pending, hw.trans, hw.time, ⟨hw.within.flags, hw.within.config,
    hw.within.channels⟩⟩
  max := rfl

theorem checkIfEcatError_cases (hshows : Shows n err s) (hinv : (∃ n err, Settled n err s) ∨ Waiting s) :
    Does n err s (.checkError e) (checkIfEcatError e s) := by
  unfold checkIfEcatError
  split
  · split
    · rename_i hrun
      exact .ask hshows hinv (.error hrun (by simp))
    · rename_i hrun
      have heq : checkSyncError e { s with bEcatFirstOutputsReceived := false } =
          { s with bEcatFirstOutputsReceived := false } := if_neg fun h => hrun h.2
      rw [heq]
      exact .quiet (.firstOutputs s false s.u16SmEventMissedCounter)
  · exact checkSyncError_cases hshows hinv

theorem checkSync_eq (s : Esm) : ∃ r c₀ c₁, checkSync s =
    { s with bDcRunning := r, sync0WdCounter := c₀, sync1WdCounter := c₁ } := by
  have hfirst : ∃ r c₀, (if 0 < s.sync0WdValue ∧ s.sync0WdValue ≤ s.sync0WdCounter then { s with bDcRunning := false }
      else { s with
        sync0WdCounter := if s.sync0WdCounter < s.sync0WdValue then s.sync0WdCounter + 1 else s.sync0WdCounter
        bDcRunning := true }) = { s with bDcRunning := r, sync0WdCounter := c₀ } := by
    split
    · exact ⟨false, s.sync0WdCounter, rfl⟩
    · exact ⟨true, _, rfl⟩
  obtain ⟨r, c₀, hfirst⟩ := hfirst
  unfold checkSync
  dsimp only
  rw [hfirst]
  dsimp only
  split
  · split
    · exact ⟨r, c₀, _, rfl⟩
    · exact ⟨false, c₀, s.sync1WdCounter, rfl⟩
  · exact ⟨r, c₀, s.sync1WdCounter, rfl⟩

/-- The timer counts the PLL up by one at most. -/
theorem dcCheckWatchdog_eq (s : Esm) : ∃ r c₀ c₁ v k, dcCheckWatchdog s =
    { s with
      bDcRunning := r, sync0WdCounter := c₀, sync1WdCounter := c₁, bSmSyncSequenceValid := v
      i16WaitForPllRunningCnt := k } ∧
      (k = s.i16WaitForPllRunningCnt ∨ k = s.i16WaitForPllRunningCnt + 1 ∨ k = 0) := by
  unfold dcCheckWatchdog
  dsimp only
  split
  · exact ⟨_, _, _, _, _, rfl, .inl rfl⟩
  obtain ⟨r, c₀, c₁, heq⟩ := checkSync_eq s
  rw [heq]
  dsimp only
  split
  · split
    · refine ⟨_, c₀, c₁, true, _, rfl, ?_⟩
      split
      · exact .inr (.inl rfl)
      · exact .inl rfl
    · split
      · refine ⟨_, c₀, c₁, false, _, rfl, ?_⟩
        split
        · exact .inr (.inr rfl)
        · exact .inl rfl
      · exact ⟨_, c₀, c₁, s.bSmSyncSequenceValid, _, rfl, .inl rfl⟩
  · exact ⟨_, c₀, c₁, false, _, rfl, .inl rfl⟩

theorem ecatCheckTimer_eq (s : Esm) : ∃ r c₀ c₁ v k, ecatCheckTimer s =
    { s with
      esmTimeoutCounter :=
        if s.bEcatWaitForAlControlRes ∧ 0 < s.esmTimeoutCounter then s.esmTimeoutCounter - 1 else s.esmTimeoutCounter
      bDcRunning := r, sync0WdCounter := c₀, sync1WdCounter := c₁, bSmSyncSequenceValid := v
      i16WaitForPllRunningCnt := k } ∧
      (k = s.i16WaitForPllRunningCnt ∨ k = s.i16WaitForPllRunningCnt + 1 ∨ k = 0) :=
  dcCheckWatchdog_eq _

theorem Quiet.timer (s : Esm) : Quiet s (ecatCheckTimer s) := by
  obtain ⟨r, c₀, c₁, v, k, heq, -⟩ := ecatCheckTimer_eq s
  rw [heq]
  refine ⟨rfl, ⟨rfl, rfl⟩, rfl, fun _ hin => ⟨hin.flags, hin.config, hin.channels⟩, fun hw => ?_, rfl⟩
  refine ⟨hw.status, hw.waits, hw.pending, hw.trans, ?_, ⟨hw.within.flags, hw.within.config, hw.within.channels⟩⟩
  have htime := hw.time
  dsimp only
  split <;> omega

theorem Quiet.localError (s : Esm) (h : s.bEcatWaitForAlControlRes = false) (b : Bool) (k : UInt16) :
    Quiet s { s with bLocalErrorFlag := b, u16LocalErrorCode := k } where
  status := rfl
  register := ⟨rfl, rfl⟩
  waits := rfl
  within _ hin := ⟨hin.flags, hin.config, hin.channels⟩
  waiting hw := absurd hw.waits (by rw [h]; decide)
  max := rfl

theorem Moves.not_of_lt (hlt : c < n) (hn : IsState n) : c ≠ STATE_OP := by
  rintro rfl
  obtain rfl | rfl | rfl | rfl := hn <;> exact absurd hlt (by decide)

theorem Shows.localError (h : Shows n err s) (hcode : code ≠ 0) :
    Shows n err { s with bLocalErrorFlag := true, u16LocalErrorCode := code } :=
  ⟨h.status, h.state, ⟨h.within.flags, h.within.config, h.within.channels⟩, fun _ => hcode⟩

/-- A local error is stored, and reported when the slave has to leave its state for it. While a transition is in
work it only ends the wait. -/
theorem ecatStateChange_cases (hshows : Shows n err s) (hinv : (∃ n err, Settled n err s) ∨ Waiting s)
    (alStatus : UInt8) : Does n err s (.stateChange e alStatus code) (ecatStateChange e alStatus code s) := by
  unfold ecatStateChange
  by_cases hwait : s.bEcatWaitForAlControlRes = true
  · have hw := waiting_of_waits hinv hwait
    rw [if_pos hwait, if_pos hw.pending]
    split
    · have htime : 0 ≤ SAFEOP2OPTIMEOUT - 50 := by decide
      exact .quiet ⟨rfl, ⟨rfl, rfl⟩, rfl, fun _ hin => ⟨hin.flags, hin.config, hin.channels⟩, fun _ =>
        ⟨hw.status, hw.waits, hw.pending, hw.trans, ⟨Int.le_refl 0, htime⟩,
          ⟨hw.within.flags, hw.within.config, hw.within.channels⟩⟩, rfl⟩
    · exact .quiet ⟨rfl, ⟨rfl, rfl⟩, rfl, fun _ h => h, fun h => h, rfl⟩
  · rw [if_neg hwait]
    have hwait' : s.bEcatWaitForAlControlRes = false := Bool.eq_false_iff.2 hwait
    by_cases hcode : code = 0
    · rw [if_neg (not_not.2 hcode)]
      split
      · have hnever : s.nAlStatus &&& STATE_MASK ≠ STATE_SAFEOP ||| STATE_OP := by
          rw [hshows.unmasked.2.1]
          obtain rfl | rfl | rfl | rfl := hshows.state <;> decide
        rw [if_neg hnever]
        exact .quiet (.localError s hwait' false 0)
      · exact .quiet ⟨rfl, ⟨rfl, rfl⟩, rfl, fun _ h => h, fun h => h, rfl⟩
    · rw [if_pos hcode]
      have hshows' := hshows.localError hcode
      dsimp only
      split
      · rename_i hlt
        by_cases hignored : Ignored alStatus err
        · rw [alControlInd_ignored hshows' hignored]
          exact .quiet ⟨rfl, ⟨rfl, rfl⟩, rfl, fun _ hin => ⟨hin.flags, hin.config, hin.channels⟩,
            fun hw => absurd hw.waits hwait, rfl⟩
        · obtain ⟨houtcome, hlocal⟩ := alControlInd_cases (e := e) (s := _) hshows' hignored
          have hop : alStatus &&& STATE_MASK ≠ STATE_OP := by
            rw [hshows.unmasked.2.1] at hlt
            exact Moves.not_of_lt hlt hshows.state
          exact .asked (.stateChange hcode hlt) hignored
            (houtcome.of_registers rfl rfl fun hc => absurd hc hop) hlocal.2.2
      · exact .quiet (.localError s hwait' true code)

theorem next_cases (hshows : Shows n err s) (hinv : (∃ n err, Settled n err s) ∨ Waiting s) (hen : Esm.Enabled s a) :
    Does n err s a (Esm.next s a) := by
  cases a with
  | alControl e value => exact .ask hshows hinv .alControl
  | smChange e => exact .ask hshows hinv (.smChange hen.2.1 hen.2.2)
  | smDisabled e => exact .ask hshows hinv (.smDisabled hen)
  | controlRes =>
    have hw := waiting_of_waits hinv hen
    obtain ⟨hresponded, hlocal⟩ := alControlRes_cases hw
    exact .responded rfl hw hresponded hlocal.2.2
  | timer => exact .quiet (.timer s)
  | checkError e => exact checkIfEcatError_cases hshows hinv
  | outputs missed => exact .quiet (.firstOutputs s true missed)
  | sync0 missed =>
    exact .quiet ⟨rfl, ⟨rfl, rfl⟩, rfl, fun _ hin => ⟨hin.flags, hin.config, hin.channels⟩, fun hw =>
      ⟨hw.status, hw.waits, hw.pending, hw.trans, hw.time, ⟨hw.within.flags, hw.within.config, hw.within.channels⟩⟩, rfl⟩
  | sync1 =>
    exact .quiet ⟨rfl, ⟨rfl, rfl⟩, rfl, fun _ hin => ⟨hin.flags, hin.config, hin.channels⟩, fun hw =>
      ⟨hw.status, hw.waits, hw.pending, hw.trans, hw.time, ⟨hw.within.flags, hw.within.config, hw.within.channels⟩⟩, rfl⟩
  | write out inp limit user =>
    exact .quiet ⟨rfl, ⟨rfl, rfl⟩, rfl, fun _ hin => ⟨hin.flags, hin.config, hin.channels⟩, fun hw =>
      ⟨hw.status, hw.waits, hw.pending, hw.trans, hw.time, ⟨hw.within.flags, hw.within.config, hw.within.channels⟩⟩, rfl⟩
  | stateChange e alStatus alStatusCode => exact ecatStateChange_cases hshows hinv alStatus

/-! ### The local error -/

/-- A local error has a code. -/
def CodeSet (s : Esm) : Prop := s.bLocalErrorFlag = true → s.u16LocalErrorCode ≠ 0

theorem LocalFrame.codeSet (h : LocalFrame s s') (hs : CodeSet s) : CodeSet s' := by
  unfold CodeSet
  rw [h.1, h.2.1]
  exact hs

theorem alControlInd_localFrame (hshows : Shows n err s) : LocalFrame s (alControlInd e c code s) := by
  by_cases hignored : Ignored c err
  · rw [alControlInd_ignored hshows hignored]
    exact ⟨rfl, rfl, rfl⟩
  · exact (alControlInd_cases hshows hignored).2

theorem checkSyncError_localFrame (hshows : Shows n err s) : LocalFrame s (checkSyncError e s) := by
  unfold checkSyncError
  split
  · split
    · exact alControlInd_localFrame hshows
    split
    · exact alControlInd_localFrame hshows
    · exact ⟨rfl, rfl, rfl⟩
  · exact ⟨rfl, rfl, rfl⟩

theorem checkIfEcatError_localFrame (hshows : Shows n err s) : LocalFrame s (checkIfEcatError e s) := by
  unfold checkIfEcatError
  split
  · split
    · exact alControlInd_localFrame hshows
    · have hshows' : Shows n err { s with bEcatFirstOutputsReceived := false } :=
        ⟨hshows.status, hshows.state, ⟨hshows.within.flags, hshows.within.config, hshows.within.channels⟩, hshows.code⟩
      obtain ⟨hflag, hcode, hmax⟩ := checkSyncError_localFrame (e := e) hshows'
      exact ⟨hflag, hcode, hmax⟩
  · exact checkSyncError_localFrame hshows

theorem ecatStateChange_codeSet (hshows : Shows n err s) (hinv : (∃ n err, Settled n err s) ∨ Waiting s)
    (alStatus : UInt8) : CodeSet (ecatStateChange e alStatus code s) := by
  have hcodeSet : CodeSet s := hshows.code
  unfold ecatStateChange
  by_cases hwait : s.bEcatWaitForAlControlRes = true
  · have hw := waiting_of_waits hinv hwait
    rw [if_pos hwait, if_pos hw.pending]
    split
    · rename_i hcode
      exact fun _ => hcode
    · exact hcodeSet
  rw [if_neg hwait]
  split
  · rename_i hcode
    have hshows' := hshows.localError hcode
    dsimp only
    split
    · exact (alControlInd_localFrame hshows').codeSet fun _ => hcode
    · exact fun _ => hcode
  split
  · exact fun h => (by cases h)
  · exact hcodeSet

/-! ### All runs -/

/-- The slave has settled in a state, or it waits for OP. -/
structure Inv (s : Esm) : Prop where
  settled : (∃ n err, Settled n err s) ∨ Waiting s
  code : CodeSet s

theorem Inv.shows (h : Inv s) : ∃ n err, Shows n err s := by
  obtain ⟨n, err, hsettled⟩ | hw := h.settled
  · exact ⟨n, err, hsettled.status, hsettled.state, hsettled.within, h.code⟩
  · exact ⟨STATE_SAFEOP, false, hw.shows h.code⟩

theorem Quiet.settled (h : Quiet s s') (hs : Settled n err s) : Settled n err s' where
  status := h.status.trans hs.status
  register := by rw [h.register.1, h.status, hs.register]
  waiting := h.waits.trans hs.waiting
  state := hs.state
  op := hs.op
  within := h.within n hs.within

/-- What a step leaves is settled again, or waits. -/
theorem Does.settled (h : Does n err s a s') (hinv : (∃ n err, Settled n err s) ∨ Waiting s) :
    (∃ n err, Settled n err s') ∨ Waiting s' := by
  cases h with
  | quiet hquiet =>
    obtain ⟨n, err, hsettled⟩ | hw := hinv
    · exact .inl ⟨n, err, hquiet.settled hsettled⟩
    · exact .inr (hquiet.waiting hw)
  | asked _ _ houtcome _ =>
    cases houtcome with
    | moved _ hsettled _ _ => exact .inl ⟨_, _, hsettled⟩
    | same _ hsettled _ => exact .inl ⟨_, _, hsettled⟩
    | refused _ _ hsettled _ => exact .inl ⟨_, _, hsettled⟩
    | lowered _ hsettled _ => exact .inl ⟨_, _, hsettled⟩
    | pending _ _ hw _ _ _ => exact .inr hw
  | responded _ hw hresponded _ =>
    cases hresponded with
    | timedOut _ hsettled _ => exact .inl ⟨_, _, hsettled⟩
    | toOp _ _ hsettled _ => exact .inl ⟨_, _, hsettled⟩
    | waits _ _ => exact .inr hw

theorem CodeSet.next (hshows : Shows n err s) (hinv : (∃ n err, Settled n err s) ∨ Waiting s)
    (hen : Esm.Enabled s a) : CodeSet (Esm.next s a) := by
  have hcode : CodeSet s := hshows.code
  cases a with
  | alControl e value => exact (alControlInd_localFrame hshows).codeSet hcode
  | smChange e => exact (alControlInd_localFrame hshows).codeSet hcode
  | smDisabled e => exact (alControlInd_localFrame hshows).codeSet hcode
  | controlRes =>
    have hw := waiting_of_waits hinv hen
    exact (alControlRes_cases hw).2.codeSet hcode
  | timer =>
    obtain ⟨_, _, _, _, _, heq, -⟩ := ecatCheckTimer_eq s
    show CodeSet (ecatCheckTimer s)
    rw [heq]
    exact hcode
  | checkError e => exact (checkIfEcatError_localFrame hshows).codeSet hcode
  | outputs missed => exact hcode
  | sync0 missed => exact hcode
  | sync1 => exact hcode
  | write out inp limit user => exact hcode
  | stateChange e alStatus alStatusCode => exact ecatStateChange_codeSet hshows hinv alStatus

theorem Inv.next (h : Inv s) (hen : Esm.Enabled s a) : Inv (Esm.next s a) := by
  obtain ⟨n, err, hshows⟩ := h.shows
  exact ⟨(next_cases hshows h.settled hen).settled h.settled, CodeSet.next hshows h.settled hen⟩

theorem Esm.Start.inv (h : Esm.Start s) : Inv s where
  settled := by
    refine .inl ⟨STATE_INIT, false, h.status, ?_, h.pending.2.1, .inl rfl, fun h => absurd h (by decide), ?_⟩
    · rw [h.register.1, h.status]
    · refine ⟨flags_init h.flags.1 h.flags.2.1 h.flags.2.2.1, config_init, fun hmax => ?_⟩
      have hdisabled : ∀ i, i < 4 → s.pdiDisabled i = true := fun i hi => h.disabled i (Nat.lt_of_lt_of_le hi hmax)
      exact ⟨⟨fun _ => rfl, fun _ => hdisabled 0 (by decide)⟩, ⟨fun _ => rfl, fun _ => hdisabled 1 (by decide)⟩,
        fun _ => hdisabled 2 (by decide), ⟨fun _ => by decide, fun _ => hdisabled 3 (by decide)⟩⟩
  code := fun hflag => by
    rw [h.error.1] at hflag
    cases hflag

namespace Esm

/-- The states that the slave reaches, whatever is called in whatever order. -/
def Reachable (s : Esm) : Prop := Lts.Reach system (fun _ _ => True) s

theorem Reachable.inv (h : Reachable s) : Inv s :=
  Lts.Reach.invariant (fun _ hs => Start.inv hs) (fun _ _ hI hen _ => hI.next hen) h

/-! A master that takes the slave to OP, with four bytes of outputs and of inputs and no distributed clocks. -/

def regs : Regs where
  syncMan
    | 0 => ⟨0x1000, 0x80, 0x26, 1⟩
    | 1 => ⟨0x1080, 0x80, 0x22, 1⟩
    | 2 => ⟨0x1100, 4, 0x64, 1⟩
    | 3 => ⟨0x1200, 4, 0x20, 1⟩
    | _ => ⟨0, 0, 0, 0⟩
  eepromControl := 0
  dcControl := 0
  sync0CycleTime := 0
  sync1CycleTime := 0
  pdWdTime := 1000
  wdDivider := 2498
  pdWdState := 1

/-- The slave after `ECAT_Init`, on a controller with eight sync managers and 8 KB of memory. -/
def started : Esm where
  nAlStatus := STATE_INIT
  alStatus := 1
  alStatusCode := 0
  alEventMask := 0
  pdiDisabled _ := true
  u8EcatErrorLed := LED_OFF
  bApplEsmPending := false
  bEcatWaitForAlControlRes := false
  nEcatStateTrans := 0
  esmTimeoutCounter := -1
  bLocalErrorFlag := false
  u16LocalErrorCode := 0
  eepromLoaded := true
  bMbxRunning := false
  bEcatInputUpdateRunning := false
  bEcatOutputUpdateRunning := false
  bEcatFirstOutputsReceived := false
  u16EscAddrReceiveMbx := 0
  u16ReceiveMbxSize := 0
  u16EscAddrSendMbx := 0
  u16SendMbxSize := 0
  nEscAddrInputData := 0
  nEscAddrOutputData := 0
  nPdInputSize := 0
  nPdOutputSize := 0
  b3BufferMode := true
  bWdTrigger := false
  ecatWdValue := 0
  bEscIntEnabled := false
  bDcSyncActive := false
  bDcRunning := false
  bSmSyncSequenceValid := false
  bSyncSetByUser := false
  u16ALEventMask := 0
  outSyncType := SYNCTYPE_SM_SYNCHRON
  inSyncType := SYNCTYPE_SM2_SYNCHRON
  sync0WdValue := 0
  sync0WdCounter := 0
  sync1WdValue := 0
  sync1WdCounter := 0
  u16SmEventMissedCounter := 0
  u16SyncErrorCounterLimit := 4
  i16WaitForPllRunningTimeout := 0
  i16WaitForPllRunningCnt := 0
  nMaxSyncMan := 8
  nMaxEscAddress := 0x2FFF

theorem started_start : Start started where
  status := rfl
  register := ⟨rfl, rfl⟩
  pending := ⟨rfl, rfl, rfl⟩
  error := ⟨rfl, rfl⟩
  flags := ⟨rfl, rfl, rfl, rfl⟩
  sizes := ⟨rfl, rfl⟩
  wd := ⟨rfl, rfl⟩
  sync := ⟨rfl, rfl⟩
  disabled _ _ := rfl

def toPreop : List EsmAction := [.alControl regs 2]

def toSafeop : List EsmAction := toPreop ++ [.alControl regs 4]

/-- OP is requested, and not reached yet. -/
def toWait : List EsmAction := toSafeop ++ [.alControl regs 8]

def toOp : List EsmAction := toWait ++ [.outputs 0, .controlRes]

theorem reachable_run (as : List EsmAction) (h : system.Runs (fun _ _ => True) started as) :
    Reachable (system.run started as) := (Lts.Reach.init started_start).run as h

end Esm

/-! ### What the slave shows -/

/-- While OP is waited for, the AL status register shows SAFEOP, perhaps still with the error that the request has
acknowledged. -/
def ShowsSafeop (s : Esm) : Prop :=
  s.alStatus = STATE_SAFEOP.toUInt16 ∨ s.alStatus = (STATE_SAFEOP ||| STATE_CHANGE).toUInt16

theorem Settled.showsSafeop (h : Settled n err s) (hstate : s.nAlStatus &&& STATE_MASK = STATE_SAFEOP) :
    ShowsSafeop s := by
  have hmask : n = STATE_SAFEOP := by
    have hn := h.state
    rw [h.status] at hstate
    obtain rfl | rfl | rfl | rfl := hn <;> cases err <;> first | rfl | exact absurd hstate (by decide)
  subst hmask
  unfold ShowsSafeop
  rw [h.register, h.status]
  cases err
  · exact .inl rfl
  · exact .inr rfl

theorem Inv.showsSafeop (h : Inv s) (hwaits : s.bEcatWaitForAlControlRes = true → ShowsSafeop s)
    (hen : Esm.Enabled s a) (hwaits' : (Esm.next s a).bEcatWaitForAlControlRes = true) :
    ShowsSafeop (Esm.next s a) := by
  obtain ⟨n, err, hshows⟩ := h.shows
  have hsettled : ∀ {n err s'}, Settled n err s' → s'.bEcatWaitForAlControlRes = true → ShowsSafeop s' :=
    fun hs hw => by rw [hs.waiting] at hw; cases hw
  have hdoes := next_cases hshows h.settled hen
  generalize Esm.next s a = s' at hdoes hwaits' ⊢
  cases hdoes with
  | quiet hquiet =>
    have hshown := hwaits (hquiet.waits.symm.trans hwaits')
    unfold ShowsSafeop
    rwa [hquiet.register.1]
  | asked _ _ houtcome _ =>
    cases houtcome with
    | moved _ hs _ _ => exact hsettled hs hwaits'
    | same _ hs _ => exact hsettled hs hwaits'
    | refused _ _ hs _ => exact hsettled hs hwaits'
    | lowered _ hs _ => exact hsettled hs hwaits'
    | pending hsafeop _ _ hregister _ _ =>
      unfold ShowsSafeop
      rw [hregister]
      obtain ⟨n, err, hs⟩ | hw := h.settled
      · exact hs.showsSafeop (hshows.unmasked.2.1.trans hsafeop)
      · exact hwaits hw.waits
  | responded _ hw hresponded _ =>
    cases hresponded with
    | timedOut _ hs _ => exact hsettled hs hwaits'
    | toOp _ _ hs _ => exact hsettled hs hwaits'
    | waits _ _ => exact hwaits hw.waits

theorem Esm.Reachable.showsSafeop (h : s.Reachable) (hwaits : s.bEcatWaitForAlControlRes = true) : ShowsSafeop s :=
  Lts.Reach.invariant_of (I := Inv) (J := fun s => s.bEcatWaitForAlControlRes = true → ShowsSafeop s)
    (fun _ hr => Esm.Reachable.inv hr)
    (fun _ (hs : Esm.Start _) hw => by rw [hs.pending.2.1] at hw; cases hw)
    (fun _ _ hi hj hen _ => hi.showsSafeop hj hen) h hwaits

/-- What goes together while the slave shows the state `n`: the handlers that run (`Running`), the sync managers
(`Channels`) and the AL status register. `wait` is for the transition to OP that is in work, with the ticks that
are left for it. -/
structure Consistent (n : UInt8) (err : Bool) (s : Esm) : Prop where
  state : IsState n
  status : s.nAlStatus = if err then n ||| STATE_CHANGE else n
  op : n = STATE_OP → err = false
  running : Running n s
  channels : Channels n s
  register : s.bEcatWaitForAlControlRes = false → s.alStatus = s.nAlStatus.toUInt16
  wait : s.bEcatWaitForAlControlRes = true → n = STATE_SAFEOP ∧ err = false ∧ ShowsSafeop s ∧
    s.nEcatStateTrans.toNat = SAFEOP_2_OP ∧ s.bApplEsmPending = true ∧
    0 ≤ s.esmTimeoutCounter ∧ s.esmTimeoutCounter ≤ SAFEOP2OPTIMEOUT - 50

/-- The two mailbox areas have an even address and an even length that fits into the buffers, and they do not
overlap. So the bytes of a datagram that the send mailbox has room for reach it as they are. -/
structure MailboxConfigured (s : Esm) : Prop where
  receive : AreaOk s.u16EscAddrReceiveMbx s.u16ReceiveMbxSize 0x22 0x100
  send : AreaOk s.u16EscAddrSendMbx s.u16SendMbxSize 0x22 0x100
  apart : ¬ Overlap s.u16EscAddrReceiveMbx.toNat s.u16ReceiveMbxSize.toNat s.u16EscAddrSendMbx.toNat
    s.u16SendMbxSize.toNat
  sent : ∀ b : Tmbx, sendBytes s.u16SendMbxSize b = b.datagram.take s.u16SendMbxSize.toNat

/-- The sizes of the process data are those of the mapping. The addresses are checked if the controller has the
sync managers for them. -/
structure DataConfigured (s : Esm) : Prop where
  sizes : s.nPdInputSize = 4 ∧ s.nPdOutputSize = 4
  areas : 4 ≤ s.nMaxSyncMan.toNat →
    AreaOk s.nEscAddrInputData s.nPdInputSize 4 4 ∧ AreaOk s.nEscAddrOutputData s.nPdOutputSize 4 4

/-- What is configured while the mailbox runs and while inputs are updated, if the registers of the sync managers
are the same when they are checked and when they are taken over. -/
theorem configured (h : s.Reachable) :
    (s.bMbxRunning = true → MailboxConfigured s) ∧ (s.bEcatInputUpdateRunning = true → DataConfigured s) := by
  obtain ⟨n, err, hshows⟩ := h.inv.shows
  obtain ⟨hmailbox, hdata⟩ := hshows.within.config
  constructor
  · intro hrun
    obtain ⟨hreceive, hsend, hoverlap⟩ := hmailbox (hshows.within.flags.1.1 hrun)
    exact ⟨hreceive, hsend, hoverlap, fun _ => sendBytes_eq hsend.even.2⟩
  · intro hrun
    obtain ⟨hsized, hareas⟩ := hdata (hshows.within.flags.2.1.1 hrun)
    exact ⟨hsized, hareas⟩

theorem configured_toOp : MailboxConfigured (Esm.system.run Esm.started Esm.toOp) ∧
    DataConfigured (Esm.system.run Esm.started Esm.toOp) := by
  obtain ⟨hmailbox, hdata⟩ := configured (Esm.reachable_run Esm.toOp (by decide))
  exact ⟨hmailbox (by decide), hdata (by decide)⟩

end Ecat
end Dcs
