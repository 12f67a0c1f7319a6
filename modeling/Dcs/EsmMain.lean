import Dcs.Esm
import Dcs.Lib.Lts

/-!
# The EtherCAT state machine in the main loop

`AL_ControlRes`, the timer, the watchdogs and `ECAT_StateChange`, and the system they make together with the
master. Each call from `MainLoop` or from an interrupt is one step; the master, the controller and the SDO
server are free to do anything between two of them. So a run of the program is a run of the system, and what
holds of all runs of the system does not depend on the order of the calls.
-/

namespace Dcs
namespace Ecat

/-! ### A pending transition -/

/-- The part of `AL_ControlRes` for an expired timeout: status and status code. -/
def expired (s : Esm) : UInt8 × UInt16 × Esm :=
  let Status := (s.nEcatStateTrans >>> 4).toUInt8
  let localError := if s.bLocalErrorFlag then s.u16LocalErrorCode else ALSTATUSCODE_UNSPECIFIEDERROR
  match s.nEcatStateTrans.toNat with
  | INIT_2_PREOP | INIT_2_BOOT => (Status, localError, stopMailboxHandler s)
  | PREOP_2_SAFEOP => (Status, localError, stopInputHandler s)
  | SAFEOP_2_OP =>
    if s.bDcSyncActive then
      if ¬ s.bDcRunning then (Status, ALSTATUSCODE_NOSYNCERROR, stopOutputHandler s)
      else if ¬ s.bEcatFirstOutputsReceived ∧ 0 < s.nPdOutputSize then
        (Status, ALSTATUSCODE_SMWATCHDOG, stopOutputHandler s)
      else (Status, ALSTATUSCODE_SYNCERROR, stopOutputHandler s)
    else if 0 < s.nPdOutputSize then (Status, ALSTATUSCODE_SMWATCHDOG, stopOutputHandler s)
    else (STATE_OP, 0, { s with bEcatOutputUpdateRunning := true })
  | _ => (Status, 0, s)

/-- The call of `APPL_StartOutputHandler` for the pending transition to OP. -/
def completeOutput (s : Esm) : UInt8 × Esm :=
  if applStartOutputHandler = 0 then (STATE_OP, { s with bEcatOutputUpdateRunning := true })
  else if applStartOutputHandler ≠ NOERROR_INWORK then (0, stopOutputHandler s)
  else (0, s)

/-- The part of `AL_ControlRes` that calls the application; a status 0 is none. -/
def complete (s : Esm) : UInt8 × Esm :=
  if ¬ s.bApplEsmPending then (0, s)
  else
    match s.nEcatStateTrans.toNat with
    | INIT_2_PREOP | INIT_2_BOOT =>
      let s := { s with bApplEsmPending := false }
      if applStartMailboxHandler = 0 then ((s.nEcatStateTrans &&& STATE_MASK.toUInt16).toUInt8, { s with bMbxRunning := true })
      else (0, if applStartMailboxHandler ≠ NOERROR_INWORK then stopMailboxHandler s else s)
    | PREOP_2_SAFEOP =>
      let s := { s with bApplEsmPending := false }
      if applStartInputHandler = 0 then (STATE_SAFEOP, { s with bEcatInputUpdateRunning := true })
      else (0, if applStartInputHandler ≠ NOERROR_INWORK then stopInputHandler s else s)
    | SAFEOP_2_OP =>
      if s.bDcSyncActive then
        if 0 < s.i16WaitForPllRunningTimeout ∧ s.i16WaitForPllRunningTimeout ≤ s.i16WaitForPllRunningCnt then
          completeOutput { s with i16WaitForPllRunningTimeout := 0, i16WaitForPllRunningCnt := 0 }
        else (0, s)
      else if s.nPdOutputSize = 0 ∨ s.bEcatFirstOutputsReceived then completeOutput s
      else (0, s)
    | _ => (0, s)

/-- The end of `AL_ControlRes`. -/
def resolve (Status : UInt8) (StatusCode : UInt16) (s : Esm) : Esm :=
  if Status ≠ 0 then
    setAlStatus (if StatusCode ≠ 0 then Status ||| STATE_CHANGE else Status) StatusCode
      { s with bEcatWaitForAlControlRes := false }
  else s

def alControlRes (s : Esm) : Esm :=
  if ¬ s.bEcatWaitForAlControlRes then s
  else if s.esmTimeoutCounter = 0 then resolve (expired s).1 (expired s).2.1 (expired s).2.2
  else resolve (complete s).1 0 (complete s).2

/-! ### Timer and watchdogs -/

/-- The part of `DC_CheckWatchdog` about the sync signals: `bDcRunning` and the two counters. -/
def checkSync (s : Esm) : Esm :=
  let expired := 0 < s.sync0WdValue ∧ s.sync0WdValue ≤ s.sync0WdCounter
  let s := if expired then { s with bDcRunning := false }
    else { s with
      sync0WdCounter := if s.sync0WdCounter < s.sync0WdValue then s.sync0WdCounter + 1 else s.sync0WdCounter
      bDcRunning := true }
  if s.bDcRunning ∧ 0 < s.sync1WdValue then
    if s.sync1WdCounter < s.sync1WdValue then { s with sync1WdCounter := s.sync1WdCounter + 1 }
    else { s with bDcRunning := false }
  else s

def dcCheckWatchdog (s : Esm) : Esm :=
  if ¬ s.bDcSyncActive then s
  else
    let s := checkSync s
    let waits := 0 < s.i16WaitForPllRunningTimeout
    if s.bDcRunning then
      if s.u16SmEventMissedCounter < s.u16SyncErrorCounterLimit then
        { s with
          bSmSyncSequenceValid := true
          i16WaitForPllRunningCnt := if waits then s.i16WaitForPllRunningCnt + 1 else s.i16WaitForPllRunningCnt }
      else if s.bSmSyncSequenceValid then
        { s with
          bSmSyncSequenceValid := false
          i16WaitForPllRunningCnt := if waits then 0 else s.i16WaitForPllRunningCnt }
      else s
    else { s with bSmSyncSequenceValid := false }

/-- The LEDs are left out. -/
def ecatCheckTimer (s : Esm) : Esm :=
  dcCheckWatchdog { s with esmTimeoutCounter :=
    if s.bEcatWaitForAlControlRes ∧ 0 < s.esmTimeoutCounter then s.esmTimeoutCounter - 1 else s.esmTimeoutCounter }

/-- The part of `CheckIfEcatError` about synchronisation. -/
def checkSyncError (e : Regs) (s : Esm) : Esm :=
  if s.bDcSyncActive ∧ s.bEcatOutputUpdateRunning then
    if ¬ s.bDcRunning then alControlInd e STATE_SAFEOP ALSTATUSCODE_FATALSYNCERROR s
    else if ¬ s.bSmSyncSequenceValid then alControlInd e STATE_SAFEOP ALSTATUSCODE_SYNCERROR s
    else s
  else s

/-- The process data watchdog of the controller has expired. -/
def WdExpired (e : Regs) (s : Esm) : Prop :=
  s.ecatWdValue ≠ 0 ∧ e.pdWdState &&& ESC_PD_WD_TRIGGER_MASK = 0 ∧ 0 < s.nPdOutputSize

instance (e : Regs) (s : Esm) : Decidable (WdExpired e s) := inferInstanceAs (Decidable (_ ∧ _))

def checkIfEcatError (e : Regs) (s : Esm) : Esm :=
  if WdExpired e s then
    if s.bEcatOutputUpdateRunning then alControlInd e STATE_SAFEOP ALSTATUSCODE_SMWATCHDOG s
    else checkSyncError e { s with bEcatFirstOutputsReceived := false }
  else checkSyncError e s

/-! ### The interface for the application -/

/-- The application gives up the pending transition that it was asked for. -/
def rejectPending (s : Esm) : Esm :=
  match s.nEcatStateTrans.toNat with
  | INIT_2_PREOP | INIT_2_BOOT => stopMailboxHandler s
  | PREOP_2_SAFEOP => stopInputHandler s
  | SAFEOP_2_OP => stopOutputHandler s
  | _ => s

/-- The application completes it. -/
def acceptPending (s : Esm) : Esm :=
  match s.nEcatStateTrans.toNat with
  | INIT_2_PREOP | INIT_2_BOOT => { s with bMbxRunning := true }
  | PREOP_2_SAFEOP => { s with bEcatInputUpdateRunning := true }
  | SAFEOP_2_OP => { s with bEcatOutputUpdateRunning := true }
  | _ => s

def ecatStateChange (e : Regs) (alStatus : UInt8) (alStatusCode : UInt16) (s : Esm) : Esm :=
  if s.bEcatWaitForAlControlRes then
    if s.bApplEsmPending then
      if alStatusCode ≠ 0 then
        { s with bLocalErrorFlag := true, u16LocalErrorCode := alStatusCode, esmTimeoutCounter := 0 }
      else s
    else if alStatusCode ≠ 0 then
      setAlStatus ((s.nEcatStateTrans >>> 4).toUInt8 ||| STATE_CHANGE) alStatusCode
        { rejectPending { s with bLocalErrorFlag := true, u16LocalErrorCode := alStatusCode } with
          bEcatWaitForAlControlRes := false }
    else
      setAlStatus (s.nEcatStateTrans &&& STATE_MASK.toUInt16).toUInt8 alStatusCode
        { acceptPending s with bEcatWaitForAlControlRes := false }
  else if alStatusCode ≠ 0 then
    let s := { s with bLocalErrorFlag := true, u16LocalErrorCode := alStatusCode }
    if alStatus &&& STATE_MASK < s.nAlStatus &&& STATE_MASK then alControlInd e alStatus alStatusCode s else s
  else if s.bLocalErrorFlag then
    { s with
      pdiDisabled := if s.nAlStatus &&& STATE_MASK = (STATE_SAFEOP ||| STATE_OP) then pdChannel enableSyncManChannel s
        else s.pdiDisabled
      bLocalErrorFlag := false
      u16LocalErrorCode := 0 }
  else s

/-! ### The system -/

inductive EsmAction
  /-- The master has written the AL control register. -/
  | alControl (e : Regs) (value : UInt16)
  /-- The event of a change of a sync manager is handled. -/
  | smChange (e : Regs)
  /-- Sync manager 1 was found disabled. -/
  | smDisabled (e : Regs)
  | controlRes
  | timer
  | checkError (e : Regs)
  /-- `PDI_Isr`, or the event of the outputs in `MainLoop`. -/
  | outputs (u16SmEventMissedCounter : UInt16)
  | sync0 (u16SmEventMissedCounter : UInt16)
  | sync1
  /-- The SDO server has written 0x1C32:01, 0x1C33:01 or 0x10F1:02. -/
  | write (outSyncType inSyncType u16SyncErrorCounterLimit : UInt16) (bSyncSetByUser : Bool)
  | stateChange (e : Regs) (alStatus : UInt8) (alStatusCode : UInt16)

namespace Esm

def next (s : Esm) : EsmAction → Esm
  | .alControl e value => alControlInd e value.toUInt8 0 s
  | .smChange e => alControlInd e (s.nAlStatus &&& STATE_MASK) 0 s
  | .smDisabled e => alControlInd e (s.nAlStatus &&& STATE_MASK) 0 s
  | .controlRes => alControlRes s
  | .timer => ecatCheckTimer s
  | .checkError e => checkIfEcatError e s
  | .outputs missed => { s with bEcatFirstOutputsReceived := true, u16SmEventMissedCounter := missed }
  | .sync0 missed => { s with sync0WdCounter := 0, u16SmEventMissedCounter := missed }
  | .sync1 => { s with sync1WdCounter := 0 }
  | .write out inp limit user =>
    { s with outSyncType := out, inSyncType := inp, u16SyncErrorCounterLimit := limit, bSyncSetByUser := user }
  | .stateChange e alStatus alStatusCode => ecatStateChange e alStatus alStatusCode s

/-- The conditions in `ECAT_Main`. -/
def Enabled (s : Esm) : EsmAction → Prop
  | .alControl _ _ => s.bEcatWaitForAlControlRes = false
  | .smChange _ => s.bEcatWaitForAlControlRes = false ∧ s.nAlStatus &&& STATE_CHANGE = 0 ∧
      s.nAlStatus &&& ~~~ STATE_CHANGE ≠ STATE_INIT
  | .smDisabled _ => s.bMbxRunning = true
  | .controlRes => s.bEcatWaitForAlControlRes = true
  | _ => True

instance Enabled.decidable (s : Esm) : ∀ a, Decidable (Enabled s a)
  | .alControl _ _ => inferInstanceAs (Decidable (_ = _))
  | .smChange _ => inferInstanceAs (Decidable (_ ∧ _))
  | .smDisabled _ => inferInstanceAs (Decidable (_ = _))
  | .controlRes => inferInstanceAs (Decidable (_ = _))
  | .timer | .checkError _ | .outputs _ | .sync0 _ | .sync1 | .write _ _ _ _ | .stateChange _ _ _ =>
    inferInstanceAs (Decidable True)

/-- After `ECAT_Init`. -/
structure Start (s : Esm) : Prop where
  status : s.nAlStatus = STATE_INIT
  register : s.alStatus = STATE_INIT.toUInt16 ∧ s.alStatusCode = 0
  pending : s.bApplEsmPending = false ∧ s.bEcatWaitForAlControlRes = false ∧ s.nEcatStateTrans = 0
  error : s.bLocalErrorFlag = false ∧ s.u16LocalErrorCode = 0
  flags : s.bMbxRunning = false ∧ s.bEcatInputUpdateRunning = false ∧ s.bEcatOutputUpdateRunning = false ∧
    s.bEcatFirstOutputsReceived = false
  sizes : s.nPdInputSize = 0 ∧ s.nPdOutputSize = 0
  wd : s.bWdTrigger = false ∧ s.ecatWdValue = 0
  sync : s.bEscIntEnabled = false ∧ s.bDcSyncActive = false
  disabled : ∀ i, i < s.nMaxSyncMan.toNat → s.pdiDisabled i = true

def system : Lts.System Esm EsmAction where
  Init := Start
  Enabled := Enabled
  next := next

instance (s : Esm) (a : EsmAction) : Decidable (system.Enabled s a) := Enabled.decidable s a

end Esm

end Ecat
end Dcs
