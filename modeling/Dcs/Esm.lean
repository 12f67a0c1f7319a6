import Dcs.Mailbox

/-!
# The EtherCAT state machine (`ecatslv.c`)

The variables that the state machine reads, and its functions. The registers of the controller come as an
argument of each call; the registers that are written (AL status, AL status code, AL event mask, and the
enable bits of the sync managers) are part of the state. Left out is what no function of the state machine
reads: the cycle times, latch counters and error flags in the objects 0x1C32 and 0x1C33, and the input
data that `StartInputHandler` writes at its end. The functions of the application are those of
`sampleappl.c`.

Two things are simpler than in the code. The registers of the sync managers are read by `CheckSmSettings` and
once more by the handlers, and nothing checks that both have read the same; here they have. And with
subordinated cycles `StartInputHandler` divides by the cycle time of Sync0 even if it is 0; here it goes on,
without the latch counters that are computed so.
-/

namespace Dcs
namespace Ecat
open Function

/-! ### Constants -/

def STATE_PREOP : UInt8 := 0x02
def STATE_SAFEOP : UInt8 := 0x04
def STATE_OP : UInt8 := 0x08
def STATE_CHANGE : UInt8 := 0x10

@[match_pattern] def INIT_2_INIT : ℕ := 0x11
@[match_pattern] def INIT_2_PREOP : ℕ := 0x12
@[match_pattern] def INIT_2_BOOT : ℕ := 0x13
@[match_pattern] def INIT_2_SAFEOP : ℕ := 0x14
@[match_pattern] def INIT_2_OP : ℕ := 0x18
@[match_pattern] def PREOP_2_INIT : ℕ := 0x21
@[match_pattern] def PREOP_2_PREOP : ℕ := 0x22
@[match_pattern] def PREOP_2_BOOT : ℕ := 0x23
@[match_pattern] def PREOP_2_SAFEOP : ℕ := 0x24
@[match_pattern] def PREOP_2_OP : ℕ := 0x28
@[match_pattern] def BOOT_2_INIT : ℕ := 0x31
@[match_pattern] def BOOT_2_PREOP : ℕ := 0x32
@[match_pattern] def BOOT_2_SAFEOP : ℕ := 0x34
@[match_pattern] def BOOT_2_OP : ℕ := 0x38
@[match_pattern] def SAFEOP_2_INIT : ℕ := 0x41
@[match_pattern] def SAFEOP_2_PREOP : ℕ := 0x42
@[match_pattern] def SAFEOP_2_BOOT : ℕ := 0x43
@[match_pattern] def SAFEOP_2_SAFEOP : ℕ := 0x44
@[match_pattern] def SAFEOP_2_OP : ℕ := 0x48
@[match_pattern] def OP_2_INIT : ℕ := 0x81
@[match_pattern] def OP_2_PREOP : ℕ := 0x82
@[match_pattern] def OP_2_BOOT : ℕ := 0x83
@[match_pattern] def OP_2_SAFEOP : ℕ := 0x84
@[match_pattern] def OP_2_OP : ℕ := 0x88

def NOERROR_NOSTATECHANGE : UInt16 := 0xFE
def NOERROR_INWORK : UInt16 := 0xFF
def ALSTATUSCODE_NOERROR : UInt16 := 0x00
def ALSTATUSCODE_UNSPECIFIEDERROR : UInt16 := 0x01
def ALSTATUSCODE_INVALIDALCONTROL : UInt16 := 0x11
def ALSTATUSCODE_UNKNOWNALCONTROL : UInt16 := 0x12
def ALSTATUSCODE_BOOTNOTSUPP : UInt16 := 0x13
def ALSTATUSCODE_NOVALIDFIRMWARE : UInt8 := 0x14
def ALSTATUSCODE_INVALIDMBXCFGINPREOP : UInt8 := 0x16
def ALSTATUSCODE_INVALIDSMCFG : UInt8 := 0x17
def ALSTATUSCODE_SYNCERROR : UInt16 := 0x1A
def ALSTATUSCODE_SMWATCHDOG : UInt16 := 0x1B
def ALSTATUSCODE_INVALIDSMOUTCFG : UInt8 := 0x1D
def ALSTATUSCODE_INVALIDSMINCFG : UInt8 := 0x1E
def ALSTATUSCODE_INVALIDWDCFG : UInt16 := 0x1F
def ALSTATUSCODE_FREERUNNEEDS3BUFFERMODE : UInt16 := 0x29
def ALSTATUSCODE_FATALSYNCERROR : UInt16 := 0x2C
def ALSTATUSCODE_NOSYNCERROR : UInt16 := 0x2D
def ALSTATUSCODE_DCINVALIDSYNCCFG : UInt16 := 0x30
def ALSTATUSCODE_DCPLLSYNCERROR : UInt16 := 0x32
def ALSTATUSCODE_DCSYNC0CYCLETIME : UInt16 := 0x36
def ALSTATUSCODE_EE_ERROR : UInt16 := 0x51

def SYNCMANCHADDRESS : UInt8 := 0x01
def SYNCMANCHSIZE : UInt8 := 0x02
def SYNCMANCHSETTINGS : UInt8 := 0x03

def MAILBOX_WRITE : ℕ := 0
def MAILBOX_READ : ℕ := 1
def PROCESS_DATA_OUT : ℕ := 2
def PROCESS_DATA_IN : ℕ := 3

def MIN_MBX_WRITE_ADDRESS : UInt16 := 0x1000
def MAX_MBX_WRITE_ADDRESS : UInt16 := 0x2FFF
def MIN_MBX_READ_ADDRESS : UInt16 := 0x1000
def MAX_MBX_READ_ADDRESS : UInt16 := 0x2FFF
def MIN_PD_WRITE_ADDRESS : UInt16 := 0x1000
def MAX_PD_WRITE_ADDRESS : UInt16 := 0x2FFF
def MIN_PD_READ_ADDRESS : UInt16 := 0x1000
def MAX_PD_READ_ADDRESS : UInt16 := 0x2FFF
def MAX_PD_INPUT_SIZE : UInt16 := 0x0044
def MAX_PD_OUTPUT_SIZE : UInt16 := 0x0044
def MIN_PD_CYCLE_TIME : UInt32 := 0x7A120
def MAX_PD_CYCLE_TIME : UInt32 := 0xC3500000

def SM_SETTING_ENABLE_VALUE : UInt16 := 0x0001
def SM_SETTING_DIRECTION_MASK : UInt16 := 0x000C
def SM_SETTING_DIRECTION_READ_VALUE : UInt16 := 0x0000
def SM_SETTING_DIRECTION_WRITE_VALUE : UInt16 := 0x0004
def SM_SETTING_MODE_MASK : UInt16 := 0x0002
def SM_SETTING_MODE_ONE_BUFFER_VALUE : UInt16 := 0x0002
def SM_SETTING_WATCHDOG_VALUE : UInt16 := 0x0040

def ESC_EEPROM_ERROR_CRC : UInt16 := 0x0800
def ESC_EEPROM_ERROR_LOAD : UInt16 := 0x1000
def ESC_PD_WD_TRIGGER_MASK : UInt16 := 0x0001
def ESC_DC_SYNC_UNIT_ACTIVE_MASK : UInt16 := 0x0100
def ESC_DC_SYNC0_ACTIVE_MASK : UInt16 := 0x0200
def ESC_DC_SYNC1_ACTIVE_MASK : UInt16 := 0x0400
def ESC_DC_SYNC_UNIT_AUTO_ACTIVE_MASK : UInt16 := 0x0800

def SYNCTYPE_FREERUN : UInt16 := 0x0000
def SYNCTYPE_SM_SYNCHRON : UInt16 := 0x0001
def SYNCTYPE_DCSYNC0 : UInt16 := 0x0002
def SYNCTYPE_DCSYNC1 : UInt16 := 0x0003
def SYNCTYPE_SM2_SYNCHRON : UInt16 := 0x0022
def SYNCTYPE_DCSYNC0SUPP : UInt16 := 0x0004
def SYNCTYPE_DCSYNC1SUPP : UInt16 := 0x0008
def SYNCTYPE_SUBCYCLESUPP : UInt16 := 0x0010

/-- 0x1C32:04 and 0x1C33:04, which are read only. -/
def u16SyncTypesSupported : UInt16 := 0x401F

def SYNC0_EVENT : UInt16 := 0x04
def SYNC1_EVENT : UInt16 := 0x08
def PROCESS_OUTPUT_EVENT : UInt16 := 0x0400
def PROCESS_INPUT_EVENT : UInt16 := 0x0800

def PREOPTIMEOUT : ℤ := 0x7D0
def SAFEOP2OPTIMEOUT : ℤ := 0x2328

def LED_OFF : UInt8 := 0x00
def LED_BLINKING : UInt8 := 0x40
def LED_SINGLEFLASH : UInt8 := 0x41
def LED_DOUBLEFLASH : UInt8 := 0x42

/-! ### Registers and variables -/

/-- `TSYNCMAN`; the two words of `Settings` are the control and the activate register. -/
structure SyncMan where
  physicalStartAddress : UInt16
  length : UInt16
  control : UInt16
  activate : UInt16

/-- The registers that the state machine reads, as the master and the controller have set them. -/
structure Regs where
  syncMan : ℕ → SyncMan
  eepromControl : UInt16
  dcControl : UInt16
  sync0CycleTime : UInt32
  sync1CycleTime : UInt32
  pdWdTime : UInt16
  wdDivider : UInt16
  pdWdState : UInt16

/-- The variables of the state machine. `alStatus`, `alStatusCode` and `alEventMask` are the registers 0x130,
0x134 and 0x204, and `pdiDisabled` says which sync managers are disabled from this side. -/
structure Esm where
  nAlStatus : UInt8
  alStatus : UInt16
  alStatusCode : UInt16
  alEventMask : UInt16
  pdiDisabled : ℕ → Bool
  u8EcatErrorLed : UInt8
  bApplEsmPending : Bool
  bEcatWaitForAlControlRes : Bool
  nEcatStateTrans : UInt16
  esmTimeoutCounter : ℤ
  bLocalErrorFlag : Bool
  u16LocalErrorCode : UInt16
  eepromLoaded : Bool
  bMbxRunning : Bool
  bEcatInputUpdateRunning : Bool
  bEcatOutputUpdateRunning : Bool
  bEcatFirstOutputsReceived : Bool
  u16EscAddrReceiveMbx : UInt16
  u16ReceiveMbxSize : UInt16
  u16EscAddrSendMbx : UInt16
  u16SendMbxSize : UInt16
  nEscAddrInputData : UInt16
  nEscAddrOutputData : UInt16
  nPdInputSize : UInt16
  nPdOutputSize : UInt16
  b3BufferMode : Bool
  bWdTrigger : Bool
  ecatWdValue : UInt16
  bEscIntEnabled : Bool
  bDcSyncActive : Bool
  bDcRunning : Bool
  bSmSyncSequenceValid : Bool
  bSyncSetByUser : Bool
  u16ALEventMask : UInt16
  outSyncType : UInt16
  inSyncType : UInt16
  sync0WdValue : UInt16
  sync0WdCounter : UInt16
  sync1WdValue : UInt16
  sync1WdCounter : UInt16
  u16SmEventMissedCounter : UInt16
  u16SyncErrorCounterLimit : UInt16
  i16WaitForPllRunningTimeout : Int16
  i16WaitForPllRunningCnt : Int16
  nMaxSyncMan : UInt8
  nMaxEscAddress : UInt16

/-! ### The application -/

def applAckErrorInd (_stateTrans : UInt16) (s : Esm) : Esm := s

def applStartMailboxHandler : UInt16 := ALSTATUSCODE_NOERROR

def applStopMailboxHandler : UInt16 := ALSTATUSCODE_NOERROR

/-- It leaves the event mask as it is. -/
def applStartInputHandler : UInt16 := ALSTATUSCODE_NOERROR

def applStopInputHandler : UInt16 := ALSTATUSCODE_NOERROR

def applStartOutputHandler : UInt16 := ALSTATUSCODE_NOERROR

def applStopOutputHandler : UInt16 := ALSTATUSCODE_NOERROR

/-- The entries of 0x1601 and 0x1A00, to which 0x1C12 and 0x1C13 are assigned; all four are read only. -/
def rxPDOMap : List UInt32 := [0x70100020]

def txPDOMap : List UInt32 := [0x60000020]

/-- The low byte of an entry is its number of bits. -/
def pdoSize (entries : List UInt32) : UInt16 :=
  ((entries.map fun e => (e &&& 0xFF).toUInt16).sum + 7) >>> 3

def applGenerateMapping (s : Esm) : UInt16 × Esm :=
  (ALSTATUSCODE_NOERROR, { s with nPdInputSize := pdoSize txPDOMap, nPdOutputSize := pdoSize rxPDOMap })

/-! ### Sync managers -/

def disableSyncManChannel (channel : ℕ) (pdiDisabled : ℕ → Bool) : ℕ → Bool := update pdiDisabled channel true

def enableSyncManChannel (channel : ℕ) (pdiDisabled : ℕ → Bool) : ℕ → Bool := update pdiDisabled channel false

/-- The sync manager of the outputs is switched, or the one of the inputs if there are no outputs. -/
def pdChannel (switch : ℕ → (ℕ → Bool) → ℕ → Bool) (s : Esm) : ℕ → Bool :=
  if 0 < s.nPdOutputSize then switch PROCESS_DATA_OUT s.pdiDisabled
  else if 0 < s.nPdInputSize then switch PROCESS_DATA_IN s.pdiDisabled
  else s.pdiDisabled

/-- Both that are used are switched. -/
def pdChannels (switch : ℕ → (ℕ → Bool) → ℕ → Bool) (s : Esm) : ℕ → Bool :=
  let pdiDisabled := if 0 < s.nPdOutputSize then switch PROCESS_DATA_OUT s.pdiDisabled else s.pdiDisabled
  if 0 < s.nPdInputSize then switch PROCESS_DATA_IN pdiDisabled else pdiDisabled

def SyncMan.Odd (p : SyncMan) : Prop := p.length &&& 1 ≠ 0 ∨ p.physicalStartAddress &&& 1 ≠ 0

instance (p : SyncMan) : Decidable p.Odd := inferInstanceAs (Decidable (_ ∨ _))

/-- The two parts of `CheckSmSettings` about a mailbox. -/
def checkMailbox (p : SyncMan) (direction minAddress maxAddress : UInt16) : UInt8 :=
  if p.Odd then ALSTATUSCODE_INVALIDSMCFG
  else if p.activate &&& SM_SETTING_ENABLE_VALUE = 0 then ALSTATUSCODE_INVALIDMBXCFGINPREOP
  else if p.control &&& SM_SETTING_DIRECTION_MASK ≠ direction then ALSTATUSCODE_INVALIDMBXCFGINPREOP
  else if p.control &&& SM_SETTING_MODE_MASK ≠ SM_SETTING_MODE_ONE_BUFFER_VALUE then
    ALSTATUSCODE_INVALIDMBXCFGINPREOP
  else if p.length < MIN_MBX_SIZE then ALSTATUSCODE_INVALIDMBXCFGINPREOP
  else if MAX_MBX_SIZE < p.length then ALSTATUSCODE_INVALIDMBXCFGINPREOP
  else if p.physicalStartAddress < minAddress then ALSTATUSCODE_INVALIDMBXCFGINPREOP
  else if maxAddress < p.physicalStartAddress then ALSTATUSCODE_INVALIDMBXCFGINPREOP
  else 0

/-- The address is in the allowed area, or it is the one that was taken over on the way to SAFEOP. -/
def AddressOk (s : Esm) (p : SyncMan) (minAddress maxAddress nEscAddr : UInt16) : Prop :=
  s.nAlStatus = STATE_PREOP ∧ minAddress ≤ p.physicalStartAddress ∧ p.physicalStartAddress ≤ maxAddress ∨
    s.nAlStatus ≠ STATE_PREOP ∧ p.physicalStartAddress = nEscAddr

instance (s : Esm) (p : SyncMan) (a b c : UInt16) : Decidable (AddressOk s p a b c) :=
  inferInstanceAs (Decidable (_ ∨ _))

/-- The size, direction and address of a process data sync manager; the checks of inputs and outputs differ
in the order of the conditions on the size only. -/
def checkProcessData (s : Esm) (p : SyncMan) (nPdSize maxSize direction minAddress maxAddress nEscAddr : UInt16) :
    UInt8 :=
  if p.activate &&& SM_SETTING_ENABLE_VALUE ≠ 0 ∧ p.length = 0 then SYNCMANCHSETTINGS + 1
  else if p.activate &&& SM_SETTING_ENABLE_VALUE ≠ 0 then
    if p.length ≠ nPdSize ∨ nPdSize = 0 ∨ maxSize < p.length then SYNCMANCHSIZE + 1
    else if p.control &&& SM_SETTING_DIRECTION_MASK = direction then
      if AddressOk s p minAddress maxAddress nEscAddr then 0 else SYNCMANCHADDRESS + 1
    else SYNCMANCHSETTINGS + 1
  else if p.length ≠ 0 ∨ nPdSize ≠ 0 then SYNCMANCHSIZE + 1
  else 0

/-- An enabled sync manager with one buffer. -/
def SyncMan.OneBuffer (p : SyncMan) : Prop :=
  p.activate &&& SM_SETTING_ENABLE_VALUE ≠ 0 ∧
    p.control &&& SM_SETTING_MODE_MASK = SM_SETTING_MODE_ONE_BUFFER_VALUE

instance (p : SyncMan) : Decidable p.OneBuffer := inferInstanceAs (Decidable (_ ∧ _))

def checkInputs (p : SyncMan) (s : Esm) : UInt8 × Esm :=
  let s := { s with b3BufferMode := true }
  if p.Odd then (ALSTATUSCODE_INVALIDSMCFG, s)
  else if checkProcessData s p s.nPdInputSize MAX_PD_INPUT_SIZE SM_SETTING_DIRECTION_READ_VALUE MIN_PD_READ_ADDRESS
      MAX_PD_READ_ADDRESS s.nEscAddrInputData ≠ 0 then (ALSTATUSCODE_INVALIDSMINCFG, s)
  else if p.OneBuffer then (0, { s with b3BufferMode := false })
  else (0, s)

def checkOutputs (p : SyncMan) (s : Esm) : UInt8 × Esm :=
  if p.Odd then (ALSTATUSCODE_INVALIDSMCFG, s)
  else if checkProcessData s p s.nPdOutputSize MAX_PD_OUTPUT_SIZE SM_SETTING_DIRECTION_WRITE_VALUE
      MIN_PD_WRITE_ADDRESS MAX_PD_WRITE_ADDRESS s.nEscAddrOutputData ≠ 0 then (ALSTATUSCODE_INVALIDSMOUTCFG, s)
  else if p.activate &&& SM_SETTING_ENABLE_VALUE ≠ 0 then
    let s := { s with bWdTrigger := p.control &&& SM_SETTING_WATCHDOG_VALUE ≠ 0 }
    (0, if p.OneBuffer then { s with b3BufferMode := false } else s)
  else (0, s)

/-- The sync managers behind `maxChannel` are only read to take back their events. -/
def checkSmSettings (e : Regs) (maxChannel : ℕ) (s : Esm) : UInt8 × Esm :=
  if s.nMaxEscAddress < MAX_PD_WRITE_ADDRESS ∨ s.nMaxEscAddress < MAX_PD_READ_ADDRESS ∨
      s.nMaxEscAddress < MAX_MBX_WRITE_ADDRESS ∨ s.nMaxEscAddress < MAX_MBX_READ_ADDRESS then
    (ALSTATUSCODE_NOVALIDFIRMWARE, s)
  else
    let receive := checkMailbox (e.syncMan MAILBOX_WRITE) SM_SETTING_DIRECTION_WRITE_VALUE MIN_MBX_WRITE_ADDRESS
      MAX_MBX_WRITE_ADDRESS
    if receive ≠ 0 then (receive, s)
    else
      let send := checkMailbox (e.syncMan MAILBOX_READ) SM_SETTING_DIRECTION_READ_VALUE MIN_MBX_READ_ADDRESS
        MAX_MBX_READ_ADDRESS
      if send ≠ 0 then (send, s)
      else
        let (result, s) := if PROCESS_DATA_IN < maxChannel then checkInputs (e.syncMan PROCESS_DATA_IN) s else (0, s)
        if result ≠ 0 then (result, s)
        else if PROCESS_DATA_OUT < maxChannel then checkOutputs (e.syncMan PROCESS_DATA_OUT) s
        else (0, s)

/-- Neither of two areas of the memory starts behind the other, as the code tests it. -/
def Overlap (a m b n : ℕ) : Prop := b < a + m ∧ a < b + n

instance (a m b n : ℕ) : Decidable (Overlap a m b n) := inferInstanceAs (Decidable (_ ∧ _))

/-! ### The handlers -/

/-- `mailbox.c`; the variables of the mailbox itself are those of `Mailbox`. -/
def mbxStartMailboxHandler (e : Regs) (s : Esm) : UInt16 × Esm :=
  let s := { s with
    u16ReceiveMbxSize := (e.syncMan MAILBOX_WRITE).length
    u16EscAddrReceiveMbx := (e.syncMan MAILBOX_WRITE).physicalStartAddress
    u16SendMbxSize := (e.syncMan MAILBOX_READ).length
    u16EscAddrSendMbx := (e.syncMan MAILBOX_READ).physicalStartAddress }
  if Overlap s.u16EscAddrReceiveMbx.toNat s.u16ReceiveMbxSize.toNat s.u16EscAddrSendMbx.toNat s.u16SendMbxSize.toNat
  then (ALSTATUSCODE_INVALIDMBXCFGINPREOP.toUInt16, s)
  else (0, { s with pdiDisabled := enableSyncManChannel MAILBOX_READ (enableSyncManChannel MAILBOX_WRITE s.pdiDisabled) })

def stopMailboxHandler (s : Esm) : Esm :=
  { s with
    bMbxRunning := false
    pdiDisabled := disableSyncManChannel MAILBOX_READ (disableSyncManChannel MAILBOX_WRITE s.pdiDisabled) }

/-- The number of buffers of a process data sync manager. -/
def SyncMan.buffers (p : SyncMan) : ℕ := if p.control &&& SM_SETTING_MODE_ONE_BUFFER_VALUE ≠ 0 then 1 else 3

def inputsOverlap (s : Esm) (nPdInputBuffer : ℕ) : Prop :=
  let size := s.nPdInputSize.toNat * nPdInputBuffer
  Overlap s.nEscAddrInputData.toNat size s.u16EscAddrSendMbx.toNat s.u16SendMbxSize.toNat ∨
    Overlap s.nEscAddrInputData.toNat size s.u16EscAddrReceiveMbx.toNat s.u16ReceiveMbxSize.toNat

/-- Here the area of the inputs is one buffer long, however many there are. -/
def outputsOverlap (s : Esm) (nPdOutputBuffer : ℕ) : Prop :=
  let size := s.nPdOutputSize.toNat * nPdOutputBuffer
  Overlap s.nEscAddrOutputData.toNat size s.u16EscAddrSendMbx.toNat s.u16SendMbxSize.toNat ∨
    Overlap s.nEscAddrOutputData.toNat size s.u16EscAddrReceiveMbx.toNat s.u16ReceiveMbxSize.toNat ∨
      Overlap s.nEscAddrOutputData.toNat size s.nEscAddrInputData.toNat s.nPdInputSize.toNat

instance (s : Esm) (n : ℕ) : Decidable (inputsOverlap s n) := inferInstanceAs (Decidable (_ ∨ _))

instance (s : Esm) (n : ℕ) : Decidable (outputsOverlap s n) := inferInstanceAs (Decidable (_ ∨ _))

def u16MinSuppSyncType : UInt16 := 0xFFFF &&& u16SyncTypesSupported &&& u16SyncTypesSupported

namespace Regs

variable (e : Regs)

def DcActive : Prop := e.dcControl &&& (ESC_DC_SYNC_UNIT_ACTIVE_MASK ||| ESC_DC_SYNC_UNIT_AUTO_ACTIVE_MASK) ≠ 0

def Sync0Active : Prop := e.dcControl &&& ESC_DC_SYNC0_ACTIVE_MASK ≠ 0

def Sync1Active : Prop := e.dcControl &&& ESC_DC_SYNC1_ACTIVE_MASK ≠ 0

instance : Decidable e.DcActive := inferInstanceAs (Decidable (_ ≠ _))

instance : Decidable e.Sync0Active := inferInstanceAs (Decidable (_ ≠ _))

instance : Decidable e.Sync1Active := inferInstanceAs (Decidable (_ ≠ _))

def SubordinatedCycles : Prop :=
  e.DcActive ∧ e.Sync0Active ∧ e.Sync1Active ∧ 0 < e.sync1CycleTime ∧ e.sync0CycleTime ≤ e.sync1CycleTime

instance : Decidable e.SubordinatedCycles := inferInstanceAs (Decidable (_ ∧ _))

/-- The plausibility of the DC registers. -/
def checkDc : UInt16 :=
  if ¬ e.DcActive then 0
  else if ¬ e.Sync0Active ∧ ¬ e.Sync1Active then ALSTATUSCODE_DCINVALIDSYNCCFG
  else if ¬ e.Sync0Active ∧ e.Sync1Active then ALSTATUSCODE_DCINVALIDSYNCCFG
  else if u16MinSuppSyncType ≠ 0 ∧ (u16MinSuppSyncType &&& SYNCTYPE_DCSYNC0SUPP = 0 ∧ e.Sync0Active ∨
      u16MinSuppSyncType &&& SYNCTYPE_DCSYNC1SUPP = 0 ∧ e.Sync1Active) then ALSTATUSCODE_DCINVALIDSYNCCFG
  else if e.sync0CycleTime ≠ 0 ∧ (e.sync0CycleTime < MIN_PD_CYCLE_TIME ∨ MAX_PD_CYCLE_TIME < e.sync0CycleTime) then
    ALSTATUSCODE_DCSYNC0CYCLETIME
  else if e.SubordinatedCycles ∧ u16MinSuppSyncType &&& SYNCTYPE_SUBCYCLESUPP = 0 then ALSTATUSCODE_DCINVALIDSYNCCFG
  else 0

/-- The types of synchronisation of outputs and inputs. What the user has written must match the DC registers;
otherwise the registers decide. -/
def syncTypes (s : Esm) : Option (UInt16 × UInt16) :=
  let uses t := s.outSyncType = t ∨ s.inSyncType = t
  if s.bSyncSetByUser then
    if ¬ e.DcActive then
      if uses SYNCTYPE_DCSYNC0 ∨ uses SYNCTYPE_DCSYNC1 then none else some (s.outSyncType, s.inSyncType)
    else if ¬ e.Sync1Active ∧ uses SYNCTYPE_DCSYNC1 then none
    else if ¬ e.Sync0Active ∧ uses SYNCTYPE_DCSYNC0 then none
    else some (s.outSyncType, s.inSyncType)
  else if ¬ e.DcActive then
    if 0 < s.nPdOutputSize then
      some (SYNCTYPE_SM_SYNCHRON, if 0 < s.nPdInputSize then SYNCTYPE_SM2_SYNCHRON else SYNCTYPE_FREERUN)
    else if 0 < s.nPdInputSize then some (SYNCTYPE_FREERUN, SYNCTYPE_SM_SYNCHRON)
    else some (SYNCTYPE_FREERUN, SYNCTYPE_FREERUN)
  else
    some (if 0 < s.nPdOutputSize then if e.SubordinatedCycles then SYNCTYPE_DCSYNC1 else SYNCTYPE_DCSYNC0
      else SYNCTYPE_FREERUN,
      if 0 < s.nPdInputSize then if e.Sync1Active then SYNCTYPE_DCSYNC1 else SYNCTYPE_DCSYNC0 else SYNCTYPE_FREERUN)

/-- `EcatWdValue`, in milliseconds; the sums and products are of type `UINT32`. -/
def wdValue (s : Esm) : UInt16 :=
  if 0 < s.nPdOutputSize ∧ e.pdWdTime ≠ 0 ∧ e.wdDivider ≠ 0 then
    (((e.wdDivider.toUInt32 + 2) * e.pdWdTime.toUInt32 + 24999) / 25000).toUInt16
  else 0

/-- `Sync0WdValue` and `Sync1WdValue`. -/
def syncWd (cycleTime : UInt32) : UInt16 :=
  if cycleTime / 100000 < 5 then 1 else ((cycleTime / 100000 * 2).toUInt16.toUInt32 / 10).toUInt16

def sync0Wd : UInt16 := if e.Sync0Active ∧ e.sync0CycleTime ≠ 0 then syncWd e.sync0CycleTime else 0

def sync1Wd : UInt16 :=
  if e.Sync0Active ∧ e.Sync1Active then
    if e.sync1CycleTime < e.sync0CycleTime then e.sync0Wd else syncWd e.sync1CycleTime + e.sync0Wd / 2
  else 0

end Regs

/-- The flags that follow from the types of synchronisation. -/
def setSyncTypes (out inp : UInt16) (s : Esm) : Esm :=
  let bEscIntEnabled := s.bEscIntEnabled || out ≠ SYNCTYPE_FREERUN || inp ≠ SYNCTYPE_FREERUN
  let dc := out = SYNCTYPE_DCSYNC0 ∨ out = SYNCTYPE_DCSYNC1 ∨ inp = SYNCTYPE_DCSYNC0 ∨ inp = SYNCTYPE_DCSYNC1
  let mask :=
    if bEscIntEnabled then
      if 0 < s.nPdOutputSize then PROCESS_OUTPUT_EVENT
      else if 0 < s.nPdInputSize then PROCESS_INPUT_EVENT
      else s.u16ALEventMask
    else s.u16ALEventMask
  { s with
    bEscIntEnabled
    bDcSyncActive := s.bDcSyncActive || dc
    u16ALEventMask := if dc ∧ s.nPdOutputSize = 0 then 0 else mask
    outSyncType := out
    inSyncType := inp }

/-- The end of `StartInputHandler`. -/
def startInputs (e : Regs) (s : Esm) : Esm :=
  { s with
    pdiDisabled := pdChannels enableSyncManChannel s
    u16ALEventMask := if s.bEscIntEnabled ∧ s.nPdOutputSize ≠ 0 then s.u16ALEventMask ||| PROCESS_OUTPUT_EVENT
      else s.u16ALEventMask
    sync0WdValue := e.sync0Wd
    sync0WdCounter := 0
    sync1WdValue := e.sync1Wd
    sync1WdCounter := 0
    bDcRunning := false
    bSmSyncSequenceValid := false
    i16WaitForPllRunningTimeout := 0
    u16SmEventMissedCounter := 0 }

/-- The division by a cycle time of 0 is left out, as the latch counters are. -/
def startInputHandler (e : Regs) (s : Esm) : UInt16 × Esm :=
  let s := { s with
    u16ALEventMask := 0
    bEcatFirstOutputsReceived := false
    nEscAddrOutputData := (e.syncMan PROCESS_DATA_OUT).physicalStartAddress
    nEscAddrInputData := (e.syncMan PROCESS_DATA_IN).physicalStartAddress }
  if inputsOverlap s (e.syncMan PROCESS_DATA_IN).buffers then (ALSTATUSCODE_INVALIDSMINCFG.toUInt16, s)
  else if outputsOverlap s (e.syncMan PROCESS_DATA_OUT).buffers then (ALSTATUSCODE_INVALIDSMOUTCFG.toUInt16, s)
  else if e.checkDc ≠ 0 then (e.checkDc, s)
  else
    match e.syncTypes s with
    | none => (ALSTATUSCODE_DCINVALIDSYNCCFG, s)
    | some (out, inp) =>
      if ¬ s.b3BufferMode ∧ (out = SYNCTYPE_FREERUN ∨ inp = SYNCTYPE_FREERUN) then
        (ALSTATUSCODE_FREERUNNEEDS3BUFFERMODE, s)
      else
        let s := { setSyncTypes out inp s with ecatWdValue := e.wdValue s }
        if s.ecatWdValue = 0 ∧ s.bWdTrigger ∨ s.ecatWdValue ≠ 0 ∧ ¬ s.bWdTrigger then (ALSTATUSCODE_INVALIDWDCFG, s)
        else (ALSTATUSCODE_NOERROR, startInputs e s)

def startOutputHandler (s : Esm) : UInt16 × Esm :=
  if s.bLocalErrorFlag then (s.u16LocalErrorCode, s)
  else (NOERROR_INWORK,
    if s.bDcSyncActive then { s with i16WaitForPllRunningTimeout := 200, i16WaitForPllRunningCnt := 0 } else s)

def stopOutputHandler (s : Esm) : Esm :=
  { s with bEcatFirstOutputsReceived := false, bEcatOutputUpdateRunning := false }

def stopInputHandler (s : Esm) : Esm :=
  let resetMask := SYNC0_EVENT ||| SYNC1_EVENT ||| PROCESS_OUTPUT_EVENT ||| PROCESS_INPUT_EVENT
  { s with
    pdiDisabled := pdChannels disableSyncManChannel s
    alEventMask := s.alEventMask &&& ~~~ resetMask
    bEcatFirstOutputsReceived := false
    bEscIntEnabled := false
    bDcSyncActive := false
    bDcRunning := false
    bSmSyncSequenceValid := false
    sync0WdValue := 0
    sync0WdCounter := 0
    sync1WdValue := 0
    sync1WdCounter := 0
    i16WaitForPllRunningTimeout := 0
    bWdTrigger := false
    bEcatInputUpdateRunning := false
    bSyncSetByUser := false }

def backToInitTransition (s : Esm) : Esm := { s with bSyncSetByUser := false }

def updateEepromLoadedState (e : Regs) (s : Esm) : Esm :=
  { s with eepromLoaded := e.eepromControl &&& ESC_EEPROM_ERROR_CRC = 0 ∧ e.eepromControl &&& ESC_EEPROM_ERROR_LOAD = 0 }

/-! ### AL control -/

def setAlStatus (alStatus : UInt8) (alStatusCode : UInt16) (s : Esm) : Esm :=
  { s with
    nAlStatus := alStatus
    alStatusCode := if alStatusCode ≠ 0xFFFF then alStatusCode else s.alStatusCode
    alStatus := alStatus.toUInt16
    u8EcatErrorLed :=
      if alStatusCode = 0 ∨ alStatus &&& STATE_CHANGE = 0 then LED_OFF
      else if alStatusCode = ALSTATUSCODE_NOSYNCERROR ∨ alStatusCode = ALSTATUSCODE_SYNCERROR ∨
        alStatusCode = ALSTATUSCODE_DCPLLSYNCERROR then LED_SINGLEFLASH
      else if alStatusCode = ALSTATUSCODE_SMWATCHDOG then LED_DOUBLEFLASH
      else LED_BLINKING }

def Failed (result : UInt16) : Prop := result ≠ 0 ∧ result ≠ NOERROR_INWORK

instance (result : UInt16) : Decidable (Failed result) := inferInstanceAs (Decidable (_ ∧ _))

def startMailbox (e : Regs) (s : Esm) : UInt16 × Esm :=
  let s := updateEepromLoadedState e s
  if s.eepromLoaded = false then (ALSTATUSCODE_EE_ERROR, s)
  else
    let (result, s) := mbxStartMailboxHandler e s
    let (result, s) :=
      if result = 0 then
        let s := { s with bApplEsmPending := false }
        (applStartMailboxHandler, if applStartMailboxHandler = 0 then { s with bMbxRunning := true } else s)
      else (result, s)
    (result, if Failed result then stopMailboxHandler s else s)

def startInput (e : Regs) (s : Esm) : UInt16 × Esm :=
  let (result, s) := startInputHandler e s
  let (result, s) :=
    if result = 0 then
      let s := { s with bApplEsmPending := false }
      (applStartInputHandler, if applStartInputHandler = 0 then
        { s with alEventMask := s.alEventMask ||| s.u16ALEventMask, bEcatInputUpdateRunning := true } else s)
    else (result, s)
  (result, if Failed result then stopInputHandler s else s)

def startOutput (s : Esm) : UInt16 × Esm :=
  let (result, s) := startOutputHandler s
  let (result, s) :=
    if result = 0 then
      let s := { s with bApplEsmPending := false }
      (applStartOutputHandler, if applStartOutputHandler = 0 then { s with bEcatOutputUpdateRunning := true } else s)
    else (result, s)
  (result, if Failed result then stopOutputHandler s else s)

def stopMailbox (s : Esm) : UInt16 × Esm := (applStopMailboxHandler, backToInitTransition (stopMailboxHandler s))

def stopInput (s : Esm) : Esm := { stopInputHandler s with bApplEsmPending := false }

def stopOutput (s : Esm) : Esm := { stopOutputHandler s with bApplEsmPending := false }

/-- The cases with the same state before and after. -/
def sameState (bErrAck : Bool) (stateTrans : ℕ) (s : Esm) : UInt16 × Esm :=
  let s := if bErrAck then applAckErrorInd (.ofNat stateTrans) s else s
  (NOERROR_NOSTATECHANGE, { s with pdiDisabled :=
    if ¬ s.bLocalErrorFlag ∧ s.nAlStatus &&& (STATE_SAFEOP ||| STATE_OP) ≠ 0 then pdChannel enableSyncManChannel s
    else s.pdiDisabled })

/-- The local management services; the second component is `stateTrans`, which the cases that go through more
than one state change. -/
def services (e : Regs) (bErrAck : Bool) (stateTrans : ℕ) (s : Esm) : UInt16 × ℕ × Esm :=
  match stateTrans with
  | INIT_2_BOOT => (ALSTATUSCODE_BOOTNOTSUPP, stateTrans, s)
  | BOOT_2_INIT => (ALSTATUSCODE_BOOTNOTSUPP, stateTrans, backToInitTransition s)
  | INIT_2_PREOP => ((startMailbox e s).1, stateTrans, (startMailbox e s).2)
  | PREOP_2_SAFEOP => ((startInput e s).1, stateTrans, (startInput e s).2)
  | SAFEOP_2_OP => ((startOutput s).1, stateTrans, (startOutput s).2)
  | OP_2_SAFEOP => (0, stateTrans, stopOutput s)
  | OP_2_PREOP =>
    if applStopOutputHandler ≠ 0 then (applStopOutputHandler, stateTrans, stopOutput s)
    else (applStopOutputHandler, SAFEOP_2_PREOP, stopInput (stopOutput s))
  | SAFEOP_2_PREOP => (0, stateTrans, stopInput s)
  | OP_2_INIT =>
    if applStopOutputHandler ≠ 0 then (applStopOutputHandler, stateTrans, stopOutput s)
    else if applStopInputHandler ≠ 0 then (applStopInputHandler, SAFEOP_2_INIT, stopInput (stopOutput s))
    else
      let (result, s) := stopMailbox (stopInput (stopOutput s))
      (result, PREOP_2_INIT, s)
  | SAFEOP_2_INIT =>
    if applStopInputHandler ≠ 0 then (applStopInputHandler, stateTrans, stopInput s)
    else
      let (result, s) := stopMailbox (stopInput s)
      (result, PREOP_2_INIT, s)
  | PREOP_2_INIT => ((stopMailbox s).1, stateTrans, (stopMailbox s).2)
  | INIT_2_INIT =>
    let (result, s) := sameState bErrAck stateTrans (backToInitTransition s)
    (result, stateTrans, s)
  | PREOP_2_PREOP | SAFEOP_2_SAFEOP | OP_2_OP =>
    let (result, s) := sameState bErrAck stateTrans s
    (result, stateTrans, s)
  | INIT_2_SAFEOP | INIT_2_OP | PREOP_2_OP | PREOP_2_BOOT | SAFEOP_2_BOOT | OP_2_BOOT | BOOT_2_PREOP | BOOT_2_SAFEOP
  | BOOT_2_OP => (ALSTATUSCODE_INVALIDALCONTROL, stateTrans, s)
  | _ => (ALSTATUSCODE_UNKNOWNALCONTROL, stateTrans, s)

/-- The sync manager settings that go with the transition. -/
def smSettings (e : Regs) (stateTrans : ℕ) (s : Esm) : UInt16 × Esm :=
  let check maxChannel s := ((checkSmSettings e maxChannel s).1.toUInt16, (checkSmSettings e maxChannel s).2)
  match stateTrans with
  | INIT_2_PREOP | OP_2_PREOP | SAFEOP_2_PREOP | PREOP_2_PREOP => check (MAILBOX_READ + 1) s
  | PREOP_2_SAFEOP =>
    let (result, s) := applGenerateMapping s
    if result ≠ 0 then (result, s) else check s.nMaxSyncMan.toNat s
  | SAFEOP_2_OP | OP_2_SAFEOP | SAFEOP_2_SAFEOP | OP_2_OP => check s.nMaxSyncMan.toNat s
  | _ => (0, s)

/-- The way down when the sync manager settings are wrong, from PREOP or higher. -/
def backToPreop (result : UInt16) (s : Esm) : Esm :=
  if result = ALSTATUSCODE_INVALIDMBXCFGINPREOP.toUInt16 then { stopMailboxHandler s with nAlStatus := STATE_INIT }
  else { s with nAlStatus := STATE_PREOP }

def fallBack (result : UInt16) (s : Esm) : Esm :=
  if s.nAlStatus = STATE_OP then backToPreop result (stopInputHandler (stopOutputHandler s))
  else if s.nAlStatus = STATE_SAFEOP then backToPreop result (stopInputHandler s)
  else if s.nAlStatus = STATE_PREOP then backToPreop result s
  else s

def timeout (stateTrans : ℕ) : ℤ :=
  match stateTrans with
  | INIT_2_PREOP | INIT_2_BOOT => PREOPTIMEOUT
  | PREOP_2_SAFEOP | SAFEOP_2_OP => SAFEOP2OPTIMEOUT
  | _ => 200

/-- A local request or an error, and OP is one of the two states. -/
def leaveOp (s : Esm) : Esm :=
  let s := if s.bEcatOutputUpdateRunning then stopOutputHandler s else s
  { s with pdiDisabled := pdChannel disableSyncManChannel s }

/-- The end of `AL_ControlInd`. -/
def conclude (alControl : UInt8) (alStatusCode result : UInt16) (stateTrans : ℕ) (s : Esm) : Esm :=
  if result = NOERROR_INWORK then
    { s with
      bEcatWaitForAlControlRes := true
      nEcatStateTrans := .ofNat stateTrans
      esmTimeoutCounter := timeout stateTrans - 50 }
  else if alControl ≠ s.nAlStatus &&& STATE_MASK then
    let s := if (result ≠ 0 ∨ alStatusCode ≠ 0) ∧ (alControl ||| s.nAlStatus) &&& STATE_OP ≠ 0 then leaveOp s else s
    if result ≠ 0 then
      setAlStatus ((if s.nAlStatus = STATE_OP then STATE_SAFEOP else s.nAlStatus) ||| STATE_CHANGE) result
        { s with bEcatWaitForAlControlRes := false }
    else if alStatusCode ≠ 0 then
      setAlStatus (alControl ||| STATE_CHANGE) alStatusCode { s with bEcatWaitForAlControlRes := false }
    else setAlStatus alControl result { s with bEcatWaitForAlControlRes := false }
  else setAlStatus s.nAlStatus 0 { s with bEcatWaitForAlControlRes := false }

/-- `AL_ControlInd` behind the handling of the error flag; `alControl` has been masked. The settings are checked
and taken over from one read of the registers. -/
def request (e : Regs) (alControl : UInt8) (alStatusCode : UInt16) (bErrAck : Bool) (s : Esm) : Esm :=
  let stateTrans := (s.nAlStatus <<< 4 + alControl).toNat
  let (result, s) := smSettings e stateTrans s
  if result = 0 then
    let (result, stateTrans, s) := services e bErrAck stateTrans { s with nEcatStateTrans := 0 }
    conclude alControl alStatusCode result stateTrans s
  else conclude alControl alStatusCode result stateTrans (fallBack result s)

def alControlInd (e : Regs) (alControl : UInt8) (alStatusCode : UInt16) (s : Esm) : Esm :=
  let s := { s with esmTimeoutCounter := -1, bApplEsmPending := true }
  if alControl &&& STATE_CHANGE ≠ 0 then
    request e (alControl &&& STATE_MASK) alStatusCode true { s with nAlStatus := s.nAlStatus &&& ~~~ STATE_CHANGE }
  else if s.nAlStatus &&& STATE_CHANGE ≠ 0 ∧ alControl &&& STATE_MASK ≠ STATE_INIT then s
  else request e (alControl &&& STATE_MASK) alStatusCode false { s with nAlStatus := s.nAlStatus &&& STATE_MASK }

end Ecat
end Dcs
