import Mathlib
import Dcs.Lib.Rmw

/-!
# The mailbox of the EtherCAT slave (`mailbox.c`, `ecatcoe.c`)

There are two buffers and four pointers into them: one buffer takes what the master writes and the answer
to it (`psWriteMbx`), one holds what waits in the send mailbox (`psReadMbx`), and the last datagram the
master has read is kept in case it asks for it again (`psRepeatMbx`, `psStoreMbx`). This is the
configuration of `ecat_def.h`: no queue, and CoE the only protocol.

The model is above the hardware accessors, which are taken to transfer what they are given. What
`HW_EscReadMbxMem` leaves in a buffer is an argument, and of what is handed to `HW_EscWriteMbxMem` the send
mailbox gets as much as it has room for; the rest is written behind it, where no master reads it. The SDO
server is the parameter `Service`; in the object dictionaries of this program all access functions are `NULL`,
so no request is left in work and each one is either refused or answered at once.

A buffer has `MAX_MBX_SIZE` bytes. What is behind it is not in the model, which goes no further than to the
first access to it (`overrun`).
-/

namespace Dcs
namespace Ecat
open Function

/-- `TMBX`, as its bytes. -/
abbrev Tmbx := ℕ → UInt8

def MBX_HEADER_SIZE : ℕ := 6
def MAX_MBX_SIZE : UInt16 := 0x0100
def MIN_MBX_SIZE : UInt16 := 0x0022
def MAX_MBX_DATA_SIZE : ℕ := MAX_MBX_SIZE.toNat - MBX_HEADER_SIZE
def MBX_MASK_TYPE : UInt16 := 0x0F00
def MBX_SHIFT_TYPE : UInt16 := 8
def MBX_MASK_COUNTER : UInt16 := 0xF000
def MBX_SHIFT_COUNTER : UInt16 := 12
def MBX_TYPE_COE : UInt16 := 3
def MBXSERVICE_MBXERRORCMD : UInt16 := 0x01
def MBXERR_UNSUPPORTEDPROTOCOL : UInt8 := 0x02
def MBXERR_SERVICENOTSUPPORTED : UInt8 := 0x04
def MBXERR_INVALIDHEADER : UInt8 := 0x05
def MBXERR_NOMOREMEMORY : UInt8 := 0x07
def MBXERR_INVALIDSIZE : UInt8 := 0x08
def ERROR_INVALIDSTATE : UInt8 := 0xF0
def COE_SERVICE : UInt8 := 0x02
def FRAGMENTS_FOLLOW : UInt8 := 0x80
def STATE_INIT : UInt8 := 0x01
def STATE_MASK : UInt8 := 0x0F

namespace Tmbx

def word (b : Tmbx) (i : ℕ) : UInt16 := .ofNat ((b i).toNat + 256 * (b (i + 1)).toNat)

def setWord (b : Tmbx) (i : ℕ) (w : UInt16) : Tmbx :=
  update (update b i (.ofNat w.toNat)) (i + 1) (.ofNat (w.toNat / 256))

def length (b : Tmbx) : UInt16 := b.word 0

def flags (b : Tmbx) : UInt16 := b.word 4

/-- The first word behind the header, in a CoE datagram. -/
def coeHeader (b : Tmbx) : UInt16 := b.word MBX_HEADER_SIZE

def counter (b : Tmbx) : UInt8 := (b.flags >>> MBX_SHIFT_COUNTER).toUInt8

/-- There are at most `n` bytes behind the header of the datagram. -/
def Short (n : ℕ) (b : Tmbx) : Prop := b.length.toNat ≤ n

/-- What is handed to `HW_EscWriteMbxMem`. -/
def datagram (b : Tmbx) : List UInt8 := (List.range ((b.length + .ofNat MBX_HEADER_SIZE).toNat)).map b

end Tmbx

/-- `memcpy`. -/
def copyBytes (n : ℕ) (src dst : Tmbx) : Tmbx := fun i => if i < n then src i else dst i

/-- What the send mailbox has of the datagram. If its last byte has not filled the mailbox, the last word of the
mailbox is written as well, with the bytes it shares with the datagram. -/
def sendBytes (u16SendMbxSize : UInt16) (b : Tmbx) : List UInt8 :=
  let len := b.length + .ofNat MBX_HEADER_SIZE
  let bytesLeft := (u16SendMbxSize - len).toUInt8
  let lastDataAddress := len.toNat / 2 * 2
  let dummy (k : ℕ) : UInt8 := if k + bytesLeft.toNat < 2 then b (lastDataAddress + k) else 0
  (List.range (min len.toNat u16SendMbxSize.toNat)).map fun i =>
    if u16SendMbxSize ≤ len then b i
    else if u16SendMbxSize.toNat ≤ i + 2 then dummy (i + 2 - u16SendMbxSize.toNat) else b i

/-- What a function of the SDO server does with a request: it returns an error, or it puts an answer into
the buffer and calls `MBX_MailboxSendReq` with some flags. -/
inductive Answer
  | ret (result : UInt8)
  | respond (flags : UInt8)

def SDO_INFO_HEADER_BYTE_SIZE : ℕ := 14

/-- The SDO server (`sdoserv.c`), with the states it can be in. What it answers fits into a buffer, but for the
request of an object list that it does not know: this one `SDOS_SdoInfoInd` sends back as it is, with the
length the master has given it. What it has stored for the next fragment is of a list it knows. -/
structure Service (σ : Type*) where
  sdosSdoInd : σ → Tmbx → σ × Tmbx × Answer
  sdosSdoInfoInd : σ → Tmbx → σ × Tmbx × Answer
  aSdoInfoHeader : σ → Tmbx
  ret_ne : ∀ f ∈ [sdosSdoInd, sdosSdoInfoInd], ∀ s b r, (f s b).2.2 = .ret r → r ≠ 0
  fits : ∀ f ∈ [sdosSdoInd, sdosSdoInfoInd], ∀ s b fl, (f s b).2.2 = .respond fl →
    (f s b).2.1.Short MAX_MBX_DATA_SIZE ∨ (f s b).2.1 = b
  continues : ∀ s b fl,
    (sdosSdoInfoInd s (copyBytes SDO_INFO_HEADER_BYTE_SIZE (aSdoInfoHeader s) b)).2.2 = .respond fl →
      (sdosSdoInfoInd s (copyBytes SDO_INFO_HEADER_BYTE_SIZE (aSdoInfoHeader s) b)).2.1.Short MAX_MBX_DATA_SIZE
  coe_flags : ∀ f ∈ [sdosSdoInd, sdosSdoInfoInd], ∀ s b fl, (f s b).2.2 = .respond fl →
    fl = COE_SERVICE ∨ fl = FRAGMENTS_FOLLOW ||| COE_SERVICE

/-- `sent` and `overrun` are not variables of the program: `sent` is what `MBX_MailboxSendReq` has handed to the
send mailbox since the mailbox was started, and `overrun` says that a buffer was read or written behind its
end. -/
structure Mailbox where
  asMbx : Fin 2 → Tmbx
  psWriteMbx : Option (Fin 2)
  psReadMbx : Option (Fin 2)
  psRepeatMbx : Option (Fin 2)
  psStoreMbx : Option (Fin 2)
  pCoeSendStored : Option (Fin 2)
  bMbxRunning : Bool
  bSendMbxIsFull : Bool
  bReceiveMbxIsLocked : Bool
  bMbxRepeatToggle : Bool
  bPendingMbxResponse : Bool
  u8MailboxSendReqStored : UInt8
  u8MbxWriteCounter : UInt8
  u8MbxReadCounter : UInt8
  nAlStatus : UInt8
  u16ReceiveMbxSize : UInt16
  u16SendMbxSize : UInt16
  sendMbx : Option (List UInt8)
  sent : List (List UInt8)
  overrun : Bool

/-- The variables that `MBX_Init` and `MBX_StopMailboxHandler` reset. -/
def mbxStopMailboxHandler (m : Mailbox) : Mailbox :=
  { m with
    bMbxRunning := false
    psWriteMbx := some 0
    psRepeatMbx := none
    psReadMbx := none
    psStoreMbx := none
    bMbxRepeatToggle := false
    bSendMbxIsFull := false
    bReceiveMbxIsLocked := false
    u8MailboxSendReqStored := 0
    u8MbxWriteCounter := 0
    u8MbxReadCounter := 0
    bPendingMbxResponse := false
    sendMbx := none
    sent := [] }

/-- Where the pointers are. `fresh`: nothing was sent since the mailbox was started. `first`: the first datagram
waits. `idle i`: buffer `i` is free and the other one has the datagram that was read last. `waiting i`: the
datagram in `i` waits. `repeated i`: the one that was read last waits again and the one in `i` comes after it. -/
inductive Pos
  | fresh
  | first
  | idle (i : Fin 2)
  | waiting (i : Fin 2)
  | repeated (i : Fin 2)

namespace Pos

def write : Pos → Option (Fin 2)
  | fresh => some 0
  | first => some 1
  | idle i => some i
  | waiting _ | repeated _ => none

def read : Pos → Option (Fin 2)
  | fresh => none
  | first => some 0
  | idle i | repeated i => some (i + 1)
  | waiting i => some i

def kept : Pos → Option (Fin 2)
  | fresh | first => none
  | idle i | waiting i | repeated i => some (i + 1)

def store : Pos → Option (Fin 2)
  | repeated i => some i
  | _ => none

def full : Pos → Bool
  | fresh | idle _ => false
  | _ => true

end Pos

/-- The last branch of `MBX_CopyToSendMailbox`. A buffer that is not the free one is copied into it, if
there is a free one. -/
def fillSendMailbox (m : Mailbox) (pMbx : Fin 2) : Mailbox :=
  let b := m.asMbx pMbx
  { m with
    sendMbx := some (sendBytes m.u16SendMbxSize b)
    asMbx := match m.psWriteMbx with
      | some w => if pMbx ≠ w then
          update m.asMbx w (copyBytes (b.length.toNat + MBX_HEADER_SIZE) b (m.asMbx w)) else m.asMbx
      | none => m.asMbx
    psReadMbx := some (m.psWriteMbx.getD pMbx)
    psWriteMbx := if m.psReadMbx.isSome then none else some 1
    bSendMbxIsFull := true
    bPendingMbxResponse := false
    overrun := m.overrun || decide (MAX_MBX_SIZE.toNat < b.length.toNat + MBX_HEADER_SIZE) }

def mbxCopyToSendMailbox (m : Mailbox) (pMbx : Fin 2) : UInt8 × Mailbox :=
  if m.nAlStatus &&& STATE_MASK = STATE_INIT then (ERROR_INVALIDSTATE, m)
  else if ¬ m.bMbxRunning then (ERROR_INVALIDSTATE, m)
  else if m.bSendMbxIsFull then (MBXERR_NOMOREMEMORY, m)
  else (0, fillSendMailbox m pMbx)

def stamp (b : Tmbx) (u8MbxReadCounter : UInt8) : Tmbx :=
  b.setWord 4 (b.flags &&& ~~~ MBX_MASK_COUNTER ||| u8MbxReadCounter.toUInt16 <<< MBX_SHIFT_COUNTER)

/-- Only 1 to 7 are counters. -/
def nextCounter (u8MbxReadCounter : UInt8) : UInt8 := if u8MbxReadCounter &&& 0x07 = 0 then 1 else u8MbxReadCounter

/-- `MBX_MailboxSendReq` up to the call of `MBX_CopyToSendMailbox`. -/
def stampCounter (m : Mailbox) (pMbx : Fin 2) : Mailbox :=
  { m with
    u8MbxReadCounter := nextCounter m.u8MbxReadCounter
    asMbx := update m.asMbx pMbx (stamp (m.asMbx pMbx) (nextCounter m.u8MbxReadCounter)) }

def mbxMailboxSendReq (m : Mailbox) (pMbx : Fin 2) (flags : UInt8) : UInt8 × Mailbox :=
  if m.nAlStatus &&& STATE_MASK = STATE_INIT then (ERROR_INVALIDSTATE, m)
  else
    let m := stampCounter m pMbx
    let copied := mbxCopyToSendMailbox m pMbx
    let (result, flags, m) :=
      if copied.1 ≠ 0 then (1, flags ||| FRAGMENTS_FOLLOW, copied.2)
      else (0, flags, { copied.2 with
        u8MbxReadCounter := copied.2.u8MbxReadCounter + 1, sent := m.sent ++ [(m.asMbx pMbx).datagram] })
    (result, { m with
      u8MailboxSendReqStored :=
        if flags &&& FRAGMENTS_FOLLOW ≠ 0 then m.u8MailboxSendReqStored ||| (flags &&& ~~~ FRAGMENTS_FOLLOW)
        else m.u8MailboxSendReqStored })

/-- The stack: the state of the SDO server and the mailbox. -/
structure Stack (σ : Type*) where
  objects : σ
  mbx : Mailbox

variable {σ : Type*} (V : Service σ)

/-- A call of the SDO server, up to its return. -/
def sdosCall (f : σ → Tmbx → σ × Tmbx × Answer) (s : Stack σ) (pMbx : Fin 2) : UInt8 × Stack σ :=
  let (objects, b, answer) := f s.objects (s.mbx.asMbx pMbx)
  let m := { s.mbx with asMbx := update s.mbx.asMbx pMbx b }
  match answer with
  | .ret result => (result, ⟨objects, m⟩)
  | .respond flags =>
    let (result, m) := mbxMailboxSendReq m pMbx flags
    (0, ⟨objects, if result ≠ 0 then { m with pCoeSendStored := some pMbx } else m⟩)

def coeServiceInd (s : Stack σ) (pCoeMbx : Fin 2) : UInt8 × Stack σ :=
  match ((s.mbx.asMbx pCoeMbx).coeHeader >>> 12).toNat with
  | 2 => sdosCall V.sdosSdoInd s pCoeMbx
  | 8 => sdosCall V.sdosSdoInfoInd s pCoeMbx
  | 1 | 3 | 4 | 5 | 6 | 7 => (MBXERR_SERVICENOTSUPPORTED, s)
  | _ => (MBXERR_INVALIDHEADER, s)

/-- `COE_ContinueInd`; without a stored service it writes through `pMbx`, which must not be `NULL`. -/
def coeContinueInd (s : Stack σ) (pMbx : Option (Fin 2)) : Option (Stack σ) :=
  match s.mbx.pCoeSendStored with
  | some p =>
    some { s with mbx := { (mbxMailboxSendReq s.mbx p 0).2 with pCoeSendStored := none } }
  | none => pMbx.map fun p =>
    let b := copyBytes SDO_INFO_HEADER_BYTE_SIZE (V.aSdoInfoHeader s.objects) (s.mbx.asMbx p)
    (sdosCall V.sdosSdoInfoInd { s with mbx := { s.mbx with asMbx := update s.mbx.asMbx p b } } p).2

def mailboxServiceInd (s : Stack σ) (pMbx : Fin 2) : UInt8 × Stack σ :=
  if ((s.mbx.asMbx pMbx).flags &&& MBX_MASK_TYPE) >>> MBX_SHIFT_TYPE = MBX_TYPE_COE then coeServiceInd V s pMbx
  else (MBXERR_UNSUPPORTEDPROTOCOL, s)

/-- The mailbox error response in `MBX_MailboxWriteInd`. -/
def errorResponse (b : Tmbx) (result : UInt16) : Tmbx :=
  let b := b.setWord 0 4
  let b := b.setWord 4 (b.flags &&& ~~~ MBX_MASK_TYPE)
  (b.setWord MBX_HEADER_SIZE MBXSERVICE_MBXERRORCMD).setWord (MBX_HEADER_SIZE + 2) result

def sendError (m : Mailbox) (pMbx : Fin 2) (result : UInt16) : Mailbox :=
  (mbxMailboxSendReq { m with asMbx := update m.asMbx pMbx (errorResponse (m.asMbx pMbx) result) } pMbx 0).2

def mbxMailboxWriteInd (s : Stack σ) (pMbx : Fin 2) : Stack σ :=
  let mbxCounter := (s.mbx.asMbx pMbx).counter
  if MAX_MBX_SIZE < (s.mbx.asMbx pMbx).length then
    { s with mbx := sendError s.mbx pMbx MBXERR_INVALIDSIZE.toUInt16 }
  else if mbxCounter = 0 ∨ mbxCounter ≠ s.mbx.u8MbxWriteCounter then
    let (result, s) := mailboxServiceInd V { s with mbx := { s.mbx with u8MbxWriteCounter := mbxCounter } } pMbx
    if result ≠ 0 then { s with mbx := sendError s.mbx pMbx result.toUInt16 } else s
  else s

/-- `MBX_MailboxReadInd` up to what is to be sent next. -/
def readDone (m : Mailbox) : Mailbox :=
  { m with
    bSendMbxIsFull := false
    psWriteMbx := if m.psRepeatMbx.isSome ∧ m.psStoreMbx = none then m.psRepeatMbx else m.psWriteMbx
    psRepeatMbx := m.psReadMbx }

/-- `none` when a `NULL` pointer is written through. -/
def mbxMailboxReadInd (s : Stack σ) : Option (Stack σ) :=
  let m := readDone s.mbx
  match s.mbx.psStoreMbx with
  | some p => some { s with mbx := { (mbxCopyToSendMailbox m p).2 with psStoreMbx := none } }
  | none =>
    if m.u8MailboxSendReqStored &&& COE_SERVICE ≠ 0 then
      coeContinueInd V { s with mbx := { m with
        u8MailboxSendReqStored := m.u8MailboxSendReqStored &&& ~~~ COE_SERVICE } } m.psWriteMbx
    else some { s with mbx := m }

/-- The datagram that has not been read is taken off, to be sent after the repeated one. -/
def storeUnread (m : Mailbox) : Mailbox :=
  if m.bSendMbxIsFull ∧ m.psStoreMbx = none then
    { m with psStoreMbx := m.psReadMbx, bSendMbxIsFull := false, sendMbx := none }
  else m

/-- `MBX_MailboxRepeatReq` up to the acknowledge bit. -/
def resend (m : Mailbox) : Mailbox :=
  match m.psRepeatMbx with
  | some pMbx => (mbxCopyToSendMailbox (storeUnread m) pMbx).2
  | none => m

def mbxMailboxRepeatReq (m : Mailbox) : Mailbox :=
  { resend m with bMbxRepeatToggle := !(resend m).bMbxRepeatToggle }

/-- A datagram in the receive mailbox: its first word as `HW_EscReadWord` reads it, and what
`HW_EscReadMbxMem` makes of a buffer. -/
structure Received where
  length : UInt16
  readMbxMem : UInt16 → Tmbx → Tmbx

/-- A received datagram has to wait. -/
def Blocked (m : Mailbox) : Prop := m.bSendMbxIsFull ∨ m.u8MailboxSendReqStored ≠ 0 ∨ m.bPendingMbxResponse

instance (m : Mailbox) : Decidable (Blocked m) := inferInstanceAs (Decidable (_ ∨ _ ∨ _))

def copyReceived (m : Mailbox) (r : Received) (p : Fin 2) : Mailbox :=
  let mbxLen := r.length + .ofNat MBX_HEADER_SIZE
  let mbxLen := if m.u16ReceiveMbxSize < mbxLen then m.u16ReceiveMbxSize else mbxLen
  { m with
    bReceiveMbxIsLocked := false
    asMbx := update m.asMbx p (r.readMbxMem mbxLen (m.asMbx p))
    bPendingMbxResponse := true
    overrun := m.overrun || decide (MAX_MBX_SIZE < mbxLen) }

def mbxCheckAndCopyMailbox (s : Stack σ) (r : Received) : Option (Stack σ) :=
  if Blocked s.mbx then some { s with mbx := { s.mbx with bReceiveMbxIsLocked := true } }
  else s.mbx.psWriteMbx.map fun p => mbxMailboxWriteInd V { s with mbx := copyReceived s.mbx r p } p

end Ecat
end Dcs
