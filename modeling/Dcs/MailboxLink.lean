import Dcs.MailboxCalls

/-!
# The mailbox and its master

The slave polls: `ECAT_Main` reads the repeat bit of the master, then the events, and then handles a read
mailbox, a repeat request and a written mailbox in this order. Its steps are interleaved with those of a
master that may lose what it reads, asks for a repetition when it thinks that it has, and does not read
while one is due. Of the controller the model has what the comments in `ECAT_Main` say: a read or written
mailbox raises an event, and the event is taken back by writing or reading the mailbox.

The system refines `Redelivery`: whatever is lost and however the steps are interleaved, the master gets
each datagram that was sent exactly once and in order, as far as the send mailbox had room for it. A run goes
on to the first access behind a buffer and not further. To get there the master has to be sent back a
datagram that is longer than a buffer (`Service`); with none that long there is no such access.
-/

namespace Dcs
namespace Ecat
open Function Mailbox

/-- Where `ECAT_Main` is: in front of `MBX_Main`, of the reads of the activate word of sync manager 1 and of
the events, and of the handling of the three mailbox events, with what it has read by then. -/
inductive Phase
  | main
  | activate
  | events (repeatBit : Bool)
  | read (repeatBit readEvent : Bool)
  | again (repeatBit : Bool)
  | written
  deriving DecidableEq

/-- `sm0` is the receive mailbox, `asked` the repeat bit the master sets; the acknowledge bit is
`bMbxRepeatToggle`. `owed` and `received` are the master's, and `written` and `copied` are what was put into
the receive mailbox and taken from it. `fault` is set when the program goes through a `NULL` pointer or looks
for a datagram where there is none. -/
structure Link (σ : Type*) where
  slave : Stack σ
  phase : Phase
  sm0 : Option Received
  writeEvent : Bool
  readEvent : Bool
  asked : Bool
  received : List (List UInt8)
  owed : Bool
  written : List Received
  copied : List Received
  fault : Bool

inductive LinkAction
  | write (r : Received)
  | read (arrives : Bool)
  | doubt
  | ask
  | poll

variable {σ : Type*} (V : Service σ)

namespace Link

/-- A repetition is due. -/
def Due (s : Link σ) : Prop := s.asked ≠ s.slave.mbx.bMbxRepeatToggle

instance (s : Link σ) : Decidable s.Due := inferInstanceAs (Decidable (_ ≠ _))

/-- `MBX_CheckAndCopyMailbox`; to read the length of the datagram takes the event back. -/
def check (s : Link σ) : Link σ :=
  match s.sm0.bind fun r => (mbxCheckAndCopyMailbox V s.slave r).map fun slave => (r, slave) with
  | none => { s with fault := true }
  | some (r, slave) => { s with
      slave
      writeEvent := false
      sm0 := if slave.mbx.bReceiveMbxIsLocked then some r else none
      copied := if slave.mbx.bReceiveMbxIsLocked then s.copied else s.copied ++ [r] }

def mbxMain (s : Link σ) : Link σ := if s.slave.mbx.bReceiveMbxIsLocked then s.check V else s

/-- The next step of `ECAT_Main`, as far as it is about the mailbox and while it runs. -/
def ecatMain (s : Link σ) : Link σ :=
  match s.phase with
  | .main => { s.mbxMain V with phase := .activate }
  | .activate => { s with phase := .events s.asked }
  | .events b => { s with phase := .read b s.readEvent }
  | .read b event =>
    if event then
      match mbxMailboxReadInd V s.slave with
      | none => { s with fault := true }
      | some slave => { s with slave, readEvent := false, phase := .again b }
    else { s with phase := .again b }
  | .again b =>
    { s with
      slave := if b ≠ s.slave.mbx.bMbxRepeatToggle then { s.slave with mbx := mbxMailboxRepeatReq s.slave.mbx }
        else s.slave
      phase := .written }
  | .written => { (if s.writeEvent then s.check V else s) with phase := .main }

def next (s : Link σ) : LinkAction → Link σ
  | .write r => { s with sm0 := some r, writeEvent := true, written := s.written ++ [r] }
  | .read arrives =>
    match s.slave.mbx.sendMbx with
    | none => s
    | some d => { s with
        slave := { s.slave with mbx := { s.slave.mbx with sendMbx := none } }
        readEvent := true
        received := if arrives then Redelivery.keep key s.received d else s.received
        owed := !arrives }
  | .doubt => { s with owed := true }
  | .ask => { s with asked := !s.asked, owed := false }
  | .poll => s.ecatMain V

/-- The rules that the master keeps. -/
def Allowed (s : Link σ) : LinkAction → Prop
  | .write _ => s.sm0 = none
  | .read _ => s.slave.mbx.sendMbx ≠ none ∧ s.owed = false ∧ ¬ s.Due
  | .doubt => ¬ s.Due
  | .ask => s.owed = true ∧ ¬ s.Due
  | .poll => True

def Enabled (s : Link σ) (a : LinkAction) : Prop := s.slave.mbx.overrun = false ∧ Allowed s a

/-- The mailbox has been started, with the sizes that `CheckSmSettings` lets through, and the master has its
bits at zero. -/
structure Start (s : Link σ) : Prop where
  stopped : mbxStopMailboxHandler s.slave.mbx = { s.slave.mbx with bMbxRunning := false }
  running : s.slave.mbx.bMbxRunning = true
  status : s.slave.mbx.nAlStatus &&& STATE_MASK ≠ STATE_INIT
  receive : s.slave.mbx.u16ReceiveMbxSize ≤ MAX_MBX_SIZE
  send : MIN_MBX_SIZE ≤ s.slave.mbx.u16SendMbxSize ∧ s.slave.mbx.u16SendMbxSize ≤ MAX_MBX_SIZE
  even : s.slave.mbx.u16SendMbxSize.toNat % 2 = 0
  unsent : s.slave.mbx.pCoeSendStored = none
  overrun : s.slave.mbx.overrun = false
  phase : s.phase = .main
  rest : s.sm0 = none ∧ s.writeEvent = false ∧ s.readEvent = false ∧ s.asked = false ∧ s.received = [] ∧
    s.owed = false ∧ s.written = [] ∧ s.copied = [] ∧ s.fault = false

def system : Lts.System (Link σ) LinkAction where
  Init := Start
  Enabled := Enabled
  next := next V

/-! ### The invariant -/

/-- What `ECAT_Main` has read is not out of date: a repetition it is about to handle is still due, and the
master had read what it had to read before it asked for it. -/
def PhaseOk (s : Link σ) : Prop :=
  match s.phase with
  | .events b => b ≠ s.slave.mbx.bMbxRepeatToggle → s.Due
  | .read b event => (event = true → s.readEvent = true) ∧
      (b ≠ s.slave.mbx.bMbxRepeatToggle → s.Due ∧ (s.readEvent = true → event = true))
  | .again b => b ≠ s.slave.mbx.bMbxRepeatToggle → s.Due ∧ s.readEvent = false
  | _ => True

structure Inv (n : ℕ) (s : Link σ) : Prop where
  good : Good n s.slave.mbx
  send : s.slave.mbx.sendMbx = if s.readEvent then none else s.slave.mbx.waiting
  event : s.readEvent = true → s.slave.mbx.bSendMbxIsFull = true
  owed : s.Due → s.owed = false
  receive : s.slave.mbx.bReceiveMbxIsLocked = true ∨ s.writeEvent = true → s.sm0.isSome
  short : ∀ r ∈ s.sm0, r.Short n
  phase : s.PhaseOk
  fault : s.fault = false

/-- What the master sees. -/
def view (s : Link σ) : Redelivery.State (List UInt8) where
  sent := s.slave.mbx.sent.map s.slave.mbx.cut
  box := (if s.readEvent then [] else s.slave.mbx.waiting.toList) ++ s.slave.mbx.stored.toList
  last := if s.readEvent then s.slave.mbx.waiting else s.slave.mbx.kept
  received := s.received
  owed := s.owed || (s.asked != s.slave.mbx.bMbxRepeatToggle)

/-- The change can be made by steps of `Redelivery`. -/
def Matched (s s' : Link σ) : Prop :=
  ∃ as, (Redelivery.system key).Runs (fun _ _ => True) s.view as ∧ s'.view = (Redelivery.system key).run s.view as

variable {V} {n : ℕ} {s s' : Link σ}

theorem Matched.of_eq (h : s'.view = s.view) : Matched s s' := ⟨[], trivial, h⟩

theorem Matched.of_step {a : Redelivery.Action (List UInt8)} (ha : Redelivery.Enabled key s.view a)
    (h : s'.view = Redelivery.next key s.view a) : Matched s s' :=
  ⟨[a], ⟨ha, trivial, trivial⟩, h⟩

theorem view_congr (hwaiting : s'.slave.mbx.waiting = s.slave.mbx.waiting)
    (hstored : s'.slave.mbx.stored = s.slave.mbx.stored) (hkept : s'.slave.mbx.kept = s.slave.mbx.kept)
    (hsent : s'.slave.mbx.sent = s.slave.mbx.sent) (hsize : s'.slave.mbx.u16SendMbxSize = s.slave.mbx.u16SendMbxSize)
    (htoggle : s'.slave.mbx.bMbxRepeatToggle = s.slave.mbx.bMbxRepeatToggle) (hev : s'.readEvent = s.readEvent)
    (hasked : s'.asked = s.asked) (hrec : s'.received = s.received) (howed : s'.owed = s.owed) :
    s'.view = s.view := by
  unfold view
  rw [hwaiting, hstored, hkept, hsent, cut_congr hsize, htoggle, hev, hasked, hrec, howed]

/-- The key of the last datagram is what the master sees of it. -/
theorem map_cut_getLast {m : Mailbox} (hsize : MIN_MBX_SIZE ≤ m.u16SendMbxSize) {d : List UInt8}
    (hnew : m.sent.getLast?.map key ≠ some (key d)) :
    (m.sent.map m.cut).getLast?.map key ≠ some (key (m.cut d)) := by
  have hkey : ∀ d, key (m.cut d) = key d := key_take (UInt16.le_iff_toNat_le.1 hsize)
  rw [List.getLast?_map, Option.map_map, hkey]
  have hcomp : key ∘ m.cut = key := funext hkey
  rwa [hcomp]

theorem Inv.synced (h : s.Inv n) (hev : s.readEvent = false) : s.slave.mbx.Synced := by
  have hsend := h.send
  rwa [hev, if_neg Bool.false_ne_true] at hsend

theorem Start.pos (h : s.Start) : At s.slave.mbx .fresh :=
  have hst := h.stopped
  ⟨(congrArg Mailbox.psWriteMbx hst).symm, (congrArg Mailbox.psReadMbx hst).symm,
    (congrArg Mailbox.psRepeatMbx hst).symm, (congrArg Mailbox.psStoreMbx hst).symm,
    (congrArg Mailbox.bSendMbxIsFull hst).symm⟩

theorem Start.sent (h : s.Start) : s.slave.mbx.sent = [] := (congrArg Mailbox.sent h.stopped).symm

theorem Inv.start (h : s.Start) (hn : MAX_MBX_DATA_SIZE ≤ n ∧ n ≤ MAX_MBX_SIZE.toNat) : s.Inv n := by
  obtain ⟨hsm0, hwrite, hread, hasked, hrec, howed, hwritten, hcopied, hfault⟩ := h.rest
  have hst := h.stopped
  have hflags : s.slave.mbx.u8MailboxSendReqStored = 0 := (congrArg Mailbox.u8MailboxSendReqStored hst).symm
  have hlocked : s.slave.mbx.bReceiveMbxIsLocked = false := (congrArg Mailbox.bReceiveMbxIsLocked hst).symm
  have hsend : s.slave.mbx.sendMbx = none := (congrArg Mailbox.sendMbx hst).symm
  have hcount : s.slave.mbx.u8MbxReadCounter = 0 := (congrArg Mailbox.u8MbxReadCounter hst).symm
  have hpos := h.pos
  refine ⟨⟨hn, ⟨.fresh, hpos⟩, fun i hi => ?_, fun _ => h.overrun, h.status, h.running, h.receive, h.send.1, h.even,
    h.unsent, .inl hflags, fun _ => hflags, ?_, ?_⟩, ?_, ?_, fun _ => howed, ?_, ?_, ?_, hfault⟩
  · rcases hi with hi | hi | hi
    · cases hpos.read.symm.trans hi
    · cases hpos.kept.symm.trans hi
    · cases hpos.store.symm.trans hi
  · rw [hcount]; decide
  · rw [h.sent]; simp
  · rw [hsend, hread, Good.waiting_free hpos.full]; rfl
  · rw [hread]; intro hfalse; cases hfalse
  · rw [hlocked, hwrite]; simp
  · rw [hsm0]; simp
  · unfold PhaseOk; rw [h.phase]; trivial

theorem view_start (h : s.Start) : (Redelivery.system key).Init s.view := by
  obtain ⟨hsm0, hwrite, hread, hasked, hrec, howed, hwritten, hcopied, hfault⟩ := h.rest
  have hkept : s.slave.mbx.psRepeatMbx = none := h.pos.kept
  have htoggle : s.slave.mbx.bMbxRepeatToggle = false := (congrArg Mailbox.bMbxRepeatToggle h.stopped).symm
  show s.view = _
  unfold view
  rw [hread, h.sent, Good.waiting_free h.pos.full, stored_none h.pos.store, hrec, howed, hasked, htoggle,
    Mailbox.kept, hkept]
  rfl

/-! ### The steps -/

theorem Inv.write (h : s.Inv n) {r : Received} (hr : r.Short n) :
    (next V s (.write r)).Inv n ∧ Matched s (next V s (.write r)) := by
  refine ⟨⟨h.good, h.send, h.event, h.owed, fun _ => rfl, fun r' hr' => ?_, h.phase, h.fault⟩, .of_eq rfl⟩
  obtain rfl : r = r' := Option.some.inj hr'
  exact hr

theorem Inv.read (h : s.Inv n) (arrives : Bool) (hsend : s.slave.mbx.sendMbx ≠ none) (howed : s.owed = false)
    (hdue : ¬ s.Due) : (next V s (.read arrives)).Inv n ∧ Matched s (next V s (.read arrives)) := by
  obtain ⟨d, hd⟩ := Option.ne_none_iff_exists'.1 hsend
  have hev : s.readEvent = false := by
    cases hev : s.readEvent with
    | false => rfl
    | true =>
      have hs := h.send
      rw [hev, if_pos rfl] at hs
      exact absurd hs hsend
  have hwaiting : s.slave.mbx.waiting = some d := (h.synced hev).symm.trans hd
  have hfull : s.slave.mbx.bSendMbxIsFull = true := by
    cases hf : s.slave.mbx.bSendMbxIsFull with
    | true => rfl
    | false => rw [Good.waiting_free hf] at hwaiting; cases hwaiting
  have hnext : next V s (.read arrives) = { s with
      slave := { s.slave with mbx := { s.slave.mbx with sendMbx := none } }
      readEvent := true
      received := if arrives then Redelivery.keep key s.received d else s.received
      owed := !arrives } := by
    simp only [next, hd]
  rw [hnext]
  constructor
  · obtain ⟨p, hp⟩ := h.good.pos
    refine ⟨⟨h.good.bound, ⟨p, hp.write, hp.read, hp.kept, hp.store, hp.full⟩, h.good.short, h.good.overrun,
      h.good.status, h.good.running, h.good.receive, h.good.send, h.good.even, h.good.unsent, h.good.flags,
      h.good.flags_idle, h.good.counter_le, h.good.counter⟩, rfl, fun _ => hfull, fun hd' => absurd hd' hdue,
      h.receive, h.short, ?_, h.fault⟩
    -- nothing is due, so all that a latched bit would mean is that it was handled
    have hphase := h.phase
    unfold PhaseOk at hphase ⊢
    dsimp only
    cases hph : s.phase with
    | main => trivial
    | activate => trivial
    | written => trivial
    | events b =>
      rw [hph] at hphase
      exact fun hb => absurd (hphase hb) hdue
    | read b event =>
      rw [hph] at hphase
      exact ⟨fun _ => rfl, fun hb => absurd (hphase.2 hb).1 hdue⟩
    | again b =>
      rw [hph] at hphase
      exact fun hb => absurd (hphase hb).1 hdue
  · have hdue' : s.asked = s.slave.mbx.bMbxRepeatToggle := not_not.1 hdue
    refine .of_step (a := .take arrives) ⟨?_, ?_⟩ ?_
    · simp [view, hev, hwaiting]
    · simp [view, howed, hdue']
    · have hbox : s.view.box = d :: s.slave.mbx.stored.toList := by simp [view, hev, hwaiting]
      simp only [Redelivery.next, hbox]
      show Redelivery.State.mk _ _ _ _ _ = Redelivery.State.mk _ _ _ _ _
      congr 1
      show (!arrives || (s.asked != s.slave.mbx.bMbxRepeatToggle)) = _
      rw [hdue', bne_self_eq_false, Bool.or_false]

theorem Inv.doubt (h : s.Inv n) (hdue : ¬ s.Due) : (next V s .doubt).Inv n ∧ Matched s (next V s .doubt) :=
  ⟨⟨h.good, h.send, h.event, fun hd => absurd hd hdue, h.receive, h.short, h.phase, h.fault⟩,
    .of_step (a := .doubt) trivial rfl⟩

theorem Inv.ask (h : s.Inv n) (howed : s.owed = true) (hdue : ¬ s.Due) :
    (next V s .ask).Inv n ∧ Matched s (next V s .ask) := by
  have hdue' : (next V s .ask).Due := by
    have heq : s.asked = s.slave.mbx.bMbxRepeatToggle := not_not.1 hdue
    show (!s.asked) ≠ s.slave.mbx.bMbxRepeatToggle
    rw [heq]
    simp
  refine ⟨⟨h.good, h.send, h.event, fun _ => rfl, h.receive, h.short, ?_, h.fault⟩, .of_eq ?_⟩
  · have hphase := h.phase
    unfold PhaseOk at hphase ⊢
    show match s.phase with
      | .events b => _
      | .read b event => _
      | .again b => _
      | _ => True
    cases hph : s.phase with
    | main => trivial
    | activate => trivial
    | written => trivial
    | events b => exact fun _ => hdue'
    | read b event =>
      rw [hph] at hphase
      exact ⟨hphase.1, fun hb => absurd (hphase.2 hb).1 hdue⟩
    | again b =>
      rw [hph] at hphase
      exact fun hb => absurd (hphase hb).1 hdue
  · unfold view
    congr 1
    show (false || (!s.asked) != s.slave.mbx.bMbxRepeatToggle) = (s.owed || _)
    rw [howed, not_not.1 hdue]
    simp

theorem Inv.check_eq (h : s.Inv n) (hlock : s.slave.mbx.bReceiveMbxIsLocked = true ∨ s.writeEvent = true) :
    ∃ r slave, s.sm0 = some r ∧ Good n slave.mbx ∧ Copied s.slave.mbx r slave.mbx ∧ s.check V = { s with
      slave
      writeEvent := false
      sm0 := if slave.mbx.bReceiveMbxIsLocked then some r else none
      copied := if slave.mbx.bReceiveMbxIsLocked then s.copied else s.copied ++ [r] } := by
  obtain ⟨r, hr⟩ := Option.isSome_iff_exists.1 (h.receive hlock)
  obtain ⟨slave, hslave, hgood, hcopied⟩ := h.good.checkAndCopy (V := V) (h.short r hr)
  refine ⟨r, slave, hr, hgood, hcopied, ?_⟩
  unfold check
  rw [hr, Option.bind_some, hslave]
  rfl

/-- The call of `MBX_CheckAndCopyMailbox`, at a point where nothing that was read is used again. -/
theorem Inv.check (h : s.Inv n) (hlock : s.slave.mbx.bReceiveMbxIsLocked = true ∨ s.writeEvent = true) {p : Phase}
    (hp : p = .main ∨ p = .activate) :
    ({ s.check V with phase := p } : Link σ).Inv n ∧ Matched s { s.check V with phase := p } := by
  obtain ⟨r, slave, hr, hgood, hcopied, heq⟩ := h.check_eq (V := V) hlock
  rw [heq]
  have hphase : ∀ t : Link σ, t.phase = p → t.PhaseOk := by
    intro t ht
    unfold PhaseOk
    rw [ht]
    obtain rfl | rfl := hp <;> trivial
  have hshort : ∀ r' ∈ (if slave.mbx.bReceiveMbxIsLocked then some r else none), r'.Short n := by
    intro r' hr'
    split at hr'
    · exact h.short r' (hr.trans hr')
    · cases hr'
  have hlocked : slave.mbx.bReceiveMbxIsLocked = true ∨ false = true →
      (if slave.mbx.bReceiveMbxIsLocked then some r else none).isSome := by
    rintro (hl | hf)
    · rw [if_pos hl]; rfl
    · cases hf
  rcases hcopied with ⟨-, hm⟩ | ⟨-, -, -, -, hsame⟩ | ⟨d, hfree, -, hsends⟩
  · refine ⟨⟨hgood, ?_, ?_, ?_, hlocked, hshort, hphase _ rfl, h.fault⟩, .of_eq ?_⟩
    · rw [hm]; exact h.send
    · rw [hm]; exact h.event
    · show s.asked ≠ slave.mbx.bMbxRepeatToggle → _
      rw [hm]; exact h.owed
    · exact view_congr (by rw [hm]; rfl) (by rw [hm]; rfl) (by rw [hm]; rfl) (by rw [hm]) (by rw [hm])
        (by rw [hm]) rfl rfl rfl rfl
  · have hdue : (s.asked ≠ slave.mbx.bMbxRepeatToggle) = s.Due := by rw [hsame.toggle]; rfl
    refine ⟨⟨hgood, ?_, ?_, ?_, hlocked, hshort, hphase _ rfl, h.fault⟩, .of_eq ?_⟩
    · rw [hsame.sendMbx, hsame.waiting]; exact h.send
    · rw [hsame.full]; exact h.event
    · show s.asked ≠ slave.mbx.bMbxRepeatToggle → _
      rw [hdue]; exact h.owed
    · exact view_congr hsame.waiting hsame.stored hsame.kept hsame.sent hsame.size hsame.toggle rfl rfl rfl rfl
  · -- the send mailbox was empty, and no event was left to be handled
    have hfull : s.slave.mbx.bSendMbxIsFull = false := Bool.eq_false_iff.2 fun hf => hfree (.inl hf)
    have hev : s.readEvent = false := Bool.eq_false_iff.2 fun hf => by rw [h.event hf] at hfull; cases hfull
    obtain ⟨hpos, -⟩ := h.good.free hfull
    have hstore : s.slave.mbx.psStoreMbx = none := by
      rcases hpos with hp' | ⟨i, hp'⟩ <;> exact hp'.store
    have hdue : (s.asked ≠ slave.mbx.bMbxRepeatToggle) = s.Due := by rw [hsends.toggle]; rfl
    refine ⟨⟨hgood, ?_, fun _ => hsends.full, ?_, hlocked, hshort, hphase _ rfl, h.fault⟩,
      .of_step (a := .send (s.slave.mbx.cut d)) ⟨?_, map_cut_getLast h.good.send hsends.new⟩ ?_⟩
    · show slave.mbx.sendMbx = if s.readEvent then none else slave.mbx.waiting
      rw [hev, if_neg Bool.false_ne_true, hsends.sendMbx, hsends.waiting]
    · show s.asked ≠ slave.mbx.bMbxRepeatToggle → _
      rw [hdue]; exact h.owed
    · unfold view
      dsimp only
      rw [hev, Good.waiting_free hfull, stored_none hstore]
      rfl
    · unfold view Redelivery.next
      dsimp only
      rw [hev, hsends.waiting, hsends.stored, hsends.kept, hsends.sent, cut_congr hsends.size, hsends.toggle,
        List.map_append]
      rfl

/-- `MBX_MailboxReadInd`, on an event that is not taken back yet. -/
theorem Inv.readInd (h : s.Inv n) {b : Bool} (hphase : s.phase = .read b true) :
    (ecatMain V s).Inv n ∧ Matched s (ecatMain V s) := by
  have hok := h.phase
  unfold PhaseOk at hok
  rw [hphase] at hok
  have hev : s.readEvent = true := hok.1 rfl
  have hempty : s.slave.mbx.sendMbx = none := by rw [h.send, hev, if_pos rfl]
  obtain ⟨slave, hslave, hgood, hread⟩ := h.good.readInd (V := V) (h.event hev) hempty
  have heq : ecatMain V s = { s with slave, readEvent := false, phase := .again b } := by
    simp only [ecatMain, hphase, if_true, hslave]
  have hdue : (s.asked ≠ slave.mbx.bMbxRepeatToggle) = s.Due := by rw [hread.toggle]; rfl
  rw [heq]
  constructor
  · refine ⟨hgood, ?_, (fun hfalse => by cases hfalse), ?_, ?_, h.short, ?_, h.fault⟩
    · exact hread.synced
    · show s.asked ≠ slave.mbx.bMbxRepeatToggle → _
      rw [hdue]; exact h.owed
    · show slave.mbx.bReceiveMbxIsLocked = true ∨ _ → _
      rw [hread.locked]; exact h.receive
    · show b ≠ slave.mbx.bMbxRepeatToggle → s.asked ≠ slave.mbx.bMbxRepeatToggle ∧ false = false
      rw [hread.toggle]
      exact fun hb => ⟨(hok.2 hb).1, rfl⟩
  · have hview : s.view = ⟨s.slave.mbx.sent.map s.slave.mbx.cut, s.slave.mbx.stored.toList, s.slave.mbx.waiting,
        s.received, s.owed || (s.asked != s.slave.mbx.bMbxRepeatToggle)⟩ := by
      unfold view
      rw [hev]
      rfl
    have hview' : ({ s with slave, readEvent := false, phase := .again b } : Link σ).view =
        ⟨slave.mbx.sent.map s.slave.mbx.cut, slave.mbx.box, s.slave.mbx.waiting, s.received,
          s.owed || (s.asked != s.slave.mbx.bMbxRepeatToggle)⟩ := by
      unfold view
      dsimp only
      rw [hread.kept, hread.toggle, cut_congr hread.size]
      rfl
    rcases hread.next with ⟨hbox, hsent⟩ | ⟨hstored, d, hbox, hsent, hnew⟩
    · exact .of_eq (by rw [hview, hview', hbox, hsent])
    · refine .of_step (a := .send (s.slave.mbx.cut d)) ⟨?_, ?_⟩ ?_
      · rw [hview, hstored]; rfl
      · rw [hview]; exact map_cut_getLast h.good.send hnew
      · rw [hview', hview, hbox, hsent, List.map_append]; rfl

/-- `MBX_MailboxRepeatReq`, with nothing that was read in between. -/
theorem Inv.repeatReq (h : s.Inv n) {b : Bool} (hphase : s.phase = .again b) (hb : b ≠ s.slave.mbx.bMbxRepeatToggle) :
    (ecatMain V s).Inv n ∧ Matched s (ecatMain V s) := by
  have hok := h.phase
  unfold PhaseOk at hok
  rw [hphase] at hok
  obtain ⟨hdue, hev⟩ := hok hb
  have howed := h.owed hdue
  obtain ⟨hgood, hrep⟩ := h.good.repeatReq (h.synced hev)
  have heq : ecatMain V s =
      { s with slave := { s.slave with mbx := mbxMailboxRepeatReq s.slave.mbx }, phase := .written } := by
    simp only [ecatMain, hphase]
    rw [if_pos hb]
  have hasked : s.asked = (mbxMailboxRepeatReq s.slave.mbx).bMbxRepeatToggle := by
    rw [hrep.toggle]
    exact Bool.eq_not_of_ne hdue
  rw [heq]
  constructor
  · refine ⟨hgood, ?_, ?_, fun hd => absurd hasked hd, ?_, h.short, trivial, h.fault⟩
    · show (mbxMailboxRepeatReq s.slave.mbx).sendMbx = if s.readEvent then none else _
      rw [hev, if_neg Bool.false_ne_true]
      exact hrep.synced
    · show s.readEvent = true → _
      rw [hev]; intro hfalse; cases hfalse
    · show (mbxMailboxRepeatReq s.slave.mbx).bReceiveMbxIsLocked = true ∨ _ → _
      rw [hrep.locked]; exact h.receive
  · refine .of_step (a := .again) trivial ?_
    have hview : s.view = ⟨s.slave.mbx.sent.map s.slave.mbx.cut, s.slave.mbx.box, s.slave.mbx.kept, s.received,
        s.owed || (s.asked != s.slave.mbx.bMbxRepeatToggle)⟩ := by
      unfold view
      rw [hev]
      rfl
    rw [hview]
    unfold view Redelivery.next
    dsimp only
    rw [hev, ← hrep.box, ← hrep.kept, ← hrep.sent, ← cut_congr hrep.size, howed, hasked, bne_self_eq_false]
    rfl

theorem Inv.poll (h : s.Inv n) : (next V s .poll).Inv n ∧ Matched s (next V s .poll) := by
  show (ecatMain V s).Inv n ∧ Matched s (ecatMain V s)
  have hok := h.phase
  cases hph : s.phase with
  | main =>
    unfold ecatMain mbxMain
    rw [hph]
    dsimp only
    split
    · rename_i hlocked
      exact h.check (.inl hlocked) (.inr rfl)
    · exact ⟨⟨h.good, h.send, h.event, h.owed, h.receive, h.short, trivial, h.fault⟩, .of_eq rfl⟩
  | activate =>
    unfold ecatMain
    rw [hph]
    exact ⟨⟨h.good, h.send, h.event, h.owed, h.receive, h.short, id, h.fault⟩, .of_eq rfl⟩
  | events b =>
    unfold PhaseOk at hok
    rw [hph] at hok
    unfold ecatMain
    rw [hph]
    exact ⟨⟨h.good, h.send, h.event, h.owed, h.receive, h.short, ⟨id, fun hb => ⟨hok hb, id⟩⟩, h.fault⟩, .of_eq rfl⟩
  | read b event =>
    cases event with
    | true => exact h.readInd hph
    | false =>
      unfold PhaseOk at hok
      rw [hph] at hok
      unfold ecatMain
      rw [hph]
      refine ⟨⟨h.good, h.send, h.event, h.owed, h.receive, h.short, fun hb => ⟨(hok.2 hb).1, ?_⟩, h.fault⟩, .of_eq rfl⟩
      exact Bool.eq_false_iff.2 fun hev => Bool.false_ne_true ((hok.2 hb).2 hev)
  | again b =>
    by_cases hb : b ≠ s.slave.mbx.bMbxRepeatToggle
    · exact h.repeatReq hph hb
    · unfold ecatMain
      rw [hph]
      dsimp only
      rw [if_neg hb]
      exact ⟨⟨h.good, h.send, h.event, h.owed, h.receive, h.short, trivial, h.fault⟩, .of_eq rfl⟩
  | written =>
    unfold ecatMain
    rw [hph]
    dsimp only
    split
    · rename_i hevent
      exact h.check (.inr hevent) (.inl rfl)
    · exact ⟨⟨h.good, h.send, h.event, h.owed, h.receive, h.short, trivial, h.fault⟩, .of_eq rfl⟩

theorem Inv.step (h : s.Inv n) {a : LinkAction} (ha : Enabled s a) (hshort : ∀ r, a = .write r → r.Short n) :
    (next V s a).Inv n ∧ Matched s (next V s a) := by
  obtain ⟨-, ha⟩ := ha
  cases a with
  | write r => exact h.write (hshort r rfl)
  | read arrives => exact h.read arrives ha.1 ha.2.1 ha.2.2
  | doubt => exact h.doubt ha
  | ask => exact h.ask ha.1 ha.2
  | poll => exact h.poll

theorem written_check : (s.check V).written = s.written := by
  unfold check
  split <;> rfl

theorem written_ecatMain : (ecatMain V s).written = s.written := by
  unfold ecatMain
  split
  · show (s.mbxMain V).written = s.written
    unfold mbxMain
    split
    · exact written_check
    · rfl
  · rfl
  · rfl
  · split
    · split <;> rfl
    · rfl
  · rfl
  · show (if s.writeEvent then s.check V else s).written = s.written
    split
    · exact written_check
    · rfl

/-- What was written before is not forgotten. -/
theorem written_next (a : LinkAction) {r : Received} (hr : r ∈ s.written) : r ∈ (next V s a).written := by
  cases a with
  | write r' => exact List.mem_append_left _ hr
  | read arrives =>
    unfold next
    dsimp only
    split <;> exact hr
  | doubt => exact hr
  | ask => exact hr
  | poll =>
    show r ∈ (ecatMain V s).written
    rwa [written_ecatMain]

variable {P : Link σ → LinkAction → Prop}

/-- `n` can be any length that no datagram of the master exceeds. -/
theorem reach_bound (h : Lts.Reach (system V) P s) (hn : MAX_MBX_DATA_SIZE ≤ n ∧ n ≤ MAX_MBX_SIZE.toNat) :
    (∀ r ∈ s.written, r.Short n) → s.Inv n := by
  refine h.invariant (I := fun s => (∀ r ∈ s.written, r.Short n) → s.Inv n) (fun _ hs _ => Inv.start hs hn) ?_
  intro t a hi ha _ hshort
  refine (Inv.step (hi fun r hr => hshort r (written_next a hr)) ha ?_).1
  rintro r rfl
  exact hshort r (List.mem_append_right _ (List.mem_singleton_self r))

/-- `MBX_MailboxWriteInd` refuses what is longer. -/
theorem short_max (r : Received) : r.Short MAX_MBX_SIZE.toNat := fun _ _ hlen => UInt16.le_iff_toNat_le.1 hlen

theorem reach_inv (h : Lts.Reach (system V) P s) : s.Inv MAX_MBX_SIZE.toNat :=
  reach_bound h ⟨by decide, le_rfl⟩ fun r _ => short_max r

theorem reach_view (h : Lts.Reach (system V) P s) :
    Lts.Reach (Redelivery.system key) (fun _ _ => True) s.view :=
  h.simulates_runs view (fun _ hr => reach_inv hr) (fun _ hs => view_start hs) fun _ _ hi ha _ =>
    (hi.step ha fun r _ => short_max r).2

/-! ### A server that answers with what it was asked, and a run with it -/

def echo : Service Unit where
  sdosSdoInd _ b := ((), b, .respond COE_SERVICE)
  sdosSdoInfoInd _ b := ((), b, .respond COE_SERVICE)
  aSdoInfoHeader _ _ := 0
  ret_ne := by simp
  fits := by simp
  continues _ _ _ _ := Nat.zero_le _
  coe_flags := by simp

/-- A CoE request with a counter. -/
def request (counter : UInt8) : Received where
  length := 10
  readMbxMem _ _ i := [10, 0, 0, 0, 0, 0x03 + 16 * counter, 0, 0x20].getD i 0

def idle : Mailbox :=
  { asMbx := fun _ _ => 0, psWriteMbx := Pos.fresh.write, psReadMbx := none, psRepeatMbx := none, psStoreMbx := none,
    pCoeSendStored := none, bMbxRunning := true, bSendMbxIsFull := false, bReceiveMbxIsLocked := false,
    bMbxRepeatToggle := false, bPendingMbxResponse := false, u8MailboxSendReqStored := 0, u8MbxWriteCounter := 0,
    u8MbxReadCounter := 0, nAlStatus := 2, u16ReceiveMbxSize := 128, u16SendMbxSize := 128, sendMbx := none,
    sent := [], overrun := false }

def started : Link Unit :=
  { slave := ⟨(), idle⟩, phase := .main, sm0 := none, writeEvent := false, readEvent := false, asked := false,
    received := [], owed := false, written := [], copied := [], fault := false }

theorem started_start : started.Start :=
  ⟨rfl, rfl, by decide, by decide, by decide, rfl, rfl, rfl, rfl, rfl, rfl, rfl, rfl, rfl, rfl, rfl, rfl, rfl⟩

def polls (n : ℕ) : List LinkAction := .replicate n .poll

/-- The answer to the second request is asked for again in front of the answer itself. -/
def exchange : List LinkAction :=
  [.write (request 1)] ++ polls 6 ++ [.read true, .write (request 2)] ++ polls 6 ++ [.doubt, .ask] ++ polls 6 ++
    [.read true] ++ polls 6 ++ [.read true] ++ polls 6

instance (s : Link σ) : ∀ a, Decidable (Allowed s a)
  | .write _ => inferInstanceAs (Decidable (s.sm0 = none))
  | .read _ => inferInstanceAs (Decidable (s.slave.mbx.sendMbx ≠ none ∧ s.owed = false ∧ ¬ s.Due))
  | .doubt => inferInstanceAs (Decidable (¬ s.Due))
  | .ask => inferInstanceAs (Decidable (s.owed = true ∧ ¬ s.Due))
  | .poll => inferInstanceAs (Decidable True)

instance (s : Link σ) (a : LinkAction) : Decidable (Enabled s a) := inferInstanceAs (Decidable (_ ∧ _))

instance (s : Link σ) (a : LinkAction) : Decidable ((system V).Enabled s a) := inferInstanceAs (Decidable (Enabled s a))

/-! ### What holds of every run -/

theorem exchange_reach : Lts.Reach (system echo) (fun _ _ => True) ((system echo).run started exchange) :=
  .run exchange (.init started_start) (by decide +kernel)

/-- Whatever is lost and in whatever order the steps are made, what the master has got is what was sent, each
datagram once, in order and as far as the send mailbox had room for it; at most two are on the way. -/
theorem received_in_order (h : Lts.Reach (system V) P s) :
    s.received <+: s.slave.mbx.sent.map s.slave.mbx.cut ∧ s.slave.mbx.sent.length ≤ s.received.length + 2 := by
  obtain ⟨hfirst, hlen⟩ := Redelivery.reach_in_order (reach_view h)
  have hlen' : (s.slave.mbx.sent.map s.slave.mbx.cut).length ≤ s.received.length + 2 := hlen
  rw [List.length_map] at hlen'
  exact ⟨hfirst, hlen'⟩

theorem received_in_order_exchange :
    ((system echo).run started exchange).received <+:
        ((system echo).run started exchange).slave.mbx.sent.map ((system echo).run started exchange).slave.mbx.cut ∧
      ((system echo).run started exchange).slave.mbx.sent.length ≤
        ((system echo).run started exchange).received.length + 2 :=
  received_in_order exchange_reach

/-- Nothing is lost for good: with the send mailbox empty, no event left and nothing to be asked for again,
the master has got all that was sent, as far as the send mailbox had room for it. -/
theorem received_all (h : Lts.Reach (system V) P s) (hsend : s.slave.mbx.sendMbx = none) (hev : s.readEvent = false)
    (howed : s.owed = false) (hdue : ¬ s.Due) : s.received = s.slave.mbx.sent.map s.slave.mbx.cut := by
  have hi := reach_inv h
  have hwaiting : s.slave.mbx.waiting = none := (hi.synced hev).symm.trans hsend
  have hfull : s.slave.mbx.bSendMbxIsFull = false :=
    Bool.eq_false_iff.2 fun hf => hi.good.waiting_ne hf hwaiting
  have hstore : s.slave.mbx.psStoreMbx = none := by
    rcases (hi.good.free hfull).1 with hp | ⟨i, hp⟩ <;> exact hp.store
  refine Redelivery.reach_complete (reach_view h) ?_ ?_
  · show (if s.readEvent then [] else s.slave.mbx.waiting.toList) ++ s.slave.mbx.stored.toList = []
    rw [hev, hwaiting, stored_none hstore]
    rfl
  · show (s.owed || (s.asked != s.slave.mbx.bMbxRepeatToggle)) = false
    rw [howed, not_not.1 hdue, bne_self_eq_false]
    rfl

theorem received_all_exchange :
    ((system echo).run started exchange).received =
      ((system echo).run started exchange).slave.mbx.sent.map ((system echo).run started exchange).slave.mbx.cut :=
  received_all exchange_reach (by decide +kernel) (by decide +kernel) (by decide +kernel) (by decide +kernel)

/-- No `NULL` pointer is followed, and the buffer that requests are put into holds neither what is in the
send mailbox nor what may have to be repeated. `mailbox.c` reads and writes no buffer behind its end, unless
the master has written a datagram that `MBX_MailboxWriteInd` lets through and that no buffer has room for. -/
theorem buffers_safe (h : Lts.Reach (system V) P s) :
    s.fault = false ∧ (∀ w, s.slave.mbx.psWriteMbx = some w → ¬ s.slave.mbx.Holds w) ∧
      ((∀ r ∈ s.written, r.Short MAX_MBX_DATA_SIZE) → s.slave.mbx.overrun = false) :=
  ⟨(reach_inv h).fault, fun _ hw => (reach_inv h).good.not_holds hw,
    fun hshort => (reach_bound h ⟨le_rfl, by decide⟩ hshort).good.overrun rfl⟩

theorem short_request (c : UInt8) : (request c).Short MAX_MBX_DATA_SIZE :=
  fun _ _ _ => show 10 ≤ 250 by decide

theorem exchange_written : ((system echo).run started exchange).written = [request 1, request 2] := rfl

theorem buffers_safe_exchange :
    ((system echo).run started exchange).fault = false ∧
      (∀ w, ((system echo).run started exchange).slave.mbx.psWriteMbx = some w →
        ¬ ((system echo).run started exchange).slave.mbx.Holds w) ∧
      ((system echo).run started exchange).slave.mbx.overrun = false := by
  obtain ⟨hfault, hfree, hover⟩ := buffers_safe exchange_reach
  refine ⟨hfault, hfree, hover ?_⟩
  rw [exchange_written]
  simp [short_request]

/-- A datagram of 256 bytes behind its header is sent back as it came, and six bytes of it are behind the
buffer. -/
example : ((system echo).run started ([.write ⟨256, fun _ _ i => [0, 1, 0, 0, 0, 0x13, 0, 0x80].getD i 0⟩] ++
    polls 6)).slave.mbx.overrun = true := by decide +kernel

end Link

end Ecat
end Dcs
