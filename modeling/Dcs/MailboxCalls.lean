import Dcs.MailboxShape
import Dcs.Lib.Redelivery

/-!
# What each function of the mailbox does

One lemma for each function of `mailbox.c` that says what is in the send mailbox, stored and kept
afterwards. A request is answered with exactly one datagram, unless its counter says that it is a repeated
one; that one is dropped, and nothing takes `bPendingMbxResponse` back then.
-/

namespace Dcs
namespace Ecat
open Function

variable {σ : Type*} {V : Service σ} {s : Stack σ} {n : ℕ} {m m' : Mailbox} {w : Fin 2}

/-- A request can be put into the buffer `w` and be answered from there. -/
structure Ready (n : ℕ) (m : Mailbox) (w : Fin 2) : Prop where
  good : Good n m
  full : m.bSendMbxIsFull = false
  write : m.psWriteMbx = some w

/-- A function returns an error and has sent nothing, or it has sent its answer. -/
inductive Result (m : Mailbox) (r : UInt8) (m' : Mailbox) : Prop
  | refused : r ≠ 0 → Same m m' → Result m r m'
  | answered (d : List UInt8) : r = 0 → Sends m m' d → Result m r m'

theorem Good.vars (h : Good n m) (c : UInt8) (locked pending : Bool) :
    Good n { m with u8MbxWriteCounter := c, bReceiveMbxIsLocked := locked, bPendingMbxResponse := pending } := by
  obtain ⟨p, hp⟩ := h.pos
  exact ⟨h.bound, ⟨p, hp.write, hp.read, hp.kept, hp.store, hp.full⟩, h.short, h.overrun, h.status, h.running,
    h.receive, h.send, h.even, h.unsent, h.flags, h.flags_idle, h.counter_le, h.counter⟩

theorem Same.refl : Same m m := ⟨rfl, rfl, rfl, rfl, rfl, rfl, rfl, rfl, rfl, rfl, rfl⟩

theorem Same.ready (h : Same m m') (hg : Good n m') (hr : Ready n m w) : Ready n m' w :=
  ⟨hg, h.full.trans hr.full, h.write.trans hr.write⟩

namespace Ready

theorem update_free (h : Ready n m w) (b : Tmbx) :
    Ready n { m with asMbx := update m.asMbx w b } w ∧ Same m { m with asMbx := update m.asMbx w b } :=
  have hu := h.good.update_free h.write b
  ⟨hu.2.ready hu.1 h, hu.2⟩

theorem sendReq (h : Ready n m w) {b : Tmbx} (hb : b.Short n) {flags : UInt8} (hflags : Flags flags) :
    (mbxMailboxSendReq { m with asMbx := update m.asMbx w b } w flags).1 = 0 ∧
      Good n (mbxMailboxSendReq { m with asMbx := update m.asMbx w b } w flags).2 ∧
      ∃ d, Sends m (mbxMailboxSendReq { m with asMbx := update m.asMbx w b } w flags).2 d := by
  obtain ⟨hready, hsame⟩ := h.update_free b
  have hshort : (update m.asMbx w b w).Short n := by rwa [update_self]
  obtain ⟨hres, hgood, d, hd⟩ := hready.good.sendReq hready.full hready.write hshort hflags
  exact ⟨hres, hgood, d, hsame.sends hd⟩

theorem sendError (h : Ready n m w) (result : UInt16) :
    Good n (sendError m w result) ∧ ∃ d, Sends m (sendError m w result) d :=
  (h.sendReq (Nat.le_trans (short_errorResponse result) h.good.bound.1) (.inl rfl)).2

theorem sdosCall (h : Ready n s.mbx w) {f : σ → Tmbx → σ × Tmbx × Answer}
    (hf : f ∈ [V.sdosSdoInd, V.sdosSdoInfoInd])
    (hshort : ∀ fl, (f s.objects (s.mbx.asMbx w)).2.2 = .respond fl → (f s.objects (s.mbx.asMbx w)).2.1.Short n) :
    Good n (sdosCall f s w).2.mbx ∧ Result s.mbx (sdosCall f s w).1 (sdosCall f s w).2.mbx := by
  unfold Ecat.sdosCall
  dsimp only
  cases hans : (f s.objects (s.mbx.asMbx w)).2.2 with
  | ret r =>
    obtain ⟨hready, hsame⟩ := h.update_free (f s.objects (s.mbx.asMbx w)).2.1
    exact ⟨hready.good, .refused (V.ret_ne f hf _ _ r hans) hsame⟩
  | respond flags =>
    obtain ⟨hres, hgood, d, hd⟩ := h.sendReq (hshort flags hans) (.inr (V.coe_flags f hf _ _ flags hans))
    dsimp only
    rw [if_neg (not_not.2 hres)]
    exact ⟨hgood, .answered d rfl hd⟩

/-- An answer is no longer than the request, unless it is one that fits into a buffer. -/
theorem short_answer (h : Ready n m w) {f : σ → Tmbx → σ × Tmbx × Answer} (hf : f ∈ [V.sdosSdoInd, V.sdosSdoInfoInd])
    {o : σ} {b : Tmbx} (hb : b.Short n) (fl : UInt8) (hans : (f o b).2.2 = .respond fl) : (f o b).2.1.Short n := by
  rcases V.fits f hf o b fl hans with hfits | hsame
  · exact Nat.le_trans hfits h.good.bound.1
  · rwa [hsame]

theorem coeServiceInd (h : Ready n s.mbx w) (hb : (s.mbx.asMbx w).Short n) :
    Good n (coeServiceInd V s w).2.mbx ∧ Result s.mbx (coeServiceInd V s w).1 (coeServiceInd V s w).2.mbx := by
  unfold Ecat.coeServiceInd
  split
  · have hf : V.sdosSdoInd ∈ [V.sdosSdoInd, V.sdosSdoInfoInd] := by simp
    exact h.sdosCall hf (h.short_answer hf hb)
  · have hf : V.sdosSdoInfoInd ∈ [V.sdosSdoInd, V.sdosSdoInfoInd] := by simp
    exact h.sdosCall hf (h.short_answer hf hb)
  all_goals exact ⟨h.good, .refused (by dsimp only; decide) .refl⟩

theorem mailboxServiceInd (h : Ready n s.mbx w) (hb : (s.mbx.asMbx w).Short n) :
    Good n (mailboxServiceInd V s w).2.mbx ∧
      Result s.mbx (mailboxServiceInd V s w).1 (mailboxServiceInd V s w).2.mbx := by
  unfold Ecat.mailboxServiceInd
  split
  · exact h.coeServiceInd hb
  · exact ⟨h.good, .refused (by dsimp only; decide) .refl⟩

/-- The end of `MBX_MailboxWriteInd`: an error of the service is answered, too. -/
theorem errorResponse {r : UInt8} {s' : Stack σ} (h : Ready n s.mbx w) (hgood : Good n s'.mbx)
    (hres : Result s.mbx r s'.mbx) :
    Good n (if r ≠ 0 then { s' with mbx := Ecat.sendError s'.mbx w r.toUInt16 } else s').mbx ∧
      ∃ d, Sends s.mbx (if r ≠ 0 then { s' with mbx := Ecat.sendError s'.mbx w r.toUInt16 } else s').mbx d := by
  cases hres with
  | refused hne hs =>
    rw [if_pos hne]
    obtain ⟨hgood', d, hd⟩ := (hs.ready hgood h).sendError r.toUInt16
    exact ⟨hgood', d, hs.sends hd⟩
  | answered d hzero hd =>
    rw [if_neg (not_not.2 hzero)]
    exact ⟨hgood, d, hd⟩

end Ready

/-- The datagram in `w` has the counter of the one before it. -/
def Repeated (m : Mailbox) (w : Fin 2) : Prop :=
  (m.asMbx w).length ≤ MAX_MBX_SIZE ∧ (m.asMbx w).counter ≠ 0 ∧ (m.asMbx w).counter = m.u8MbxWriteCounter

theorem Ready.mailboxWriteInd (h : Ready n s.mbx w)
    (hb : (s.mbx.asMbx w).length ≤ MAX_MBX_SIZE → (s.mbx.asMbx w).Short n) :
    Good n (mbxMailboxWriteInd V s w).mbx ∧
      (Repeated s.mbx w ∧ mbxMailboxWriteInd V s w = s ∨
        ¬ Repeated s.mbx w ∧ ∃ d, Sends s.mbx (mbxMailboxWriteInd V s w).mbx d) := by
  unfold mbxMailboxWriteInd Repeated
  dsimp only
  split
  · rename_i hlen
    obtain ⟨hgood, hsends⟩ := h.sendError MBXERR_INVALIDSIZE.toUInt16
    exact ⟨hgood, .inr ⟨fun hrep => absurd hrep.1 (UInt16.not_le.2 hlen), hsends⟩⟩
  · rename_i hlen
    split
    · rename_i hnew
      have hnot : ¬ Repeated s.mbx w := fun hrep => hnew.elim hrep.2.1 fun hne => hne hrep.2.2
      have hready : Ready n { s.mbx with u8MbxWriteCounter := (s.mbx.asMbx w).counter } w :=
        ⟨h.good.vars _ s.mbx.bReceiveMbxIsLocked s.mbx.bPendingMbxResponse, h.full, h.write⟩
      have hsame : Same s.mbx { s.mbx with u8MbxWriteCounter := (s.mbx.asMbx w).counter } :=
        ⟨rfl, rfl, rfl, rfl, rfl, rfl, rfl, rfl, rfl, rfl, rfl⟩
      obtain ⟨hgood, hres⟩ := Ready.mailboxServiceInd (V := V)
        (s := { s with mbx := { s.mbx with u8MbxWriteCounter := (s.mbx.asMbx w).counter } }) hready
        (hb (UInt16.not_lt.1 hlen))
      obtain ⟨hgood', d, hd⟩ := hready.errorResponse hgood hres
      exact ⟨hgood', .inr ⟨hnot, d, hsame.sends hd⟩⟩
    · rename_i hold
      rw [not_or, not_not] at hold
      exact ⟨h.good, .inl ⟨⟨UInt16.not_lt.1 hlen, hold.1, hold.2⟩, rfl⟩⟩

/-- The datagram is refused for its length, or has at most `n` bytes behind its header. -/
def Received.Short (n : ℕ) (r : Received) : Prop :=
  ∀ k b, (r.readMbxMem k b).length ≤ MAX_MBX_SIZE → (r.readMbxMem k b).Short n

/-- No more is copied than the receive mailbox has, and a buffer has room for that. -/
theorem Good.copyReceived_eq (h : Good n m) (r : Received) (p : Fin 2) :
    ∃ k, copyReceived m r p = { m with
      bReceiveMbxIsLocked := false
      bPendingMbxResponse := true
      asMbx := update m.asMbx p (r.readMbxMem k (m.asMbx p)) } := by
  unfold copyReceived
  dsimp only
  set mbxLen := if m.u16ReceiveMbxSize < r.length + .ofNat MBX_HEADER_SIZE then m.u16ReceiveMbxSize
    else r.length + .ofNat MBX_HEADER_SIZE with hlen
  have hle : mbxLen ≤ m.u16ReceiveMbxSize := by
    rw [hlen]
    split
    · exact UInt16.le_refl _
    · exact UInt16.not_lt.1 ‹_›
  have hroom : ¬ MAX_MBX_SIZE < mbxLen := UInt16.not_lt.2 (UInt16.le_trans hle h.receive)
  refine ⟨mbxLen, ?_⟩
  rw [decide_eq_false hroom, Bool.or_false]

/-- What `MBX_CheckAndCopyMailbox` can do. -/
inductive Copied (m : Mailbox) (r : Received) (m' : Mailbox) : Prop
  | blocked : Blocked m → m' = { m with bReceiveMbxIsLocked := true } → Copied m r m'
  | repeated (w : Fin 2) : ¬ Blocked m → m.psWriteMbx = some w → Repeated (copyReceived m r w) w →
      Same { m with bReceiveMbxIsLocked := false, bPendingMbxResponse := true } m' → Copied m r m'
  | answered (d : List UInt8) : ¬ Blocked m → (∀ w, m.psWriteMbx = some w → ¬ Repeated (copyReceived m r w) w) →
      Sends { m with bReceiveMbxIsLocked := false } m' d → Copied m r m'

theorem Good.checkAndCopy (h : Good n s.mbx) {r : Received} (hr : r.Short n) :
    ∃ s', mbxCheckAndCopyMailbox V s r = some s' ∧ Good n s'.mbx ∧ Copied s.mbx r s'.mbx := by
  unfold mbxCheckAndCopyMailbox
  split
  · rename_i hblocked
    exact ⟨_, rfl, h.vars s.mbx.u8MbxWriteCounter true s.mbx.bPendingMbxResponse, .blocked hblocked rfl⟩
  · rename_i hblocked
    have hfull : s.mbx.bSendMbxIsFull = false := Bool.eq_false_iff.2 fun hf => hblocked (.inl hf)
    obtain ⟨-, w, hw⟩ := h.free hfull
    have hready : Ready n { s.mbx with bReceiveMbxIsLocked := false, bPendingMbxResponse := true } w :=
      ⟨h.vars s.mbx.u8MbxWriteCounter false true, hfull, hw⟩
    obtain ⟨k, hcopy⟩ := h.copyReceived_eq r w
    obtain ⟨hready', hsame⟩ : Ready n (copyReceived s.mbx r w) w ∧
        Same { s.mbx with bReceiveMbxIsLocked := false, bPendingMbxResponse := true } (copyReceived s.mbx r w) := by
      rw [hcopy]
      exact hready.update_free _
    have hbuf : (copyReceived s.mbx r w).asMbx w = r.readMbxMem k (s.mbx.asMbx w) := by
      rw [hcopy]
      exact update_self ..
    have hadmitted : ((copyReceived s.mbx r w).asMbx w).length ≤ MAX_MBX_SIZE →
        ((copyReceived s.mbx r w).asMbx w).Short n := by
      rw [hbuf]
      exact hr k _
    rw [hw, Option.map_some]
    refine ⟨_, rfl, ?_⟩
    obtain ⟨hgood, hcase⟩ :=
      Ready.mailboxWriteInd (V := V) (s := { s with mbx := copyReceived s.mbx r w }) hready' hadmitted
    refine ⟨hgood, ?_⟩
    rcases hcase with ⟨hrep, heq'⟩ | ⟨hnot, d, hd⟩
    · rw [heq']
      exact .repeated w hblocked hw hrep hsame
    · have hd' := hsame.sends hd
      have hnot' : ∀ w', s.mbx.psWriteMbx = some w' → ¬ Repeated (copyReceived s.mbx r w') w' := fun w' hw' => by
        obtain rfl : w = w' := Option.some.inj (hw.symm.trans hw')
        exact hnot
      exact .answered d hblocked hnot' ⟨hd'.kept, hd'.waiting, hd'.stored, hd'.sendMbx, hd'.full, hd'.toggle,
        hd'.locked, hd'.pending, hd'.sent, hd'.size, hd'.new⟩

/-! ### The master has read, or asks for a repetition -/

namespace Mailbox

/-- What the master can still read, in this order. -/
def box (m : Mailbox) : List (List UInt8) := m.waiting.toList ++ m.stored.toList

/-- The send mailbox has what the program thinks it has. -/
def Synced (m : Mailbox) : Prop := m.sendMbx = m.waiting

end Mailbox

open Mailbox

theorem kept_of {i : Fin 2} (h : m.psRepeatMbx = some i) : m.kept = some (m.cut (m.asMbx i).datagram) := by
  rw [Mailbox.kept, h]; rfl

theorem waiting_of {i : Fin 2} (hfull : m.bSendMbxIsFull = true) (h : m.psReadMbx = some i) :
    m.waiting = some (m.cut (m.asMbx i).datagram) := by
  rw [Mailbox.waiting, if_pos hfull, h]; rfl

theorem Good.waiting_ne (h : Good n m) (hfull : m.bSendMbxIsFull = true) : m.waiting ≠ none := by
  obtain ⟨p, hp⟩ := h.pos
  have hread : ∃ i, p.read = some i := by
    have hf := hp.full
    rw [hfull] at hf
    cases p with
    | fresh => cases hf
    | idle i => cases hf
    | first => exact ⟨0, rfl⟩
    | waiting i => exact ⟨i, rfl⟩
    | repeated i => exact ⟨i + 1, rfl⟩
  obtain ⟨i, hi⟩ := hread
  rw [waiting_of hfull (hp.read.trans hi)]
  exact Option.some_ne_none _

theorem stored_of {i : Fin 2} (h : m.psStoreMbx = some i) : m.stored = some (m.cut (m.asMbx i).datagram) := by
  rw [Mailbox.stored, h]; rfl

theorem stored_none (h : m.psStoreMbx = none) : m.stored = none := by
  rw [Mailbox.stored, h]; rfl

theorem add_one_add_one (i : Fin 2) : i + 1 + 1 = i := by decide +revert

/-- The free buffer after a datagram was read, with nothing to be sent next. -/
theorem Good.readDone (h : Good n m) (hfull : m.bSendMbxIsFull = true) (hstore : m.psStoreMbx = none) :
    Good n { readDone m with u8MailboxSendReqStored := 0 } ∧ (readDone m).kept = m.waiting := by
  have hkept : (Ecat.readDone m).kept = m.waiting := by
    unfold kept waiting
    rw [if_pos hfull]
    rfl
  refine ⟨⟨h.bound, ?_, fun i hi => h.short i ?_, h.overrun, h.status, h.running, h.receive, h.send, h.even,
    h.unsent, .inl rfl, fun _ => rfl, h.counter_le, h.counter⟩, hkept⟩
  · obtain ⟨p, hp⟩ := h.pos
    have hf := hp.full
    have hs := hp.store
    rw [hfull] at hf
    rw [hstore] at hs
    cases p with
    | fresh => cases hf
    | idle i => cases hf
    | repeated i => cases hs
    | first =>
      refine ⟨.idle 1, ?_, hp.read, hp.read, hstore, rfl⟩
      simp [Ecat.readDone, hp.kept, hp.write, Pos.kept, Pos.write]
    | waiting i =>
      have hii := add_one_add_one i
      refine ⟨.idle (i + 1), ?_, ?_, ?_, hstore, rfl⟩
      · simp [Ecat.readDone, hp.kept, hstore, Pos.kept, Pos.write]
      · exact hp.read.trans (by simp [Pos.read, hii])
      · exact hp.read.trans (by simp [Pos.read, Pos.kept, hii])
  · rcases hi with hi | hi | hi
    · exact .inl hi
    · exact .inl hi
    · exact .inr (.inr hi)

/-- The next fragment is made in the free buffer. -/
theorem Ready.continueInd (h : Ready n s.mbx w) :
    ∃ s', coeContinueInd V s s.mbx.psWriteMbx = some s' ∧ Good n s'.mbx ∧
      (Same s.mbx s'.mbx ∨ ∃ d, Sends s.mbx s'.mbx d) := by
  unfold coeContinueInd
  rw [h.good.unsent, h.write]
  set b := copyBytes SDO_INFO_HEADER_BYTE_SIZE (V.aSdoInfoHeader s.objects) (s.mbx.asMbx w) with hb
  obtain ⟨hready, hsame⟩ := h.update_free b
  have hshort : ∀ fl, (V.sdosSdoInfoInd s.objects (update s.mbx.asMbx w b w)).2.2 = .respond fl →
      (V.sdosSdoInfoInd s.objects (update s.mbx.asMbx w b w)).2.1.Short n := fun fl => by
    rw [update_self]
    exact fun hans => Nat.le_trans (V.continues s.objects (s.mbx.asMbx w) fl hans) h.good.bound.1
  obtain ⟨hgood, hres⟩ := Ready.sdosCall (V := V) (s := ⟨s.objects, _⟩) (f := V.sdosSdoInfoInd) hready (by simp)
    hshort
  refine ⟨_, rfl, hgood, ?_⟩
  cases hres with
  | refused _ hs => exact .inl (hsame.trans hs)
  | answered d _ hd => exact .inr ⟨d, hsame.sends hd⟩

/-- What `MBX_MailboxReadInd` can do. -/
structure ReadBy (m m' : Mailbox) : Prop where
  kept : m'.kept = m.waiting
  synced : m'.Synced
  toggle : m'.bMbxRepeatToggle = m.bMbxRepeatToggle
  locked : m'.bReceiveMbxIsLocked = m.bReceiveMbxIsLocked
  pending : m.bPendingMbxResponse = false → m'.bPendingMbxResponse = false
  size : m'.u16SendMbxSize = m.u16SendMbxSize
  next : m'.box = m.stored.toList ∧ m'.sent = m.sent ∨
    m.stored = none ∧ ∃ d, m'.box = [m.cut d] ∧ m'.sent = m.sent ++ [d] ∧ m.sent.getLast?.map key ≠ some (key d)

theorem Good.readInd_stored (h : Good n s.mbx) (hfull : s.mbx.bSendMbxIsFull = true) {i : Fin 2}
    (hi : s.mbx.psStoreMbx = some i) :
    ∃ s', mbxMailboxReadInd V s = some s' ∧ Good n s'.mbx ∧ ReadBy s.mbx s'.mbx := by
  have hcopy : mbxCopyToSendMailbox (Ecat.readDone s.mbx) i = (0, fillSendMailbox (Ecat.readDone s.mbx) i) :=
    copy_eq (m := Ecat.readDone s.mbx) h.status h.running rfl i
  obtain ⟨p, hp⟩ := h.pos
  have hs := hp.store
  rw [hi] at hs
  cases p with
  | fresh => cases hs
  | first => cases hs
  | idle i => cases hs
  | waiting i => cases hs
  | repeated j =>
    obtain rfl : i = j := Option.some.inj hs
    have hwrite : (Ecat.readDone s.mbx).psWriteMbx = none := by
      simp [Ecat.readDone, hi, hp.write, Pos.write]
    have hbuf : (fillSendMailbox (Ecat.readDone s.mbx) i).asMbx = s.mbx.asMbx := by
      unfold fillSendMailbox
      simp only [hwrite]
      rfl
    have hread : (fillSendMailbox (Ecat.readDone s.mbx) i).psReadMbx = some i := by
      simp [fillSendMailbox, hwrite]
    have hsend : (fillSendMailbox (Ecat.readDone s.mbx) i).sendMbx =
        some (s.mbx.cut (s.mbx.asMbx i).datagram) := by
      simp only [fillSendMailbox, Ecat.readDone]
      rw [sendBytes_eq h.even]
      rfl
    have hwaiting : ({ fillSendMailbox (Ecat.readDone s.mbx) i with psStoreMbx := none } : Mailbox).waiting =
        some (s.mbx.cut (s.mbx.asMbx i).datagram) := by
      show (if true = true then
        Option.map (fun k => s.mbx.cut ((fillSendMailbox (Ecat.readDone s.mbx) i).asMbx k).datagram)
          (fillSendMailbox (Ecat.readDone s.mbx) i).psReadMbx else none) = _
      rw [if_pos rfl, hread, hbuf]
      rfl
    unfold mbxMailboxReadInd
    dsimp only
    rw [hi]
    dsimp only
    rw [hcopy]
    refine ⟨_, rfl, ⟨h.bound, ⟨.waiting i, ?_, hread, ?_, rfl, rfl⟩, fun k hk => ?_,
      h.not_overrun (h.short i (.inr (.inr hi))), h.status, h.running, h.receive, h.send, h.even, h.unsent,
      h.flags, (fun hfalse => by cases hfalse), h.counter_le, h.counter⟩, ?_, hsend.trans hwaiting.symm, rfl, rfl,
      fun _ => rfl, rfl, ?_⟩
    · simp [fillSendMailbox, Ecat.readDone, hp.read, Pos.read, Pos.write]
    · exact hp.read
    · show ((fillSendMailbox (Ecat.readDone s.mbx) i).asMbx k).Short n
      rw [hbuf]
      rcases hk with hk | hk | hk
      · obtain rfl : i = k := Option.some.inj (hread.symm.trans hk)
        exact h.short i (.inr (.inr hi))
      · exact h.short k (.inl hk)
      · cases hk
    · show Option.map (fun k => s.mbx.cut ((fillSendMailbox (Ecat.readDone s.mbx) i).asMbx k).datagram)
        s.mbx.psReadMbx = _
      rw [hbuf, waiting, if_pos hfull]
    · refine .inl ⟨?_, rfl⟩
      rw [box, hwaiting, Mailbox.stored, Mailbox.stored, hi]
      rfl

theorem Good.readInd (h : Good n s.mbx) (hfull : s.mbx.bSendMbxIsFull = true) (hempty : s.mbx.sendMbx = none) :
    ∃ s', mbxMailboxReadInd V s = some s' ∧ Good n s'.mbx ∧ ReadBy s.mbx s'.mbx := by
  cases hstore : s.mbx.psStoreMbx with
  | some i => exact h.readInd_stored hfull hstore
  | none =>
    obtain ⟨hgood, hkept⟩ := h.readDone hfull hstore
    have hnone : s.mbx.stored = none := by rw [stored, hstore]; rfl
    unfold mbxMailboxReadInd
    dsimp only
    rw [hstore]
    dsimp only
    rcases h.flags with hflags | hflags
    · -- nothing is left to be sent
      have hf : (Ecat.readDone s.mbx).u8MailboxSendReqStored = 0 := hflags
      have heq : ({ Ecat.readDone s.mbx with u8MailboxSendReqStored := 0 } : Mailbox) = Ecat.readDone s.mbx := by
        rw [← hf]
      rw [heq] at hgood
      rw [if_neg (by rw [hf]; decide)]
      refine ⟨_, rfl, hgood, hkept, ?_, rfl, rfl, id, rfl, .inl ⟨?_, rfl⟩⟩
      · exact hempty
      · show ([] : List (List UInt8)) ++ s.mbx.stored.toList = _
        rfl
    · -- the next fragment is made in the buffer that has just become free
      have hf : (Ecat.readDone s.mbx).u8MailboxSendReqStored = COE_SERVICE := hflags
      have hmask : COE_SERVICE &&& ~~~ COE_SERVICE = 0 := by decide
      rw [if_pos (by rw [hf]; decide), hf, hmask]
      obtain ⟨-, w, hw⟩ := hgood.free rfl
      obtain ⟨s', hs', hgood', hcase⟩ := Ready.continueInd (V := V)
        (s := { s with mbx := { Ecat.readDone s.mbx with u8MailboxSendReqStored := 0 } }) ⟨hgood, rfl, hw⟩
      refine ⟨s', hs', hgood', ?_⟩
      rcases hcase with hsame | ⟨d, hd⟩
      · refine ⟨hsame.kept.trans hkept, ?_, hsame.toggle, hsame.locked, hsame.pending.trans, hsame.size,
          .inl ⟨?_, hsame.sent⟩⟩
        · exact hsame.sendMbx.trans (hempty.trans hsame.waiting.symm)
        · rw [box, hsame.waiting, hsame.stored]
          rfl
      · refine ⟨hd.kept.trans hkept, hd.sendMbx.trans hd.waiting.symm, hd.toggle, hd.locked, fun _ => hd.pending,
          hd.size, .inr ⟨hnone, d, ?_, hd.sent, hd.new⟩⟩
        rw [box, hd.waiting, hd.stored]
        rfl

/-- What `MBX_MailboxRepeatReq` can do. -/
structure RepeatedBy (m m' : Mailbox) : Prop where
  kept : m'.kept = m.kept
  synced : m'.Synced
  toggle : m'.bMbxRepeatToggle = !m.bMbxRepeatToggle
  locked : m'.bReceiveMbxIsLocked = m.bReceiveMbxIsLocked
  pending : m.bPendingMbxResponse = false → m'.bPendingMbxResponse = false
  sent : m'.sent = m.sent
  size : m'.u16SendMbxSize = m.u16SendMbxSize
  box : m'.box = Redelivery.repeated m.box m.kept

theorem Good.toggled (h : Good n m) (b : Bool) : Good n { m with bMbxRepeatToggle := b } := by
  obtain ⟨p, hp⟩ := h.pos
  exact ⟨h.bound, ⟨p, hp.write, hp.read, hp.kept, hp.store, hp.full⟩, h.short, h.overrun, h.status, h.running,
    h.receive, h.send, h.even, h.unsent, h.flags, h.flags_idle, h.counter_le, h.counter⟩

/-- The copy of the kept datagram in the free buffer is sent. -/
theorem Good.repeat_idle (h : Good n m) {i : Fin 2} (hp : At m (.idle i)) :
    Good n (fillSendMailbox m (i + 1)) ∧ (fillSendMailbox m (i + 1)).kept = m.kept ∧
      (fillSendMailbox m (i + 1)).waiting = m.kept ∧ (fillSendMailbox m (i + 1)).sendMbx = m.kept ∧
        (fillSendMailbox m (i + 1)).stored = none := by
  set b := m.asMbx (i + 1)
  have hkeptAt : m.psRepeatMbx = some (i + 1) := hp.kept
  have hshort : b.Short n := h.short _ (.inr (.inl hkeptAt))
  have hkept : m.kept = some (m.cut b.datagram) := kept_of hkeptAt
  obtain ⟨hlen, hdata⟩ : (copyBytes (b.length.toNat + MBX_HEADER_SIZE) b (m.asMbx i)).length = b.length ∧
      (copyBytes (b.length.toNat + MBX_HEADER_SIZE) b (m.asMbx i)).datagram = b.datagram :=
    Tmbx.datagram_congr (h.accepted hshort) fun k hk => if_pos hk
  have hshort' : (copyBytes (b.length.toNat + MBX_HEADER_SIZE) b (m.asMbx i)).Short n := by
    unfold Tmbx.Short
    rwa [hlen]
  have hbuf : (fillSendMailbox m (i + 1)).asMbx =
      update m.asMbx i (copyBytes (b.length.toNat + MBX_HEADER_SIZE) b (m.asMbx i)) := by
    have hwrite : m.psWriteMbx = some i := hp.write
    simp only [fillSendMailbox, hwrite]
    rw [if_pos (add_one_ne i)]
  have hread : (fillSendMailbox m (i + 1)).psReadMbx = some i := by
    simp [fillSendMailbox, hp.write, Pos.write]
  have hother : (fillSendMailbox m (i + 1)).asMbx (i + 1) = b := by
    rw [hbuf, update_of_ne (add_one_ne i)]
  have hsame : (fillSendMailbox m (i + 1)).asMbx i = copyBytes (b.length.toNat + MBX_HEADER_SIZE) b (m.asMbx i) := by
    rw [hbuf, update_self]
  refine ⟨⟨h.bound, ⟨.waiting i, ?_, hread, hp.kept, hp.store, rfl⟩, fun k hk => ?_, h.not_overrun hshort, h.status,
    h.running, h.receive, h.send, h.even, h.unsent, h.flags, (fun hfalse => by cases hfalse), h.counter_le,
    h.counter⟩, ?_, ?_, ?_, ?_⟩
  · simp [fillSendMailbox, hp.read, Pos.read, Pos.write]
  · rcases hk with hk | hk | hk
    · obtain rfl : i = k := Option.some.inj (hread.symm.trans hk)
      rwa [hsame]
    · obtain rfl : i + 1 = k := Option.some.inj (hp.kept.symm.trans hk)
      rwa [hother]
    · cases hp.store.symm.trans hk
  · rw [kept_of (m := fillSendMailbox m (i + 1)) hkeptAt, hother, hkept]
    rfl
  · rw [waiting_of (m := fillSendMailbox m (i + 1)) rfl hread, hsame, hdata, hkept]
    rfl
  · rw [hkept, Mailbox.cut, ← sendBytes_eq h.even]
    rfl
  · exact stored_none (m := fillSendMailbox m (i + 1)) hp.store

/-- The kept datagram is sent in front of the one that has not been read. -/
theorem Good.repeat_waiting (h : Good n m) {i : Fin 2} (hp : At m (.waiting i)) :
    Good n (fillSendMailbox (storeUnread m) (i + 1)) ∧ (fillSendMailbox (storeUnread m) (i + 1)).kept = m.kept ∧
      (fillSendMailbox (storeUnread m) (i + 1)).waiting = m.kept ∧
        (fillSendMailbox (storeUnread m) (i + 1)).sendMbx = m.kept ∧
          (fillSendMailbox (storeUnread m) (i + 1)).stored = m.waiting := by
  have hkeptAt : m.psRepeatMbx = some (i + 1) := hp.kept
  have hreadAt : m.psReadMbx = some i := hp.read
  have hunread : storeUnread m = { m with psStoreMbx := some i, bSendMbxIsFull := false, sendMbx := none } := by
    have hstore : m.psStoreMbx = none := hp.store
    unfold storeUnread
    rw [if_pos ⟨hp.full, hstore⟩, hreadAt]
  have hwrite : m.psWriteMbx = none := hp.write
  have hkept : m.kept = some (m.cut (m.asMbx (i + 1)).datagram) := kept_of hkeptAt
  have hshort : (m.asMbx (i + 1)).Short n := h.short _ (.inr (.inl hkeptAt))
  rw [hunread]
  have hbuf : (fillSendMailbox { m with psStoreMbx := some i, bSendMbxIsFull := false, sendMbx := none } (i + 1)).asMbx =
      m.asMbx := by
    simp only [fillSendMailbox, hwrite]
  have hread : (fillSendMailbox { m with psStoreMbx := some i, bSendMbxIsFull := false, sendMbx := none }
      (i + 1)).psReadMbx = some (i + 1) := by
    simp [fillSendMailbox, hwrite]
  refine ⟨⟨h.bound, ⟨.repeated i, ?_, hread, hp.kept, rfl, rfl⟩, fun k hk => ?_, h.not_overrun hshort, h.status,
    h.running, h.receive, h.send, h.even, h.unsent, h.flags, (fun hfalse => by cases hfalse), h.counter_le,
    h.counter⟩, ?_, ?_, ?_, ?_⟩
  · simp [fillSendMailbox, hreadAt, Pos.write]
  · rw [hbuf]
    rcases hk with hk | hk | hk
    · exact h.short k (.inr (.inl (hkeptAt.trans (hread.symm.trans hk))))
    · exact h.short k (.inr (.inl hk))
    · exact h.short k (.inl (hreadAt.trans hk))
  · show Option.map _ m.psRepeatMbx = _
    rw [hbuf]
    rfl
  · rw [waiting_of rfl hread, hbuf, hkept]
    rfl
  · rw [hkept, Mailbox.cut, ← sendBytes_eq h.even]
    rfl
  · rw [stored_of (i := i) rfl, hbuf, waiting_of hp.full hreadAt]
    rfl

theorem Good.repeatReq (h : Good n m) (hsync : m.Synced) :
    Good n (mbxMailboxRepeatReq m) ∧ RepeatedBy m (mbxMailboxRepeatReq m) := by
  obtain ⟨p, hp⟩ := h.pos
  unfold mbxMailboxRepeatReq
  cases hrep : m.psRepeatMbx with
  | none =>
    have hm : resend m = m := by unfold resend; rw [hrep]
    have hkept : m.kept = none := by rw [Mailbox.kept, hrep]; rfl
    rw [hm]
    refine ⟨h.toggled _, rfl, hsync, rfl, rfl, id, rfl, rfl, ?_⟩
    rw [hkept]
    rfl
  | some j =>
    have hm : resend m = (mbxCopyToSendMailbox (storeUnread m) j).2 := by unfold resend; rw [hrep]
    have hj := hp.kept
    rw [hrep] at hj
    rw [hm]
    cases p with
    | fresh => cases hj
    | first => cases hj
    | idle i =>
      obtain rfl : j = i + 1 := Option.some.inj hj
      have hunread : storeUnread m = m := if_neg (by simp [hp.full, Pos.full])
      rw [hunread, copy_eq h.status h.running hp.full]
      obtain ⟨hgood, hkept, hwaiting, hsend, hstored⟩ := h.repeat_idle hp
      have hbox : m.box = [] := by
        rw [box, Good.waiting_free hp.full, stored_none hp.store]
        rfl
      have hsome : m.kept = some (m.cut (m.asMbx (i + 1)).datagram) := kept_of hrep
      refine ⟨hgood.toggled _, hkept, hsend.trans hwaiting.symm, rfl, rfl, fun _ => rfl, rfl, rfl, ?_⟩
      show (fillSendMailbox m (i + 1)).waiting.toList ++ (fillSendMailbox m (i + 1)).stored.toList = _
      rw [hbox, hwaiting, hstored, hsome]
      rfl
    | waiting i =>
      obtain rfl : j = i + 1 := Option.some.inj hj
      obtain ⟨hgood, hkept, hwaiting, hsend, hstored⟩ := h.repeat_waiting hp
      have hstore : m.psStoreMbx = none := hp.store
      have hunread : storeUnread m = { m with psStoreMbx := m.psReadMbx, bSendMbxIsFull := false, sendMbx := none } :=
        if_pos ⟨hp.full, hstore⟩
      have hcopy : mbxCopyToSendMailbox (storeUnread m) (i + 1) = (0, fillSendMailbox (storeUnread m) (i + 1)) := by
        rw [hunread]
        exact copy_eq (m := { m with psStoreMbx := m.psReadMbx, bSendMbxIsFull := false, sendMbx := none })
          h.status h.running rfl _
      have hframe : (storeUnread m).bMbxRepeatToggle = m.bMbxRepeatToggle ∧
          (storeUnread m).bReceiveMbxIsLocked = m.bReceiveMbxIsLocked ∧ (storeUnread m).sent = m.sent ∧
            (storeUnread m).u16SendMbxSize = m.u16SendMbxSize := by
        rw [hunread]
        exact ⟨rfl, rfl, rfl, rfl⟩
      have hone : m.waiting = some (m.cut (m.asMbx i).datagram) := waiting_of hp.full hp.read
      have hbox : m.box = [m.cut (m.asMbx i).datagram] := by
        rw [box, hone, stored_none hstore]
        rfl
      have hsome : m.kept = some (m.cut (m.asMbx (i + 1)).datagram) := kept_of hrep
      rw [hcopy]
      refine ⟨hgood.toggled _, hkept, hsend.trans hwaiting.symm, ?_, hframe.2.1, fun _ => rfl, hframe.2.2.1,
        hframe.2.2.2, ?_⟩
      · show (!(storeUnread m).bMbxRepeatToggle) = _
        rw [hframe.1]
      · show (fillSendMailbox (storeUnread m) (i + 1)).waiting.toList ++
          (fillSendMailbox (storeUnread m) (i + 1)).stored.toList = _
        rw [hbox, hwaiting, hstored, hsome, hone]
        rfl
    | repeated i =>
      -- the repeated one is still in the send mailbox
      have hstore : m.psStoreMbx = some i := hp.store
      have hunread : storeUnread m = m := if_neg (by simp [hstore])
      have hcopy : (mbxCopyToSendMailbox m j).2 = m := by
        unfold mbxCopyToSendMailbox
        rw [if_neg h.status, if_neg (by simp [h.running]), if_pos (show m.bSendMbxIsFull = true from hp.full)]
      rw [hunread, hcopy]
      refine ⟨h.toggled _, rfl, hsync, rfl, rfl, id, rfl, rfl, ?_⟩
      have hbox : m.box.length = 2 := by
        rw [box, waiting_of hp.full hp.read, stored_of hstore]
        rfl
      have hsome : m.kept = some (m.cut (m.asMbx j).datagram) := kept_of hrep
      rw [hsome, Redelivery.repeated, if_neg (by omega)]
      rfl

end Ecat
end Dcs
