import Dcs.MailboxLink

/-!
# A datagram that is written twice

A master that does not know whether a datagram was taken over writes it again, with the same counter, and
`MBX_MailboxWriteInd` drops the second one. But `bPendingMbxResponse` has been set by then, nothing is sent
that would reset it, and `MBX_CheckAndCopyMailbox` lets nothing in while it is set. From there on the slave
takes no datagram any more, as long as the master does not ask for a repetition.
-/

namespace Dcs
namespace Ecat
open Mailbox

namespace Link

variable {σ : Type*} {V : Service σ} {n : ℕ} {s t : Link σ} {a : LinkAction}

/-- The next step takes `r` over and drops it. -/
def Drops (s : Link σ) (r : Received) : Prop :=
  (s.phase = .written ∧ s.writeEvent = true ∨ s.phase = .main ∧ s.slave.mbx.bReceiveMbxIsLocked = true) ∧
    s.sm0 = some r ∧ ¬ Blocked s.slave.mbx ∧
      ∃ w, s.slave.mbx.psWriteMbx = some w ∧ Repeated (copyReceived s.slave.mbx r w) w

instance (m : Mailbox) (w : Fin 2) : Decidable (Repeated m w) := inferInstanceAs (Decidable (_ ∧ _ ∧ _))

/-- An answer is waited for that was never going to be sent, since the state `t`. -/
structure Deaf (t s : Link σ) : Prop where
  inv : s.Inv MAX_MBX_SIZE.toNat
  pending : s.slave.mbx.bPendingMbxResponse = true
  free : s.slave.mbx.bSendMbxIsFull = false
  settled : ¬ s.Due
  copied : s.copied = t.copied
  sent : s.slave.mbx.sent = t.slave.mbx.sent
  received : s.received = t.received

/-- The two calls of `MBX_CheckAndCopyMailbox` are the two places where a step can take a datagram over. -/
theorem poll_check (hphase : s.phase = .written ∧ s.writeEvent = true ∨
    s.phase = .main ∧ s.slave.mbx.bReceiveMbxIsLocked = true) :
    (s.slave.mbx.bReceiveMbxIsLocked = true ∨ s.writeEvent = true) ∧
      ∃ p : Phase, (p = .main ∨ p = .activate) ∧ next V s .poll = { s.check V with phase := p } := by
  rcases hphase with ⟨hphase, hevent⟩ | ⟨hphase, hlocked⟩
  · refine ⟨.inr hevent, .main, .inl rfl, ?_⟩
    simp only [next, ecatMain, hphase, hevent, if_true]
  · refine ⟨.inl hlocked, .activate, .inr rfl, ?_⟩
    simp only [next, ecatMain, hphase, mbxMain, hlocked, if_true]

/-! ### The slave stays deaf -/

namespace Deaf

theorem event (h : Deaf t s) : s.readEvent = false :=
  Bool.eq_false_iff.2 fun hev => by
    have hfull := h.inv.event hev
    rw [h.free] at hfull
    cases hfull

/-- All that the check does is to remember that a datagram is there. -/
theorem check_eq (h : Deaf t s) (hlock : s.slave.mbx.bReceiveMbxIsLocked = true ∨ s.writeEvent = true) :
    ∃ r slave, slave.mbx = { s.slave.mbx with bReceiveMbxIsLocked := true } ∧
      s.check V = { s with slave, writeEvent := false, sm0 := some r } := by
  obtain ⟨r, slave, hr, -, hcopied, heq⟩ := h.inv.check_eq (V := V) hlock
  have hblocked : Blocked s.slave.mbx := .inr (.inr h.pending)
  have hm : slave.mbx = { s.slave.mbx with bReceiveMbxIsLocked := true } := by
    rcases hcopied with ⟨-, hm⟩ | ⟨-, hfree, -⟩ | ⟨-, hfree, -⟩
    · exact hm
    · exact absurd hblocked hfree
    · exact absurd hblocked hfree
  refine ⟨r, slave, hm, ?_⟩
  rw [heq, hm]
  rfl

theorem check (h : Deaf t s) (hlock : s.slave.mbx.bReceiveMbxIsLocked = true ∨ s.writeEvent = true) {p : Phase}
    (hp : p = .main ∨ p = .activate) : Deaf t { s.check V with phase := p } := by
  have hinv := (h.inv.check (V := V) hlock hp).1
  obtain ⟨r, slave, hm, heq⟩ := h.check_eq (V := V) hlock
  rw [heq] at hinv ⊢
  refine ⟨hinv, ?_, ?_, ?_, h.copied, ?_, h.received⟩
  · show slave.mbx.bPendingMbxResponse = true
    rw [hm]; exact h.pending
  · show slave.mbx.bSendMbxIsFull = false
    rw [hm]; exact h.free
  · show ¬ s.asked ≠ slave.mbx.bMbxRepeatToggle
    rw [hm]; exact h.settled
  · show slave.mbx.sent = _
    rw [hm]; exact h.sent

/-- A step that changes nothing but what `ECAT_Main` has read. -/
theorem move (h : Deaf t s) {p : Phase} (hinv : ({ s with phase := p } : Link σ).Inv MAX_MBX_SIZE.toNat) :
    Deaf t { s with phase := p } :=
  ⟨hinv, h.pending, h.free, h.settled, h.copied, h.sent, h.received⟩

theorem poll (h : Deaf t s) : Deaf t (next V s .poll) := by
  have hinv := (h.inv.poll (V := V)).1
  have hok := h.inv.phase
  have hmove : ∀ p : Phase, next V s .poll = { s with phase := p } → Deaf t (next V s .poll) := fun p heq => by
    rw [heq] at hinv ⊢
    exact h.move hinv
  cases hphase : s.phase with
  | main =>
    cases hlocked : s.slave.mbx.bReceiveMbxIsLocked with
    | true =>
      obtain ⟨hlock, p, hp, heq⟩ := poll_check (V := V) (.inr ⟨hphase, hlocked⟩)
      rw [heq]
      exact h.check hlock hp
    | false => exact hmove .activate (by simp [next, ecatMain, hphase, mbxMain, hlocked])
  | activate => exact hmove (.events s.asked) (by simp only [next, ecatMain, hphase])
  | events b => exact hmove (.read b s.readEvent) (by simp only [next, ecatMain, hphase])
  | read b event =>
    cases event with
    | false => exact hmove (.again b) (by simp [next, ecatMain, hphase])
    | true =>
      unfold PhaseOk at hok
      rw [hphase] at hok
      have hev := hok.1 rfl
      rw [h.event] at hev
      cases hev
  | again b =>
    unfold PhaseOk at hok
    rw [hphase] at hok
    have hb : ¬ b ≠ s.slave.mbx.bMbxRepeatToggle := fun hb => h.settled (hok hb).1
    exact hmove .written (by simp only [next, ecatMain, hphase]; rw [if_neg hb])
  | written =>
    cases hevent : s.writeEvent with
    | true =>
      obtain ⟨hlock, p, hp, heq⟩ := poll_check (V := V) (.inl ⟨hphase, hevent⟩)
      rw [heq]
      exact h.check hlock hp
    | false => exact hmove .main (by simp [next, ecatMain, hphase, hevent])

theorem step (h : Deaf t s) (ha : Enabled s a) (hask : a ≠ .ask) : Deaf t (next V s a) := by
  obtain ⟨-, ha⟩ := ha
  cases a with
  | write r => exact ⟨(h.inv.write (short_max r)).1, h.pending, h.free, h.settled, h.copied, h.sent, h.received⟩
  | read arrives =>
    -- there is nothing to be read
    refine absurd ?_ ha.1
    rw [h.inv.send, h.event, if_neg Bool.false_ne_true, Good.waiting_free h.free]
  | doubt => exact ⟨(h.inv.doubt ha).1, h.pending, h.free, h.settled, h.copied, h.sent, h.received⟩
  | ask => exact absurd rfl hask
  | poll => exact h.poll

end Deaf

/-- The dropped datagram is taken over, and the answer that is waited for does not come. -/
theorem Inv.drops (h : s.Inv MAX_MBX_SIZE.toNat) {r : Received} (hdrops : s.Drops r) (hdue : ¬ s.Due) :
    (next V s .poll).copied = s.copied ++ [r] ∧ (next V s .poll).slave.mbx.sent = s.slave.mbx.sent ∧
      (next V s .poll).received = s.received ∧ Deaf (next V s .poll) (next V s .poll) := by
  obtain ⟨hphase, hr, hfree, w, hw, hrep⟩ := hdrops
  obtain ⟨hlock, p, hp, hnext⟩ := poll_check (V := V) hphase
  obtain ⟨r', slave, hr', -, hcopied, heq⟩ := h.check_eq (V := V) hlock
  obtain rfl : r = r' := Option.some.inj (hr.symm.trans hr')
  have hinv := (h.check (V := V) hlock hp).1
  have hfull : s.slave.mbx.bSendMbxIsFull = false := Bool.eq_false_iff.2 fun hf => hfree (.inl hf)
  have hsame : Same { s.slave.mbx with bReceiveMbxIsLocked := false, bPendingMbxResponse := true } slave.mbx := by
    rcases hcopied with ⟨hblocked, -⟩ | ⟨-, -, -, -, hsame⟩ | ⟨-, -, hnot, -⟩
    · exact absurd hblocked hfree
    · exact hsame
    · exact absurd hrep (hnot w hw)
  have hlocked : slave.mbx.bReceiveMbxIsLocked = false := hsame.locked
  rw [hlocked, if_neg Bool.false_ne_true, if_neg Bool.false_ne_true] at heq
  rw [heq] at hnext hinv
  rw [hnext]
  refine ⟨rfl, hsame.sent, rfl, hinv, hsame.pending, hsame.full.trans hfull, ?_, rfl, rfl, rfl⟩
  show ¬ s.asked ≠ slave.mbx.bMbxRepeatToggle
  rw [hsame.toggle]
  exact hdue

variable {P : Link σ → LinkAction → Prop}

/-- After a datagram was dropped, and as long as the master asks for no repetition, nothing that it writes
is taken over and nothing more is sent, however long it goes on. -/
theorem drops_deaf (h : Lts.Reach (system V) P s) {r : Received} (hdrops : s.Drops r) (hdue : ¬ s.Due)
    {as : List LinkAction} (has : (system V).Runs (fun _ a => a ≠ .ask) (next V s .poll) as) :
    ((system V).run (next V s .poll) as).copied = s.copied ++ [r] ∧
      ((system V).run (next V s .poll) as).slave.mbx.sent = s.slave.mbx.sent ∧
        ((system V).run (next V s .poll) as).received = s.received := by
  obtain ⟨hcopied, hsent, hreceived, hdeaf⟩ := (reach_inv h).drops (V := V) hdrops hdue
  have hrun : Deaf (next V s .poll) ((system V).run (next V s .poll) as) :=
    has.invariant (fun _ _ hd ha hask => hd.step ha hask) hdeaf
  exact ⟨hrun.copied.trans hcopied, hrun.sent.trans hsent, hrun.received.trans hreceived⟩

instance (a : LinkAction) : Decidable (a = .ask) :=
  match a with
  | .ask => isTrue rfl
  | .write _ | .read _ | .doubt | .poll => isFalse (by simp)

/-- The first request is answered and the answer read, and the request is written again. -/
def twice : List LinkAction :=
  [.write (request 1)] ++ polls 6 ++ [.read true] ++ polls 6 ++ [.write (request 1)] ++ polls 5

theorem twice_reach : Lts.Reach (system echo) (fun _ a => a ≠ .ask) ((system echo).run started twice) :=
  .run twice (.init started_start) (by decide +kernel)

theorem twice_drops : ((system echo).run started twice).Drops (request 1) :=
  ⟨.inl ⟨rfl, rfl⟩, rfl, by decide +kernel, 1, rfl, by decide +kernel, by decide +kernel, by decide +kernel⟩

/-- The second request is never taken over. -/
def ignored : List LinkAction := polls 6 ++ [.write (request 2)] ++ polls 12

theorem drops_deaf_twice :
    ((system echo).run (next echo ((system echo).run started twice) .poll) ignored).copied =
        ((system echo).run started twice).copied ++ [request 1] ∧
      ((system echo).run (next echo ((system echo).run started twice) .poll) ignored).slave.mbx.sent =
          ((system echo).run started twice).slave.mbx.sent ∧
        ((system echo).run (next echo ((system echo).run started twice) .poll) ignored).received =
          ((system echo).run started twice).received :=
  drops_deaf twice_reach twice_drops (by decide +kernel) (by decide +kernel)

/-! ### Nothing else does that -/

/-- No answer is waited for that does not come, and each datagram that was taken over has got one. -/
structure Answered (s : Link σ) : Prop where
  pending : s.slave.mbx.bPendingMbxResponse = false
  count : s.copied.length ≤ s.slave.mbx.sent.length

theorem Inv.answered_check (h : s.Inv n) (hans : s.Answered)
    (hlock : s.slave.mbx.bReceiveMbxIsLocked = true ∨ s.writeEvent = true)
    (hnew : ∀ r w, s.sm0 = some r → ¬ Blocked s.slave.mbx → s.slave.mbx.psWriteMbx = some w →
      ¬ Repeated (copyReceived s.slave.mbx r w) w) : (s.check V).Answered := by
  obtain ⟨r, slave, hr, -, hcopied, heq⟩ := h.check_eq (V := V) hlock
  have hcount := hans.count
  rw [heq]
  rcases hcopied with ⟨-, hm⟩ | ⟨w, hfree, hw, hrep, -⟩ | ⟨d, -, -, hsends⟩
  · refine ⟨?_, ?_⟩
    · show slave.mbx.bPendingMbxResponse = false
      rw [hm]
      exact hans.pending
    · dsimp only
      rw [hm]
      exact hcount
  · exact absurd hrep (hnew r w hr hfree hw)
  · refine ⟨hsends.pending, ?_⟩
    have hlocked : slave.mbx.bReceiveMbxIsLocked = false := hsends.locked
    dsimp only
    rw [hlocked, if_neg Bool.false_ne_true, hsends.sent, List.length_append, List.length_append]
    exact Nat.add_le_add_right hcount 1

/-- What has been sent by `MBX_MailboxReadInd` or `MBX_MailboxRepeatReq` is not taken back. -/
theorem Answered.of_slave {slave : Stack σ} (h : s.Answered)
    (hpending : s.slave.mbx.bPendingMbxResponse = false → slave.mbx.bPendingMbxResponse = false)
    (hsent : s.slave.mbx.sent <+: slave.mbx.sent) {p : Phase} {b : Bool} :
    ({ s with slave, readEvent := b, phase := p } : Link σ).Answered :=
  ⟨hpending h.pending, h.count.trans hsent.length_le⟩

theorem Inv.answered_step (h : s.Inv n) (hans : s.Answered) (ha : Enabled s a)
    (hnew : a = .poll → ∀ r, ¬ s.Drops r) : (next V s a).Answered := by
  have hmove : ∀ p : Phase, ({ s with phase := p } : Link σ).Answered := fun p => ⟨hans.pending, hans.count⟩
  cases a with
  | write r => exact ⟨hans.pending, hans.count⟩
  | read arrives =>
    unfold next
    dsimp only
    split
    · exact hans
    · exact ⟨hans.pending, hans.count⟩
  | doubt => exact ⟨hans.pending, hans.count⟩
  | ask => exact ⟨hans.pending, hans.count⟩
  | poll =>
    have hcheck : (s.phase = .written ∧ s.writeEvent = true ∨
        s.phase = .main ∧ s.slave.mbx.bReceiveMbxIsLocked = true) → (next V s .poll).Answered := fun hphase => by
      obtain ⟨hlock, p, -, hnext⟩ := poll_check (V := V) hphase
      obtain ⟨hpending, hcount⟩ := h.answered_check (V := V) hans hlock fun r w hr hfree hw hrep =>
        hnew rfl r ⟨hphase, hr, hfree, w, hw, hrep⟩
      rw [hnext]
      exact ⟨hpending, hcount⟩
    cases hphase : s.phase with
    | main =>
      cases hlocked : s.slave.mbx.bReceiveMbxIsLocked with
      | true => exact hcheck (.inr ⟨hphase, hlocked⟩)
      | false => simpa [next, ecatMain, hphase, mbxMain, hlocked] using hmove .activate
    | activate => simpa only [next, ecatMain, hphase] using hmove (.events s.asked)
    | events b => simpa only [next, ecatMain, hphase] using hmove (.read b s.readEvent)
    | read b event =>
      cases event with
      | false => simpa [next, ecatMain, hphase] using hmove (.again b)
      | true =>
        have hok := h.phase
        unfold PhaseOk at hok
        rw [hphase] at hok
        have hev : s.readEvent = true := hok.1 rfl
        have hempty : s.slave.mbx.sendMbx = none := by rw [h.send, hev, if_pos rfl]
        obtain ⟨slave, hslave, -, hread⟩ := h.good.readInd (V := V) (h.event hev) hempty
        have heq : next V s .poll = { s with slave, readEvent := false, phase := .again b } := by
          simp only [next, ecatMain, hphase, if_true, hslave]
        have hsent : s.slave.mbx.sent <+: slave.mbx.sent := by
          rcases hread.next with ⟨-, hsame⟩ | ⟨-, d, -, hmore, -⟩
          · rw [hsame]
          · rw [hmore]
            exact List.prefix_append _ _
        rw [heq]
        exact hans.of_slave hread.pending hsent
    | again b =>
      by_cases hb : b ≠ s.slave.mbx.bMbxRepeatToggle
      · have hok := h.phase
        unfold PhaseOk at hok
        rw [hphase] at hok
        have hrep := (h.good.repeatReq (h.synced (hok hb).2)).2
        have heq : next V s .poll =
            { s with slave := { s.slave with mbx := mbxMailboxRepeatReq s.slave.mbx }, phase := .written } := by
          simp only [next, ecatMain, hphase]
          rw [if_pos hb]
        have hsent : s.slave.mbx.sent <+: (mbxMailboxRepeatReq s.slave.mbx).sent := by rw [hrep.sent]
        rw [heq]
        exact hans.of_slave hrep.pending hsent
      · have heq : next V s .poll = { s with phase := .written } := by
          simp only [next, ecatMain, hphase]
          rw [if_neg hb]
        rw [heq]
        exact hmove .written
    | written =>
      cases hevent : s.writeEvent with
      | true => exact hcheck (.inl ⟨hphase, hevent⟩)
      | false => simpa [next, ecatMain, hphase, hevent] using hmove .main

theorem reach_answered (h : Lts.Reach (system V) (fun s a => a = .poll → ∀ r, ¬ s.Drops r) s) : s.Answered :=
  h.invariant_of (I := Inv MAX_MBX_SIZE.toNat) (J := Answered) (fun _ hr => reach_inv hr)
    (fun t (ht : t.Start) => ⟨(congrArg Mailbox.bPendingMbxResponse ht.stopped).symm, by
      obtain ⟨-, -, -, -, -, -, -, hcopied, -⟩ := ht.rest
      rw [hcopied]
      exact Nat.zero_le _⟩)
    fun _ _ hi hans ha hnew => hi.answered_step hans ha hnew

/-- As long as no datagram is dropped, one that was written waits for nothing but the master: for as long as
the send mailbox is full. -/
theorem blocked_iff (h : Lts.Reach (system V) (fun s a => a = .poll → ∀ r, ¬ s.Drops r) s) :
    Blocked s.slave.mbx ↔ s.slave.mbx.bSendMbxIsFull = true := by
  constructor
  · rintro (hfull | hflags | hp)
    · exact hfull
    · exact by_contra fun hfull => hflags ((reach_inv h).good.flags_idle (Bool.eq_false_iff.2 hfull))
    · rw [(reach_answered h).pending] at hp
      cases hp
  · exact .inl

instance (s : Link σ) : Decidable (∀ r, ¬ s.Drops r) :=
  decidable_of_iff
    (∀ r ∈ s.sm0, ∀ w ∈ s.slave.mbx.psWriteMbx, (s.phase = .written ∧ s.writeEvent = true ∨
      s.phase = .main ∧ s.slave.mbx.bReceiveMbxIsLocked = true) → ¬ Blocked s.slave.mbx →
        ¬ Repeated (copyReceived s.slave.mbx r w) w)
    ⟨fun h r ⟨hphase, hr, hfree, w, hw, hrep⟩ => h r hr w hw hphase hfree hrep,
      fun h r hr w hw hphase hfree hrep => h r ⟨hphase, hr, hfree, w, hw, hrep⟩⟩

instance (a : LinkAction) : Decidable (a = .poll) :=
  match a with
  | .poll => isTrue rfl
  | .write _ | .read _ | .doubt | .ask => isFalse (by simp)

theorem exchange_new : Lts.Reach (system echo) (fun s a => a = .poll → ∀ r, ¬ s.Drops r)
    ((system echo).run started exchange) :=
  .run exchange (.init started_start) (by decide +kernel)

theorem blocked_iff_exchange : Blocked ((system echo).run started exchange).slave.mbx ↔
    ((system echo).run started exchange).slave.mbx.bSendMbxIsFull = true :=
  blocked_iff exchange_new

end Link

end Ecat
end Dcs
