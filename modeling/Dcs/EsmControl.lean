import Dcs.EsmSteps

/-!
# What `AL_ControlInd` can do

`request_cases` is the one lemma about `AL_ControlInd` that the rest uses: the state that is left, what goes
with it, and the error that is shown.
-/

namespace Dcs
namespace Ecat

variable {e : Regs} {s s' : Esm} {p c n : UInt8} {code result : UInt16} {t : ℕ} {ack : Bool}

/-! ### The local management services -/

/-- The moves that are made at once: one state up, but not to OP, or any number of states down. -/
def Moves (p c : UInt8) : Prop :=
  p = STATE_INIT ∧ c = STATE_PREOP ∨ p = STATE_PREOP ∧ c = STATE_SAFEOP ∨ IsState c ∧ c < p

instance : Decidable (Moves p c) := inferInstanceAs (Decidable (_ ∨ _))

/-- The wait for the PLL begins, unless a local error has the code of a transition in work. -/
def PllStarted (s s' : Esm) : Prop :=
  s.u16LocalErrorCode ≠ NOERROR_INWORK → s'.bDcSyncActive = true →
    s'.i16WaitForPllRunningTimeout = 200 ∧ s'.i16WaitForPllRunningCnt = 0

/-- What the services do in the state `p` when `c` is requested. -/
inductive Served (e : Regs) (p c : UInt8) (s : Esm) : UInt16 × ℕ × Esm → Prop
  | done {t : ℕ} {s' : Esm} : Moves p c → Frame s s' → InState c s' →
      (c = STATE_SAFEOP → p = STATE_PREOP → AreasTaken e s') → Served e p c s (0, t, s')
  | same {t : ℕ} {s' : Esm} : c = p → Frame s s' → InState p s' → Served e p c s (NOERROR_NOSTATECHANGE, t, s')
  | inWork {s' : Esm} : p = STATE_SAFEOP → c = STATE_OP → Frame s s' → InState p s' →
      s'.bApplEsmPending = s.bApplEsmPending → PllStarted s s' → Served e p c s (NOERROR_INWORK, SAFEOP_2_OP, s')
  | refused {r : UInt16} {t : ℕ} {s' : Esm} : c ≠ p → Failed r → Frame s s' → InState p s' → Served e p c s (r, t, s')

/-- The transitions for which something is done; all others are refused. -/
def servedTrans : List ℕ :=
  [INIT_2_INIT, INIT_2_PREOP, PREOP_2_INIT, PREOP_2_PREOP, PREOP_2_SAFEOP, BOOT_2_INIT, SAFEOP_2_INIT, SAFEOP_2_PREOP,
    SAFEOP_2_SAFEOP, SAFEOP_2_OP, OP_2_INIT, OP_2_PREOP, OP_2_SAFEOP, OP_2_OP]

theorem services_refused (e : Regs) (ack : Bool) (s : Esm) (ht : t ∉ servedTrans) :
    ∃ r, Failed r ∧ services e ack t s = (r, t, s) := by
  have hboot : Failed ALSTATUSCODE_BOOTNOTSUPP := by decide
  have hinvalid : Failed ALSTATUSCODE_INVALIDALCONTROL := by decide
  have hunknown : Failed ALSTATUSCODE_UNKNOWNALCONTROL := by decide
  unfold services
  split
  all_goals
    first
    | exact absurd (by decide) ht
    | exact ⟨_, hboot, rfl⟩
    | exact ⟨_, hinvalid, rfl⟩
    | exact ⟨_, hunknown, rfl⟩

theorem Served.refuse (h : Clean p s) (hc : c ≠ p) (ht : t ∉ servedTrans) :
    Served e p c s (services e ack t s) := by
  obtain ⟨r, hr, heq⟩ := services_refused e ack s ht
  rw [heq]
  exact .refused hc hr Frame.refl h.within

/-- What is not a state is refused, and so is BOOT. -/
theorem Served.refuseOther (h : Clean p s) (hstate : ¬ IsState c) (hc : c.toNat < 16)
    (ht : t = 16 * p.toNat + c.toNat) : Served e p c s (services e ack t s) := by
  have hcp : c ≠ p := fun heq => hstate (heq ▸ h.state)
  have hne : c.toNat ≠ 1 ∧ c.toNat ≠ 2 ∧ c.toNat ≠ 4 ∧ c.toNat ≠ 8 :=
    ⟨fun heq => hstate (.inl (UInt8.toNat_inj.1 heq)), fun heq => hstate (.inr (.inl (UInt8.toNat_inj.1 heq))),
      fun heq => hstate (.inr (.inr (.inl (UInt8.toNat_inj.1 heq)))),
      fun heq => hstate (.inr (.inr (.inr (UInt8.toNat_inj.1 heq))))⟩
  refine .refuse h hcp ?_
  rw [ht]
  have hp : p.toNat = 1 ∨ p.toNat = 2 ∨ p.toNat = 4 ∨ p.toNat = 8 := by
    obtain rfl | rfl | rfl | rfl := h.state <;> decide
  unfold servedTrans
  simp only [INIT_2_INIT, INIT_2_PREOP, PREOP_2_INIT, PREOP_2_PREOP, PREOP_2_SAFEOP, BOOT_2_INIT, SAFEOP_2_INIT,
    SAFEOP_2_PREOP, SAFEOP_2_SAFEOP, SAFEOP_2_OP, OP_2_INIT, OP_2_PREOP, OP_2_SAFEOP, OP_2_OP, List.mem_cons,
    List.not_mem_nil, or_false, not_or]
  omega

/-- Where process data are exchanged, the sync manager of the outputs may be enabled. -/
theorem sameState_cases (h : Clean p s) (ack : Bool) (t : ℕ) :
    (sameState ack t s).1 = NOERROR_NOSTATECHANGE ∧ Frame s (sameState ack t s).2 ∧ InState p (sameState ack t s).2 := by
  have heq : sameState ack t s = (NOERROR_NOSTATECHANGE, { s with pdiDisabled :=
      if ¬ s.bLocalErrorFlag ∧ s.nAlStatus &&& (STATE_SAFEOP ||| STATE_OP) ≠ 0 then pdChannel enableSyncManChannel s
      else s.pdiDisabled }) := by
    cases ack <;> rfl
  rw [heq]
  refine ⟨rfl, Frame.refl, ?_⟩
  dsimp only
  split
  · rename_i hcond
    have hp : Exchanges p := by
      have hbits := hcond.2
      rw [h.status] at hbits
      obtain rfl | rfl | rfl | rfl := h.state
      · exact absurd rfl hbits
      · exact absurd rfl hbits
      · exact .inl rfl
      · exact .inr rfl
    exact ⟨h.within.flags, h.within.config, h.within.channels.enable hp (h.within.config.2 hp).1⟩
  · exact h.within

theorem Served.sameState (h : Clean p s) (hs : services e ack t s = ((sameState ack t s).1, t, (sameState ack t s).2)) :
    Served e p p s (services e ack t s) := by
  obtain ⟨hresult, hframe, hin⟩ := sameState_cases h ack t
  rw [hs, hresult]
  exact .same rfl hframe hin

theorem services_init (h : Clean STATE_INIT s) (hchecked : Checked e t s) (hc : c.toNat < 16)
    (ht : t = 16 * STATE_INIT.toNat + c.toNat) : Served e STATE_INIT c s (services e ack t s) := by
  by_cases hpreop : c = STATE_PREOP
  · subst hpreop ht
    obtain ⟨hwrite, hread⟩ := hchecked.mailbox (by decide)
    obtain ⟨hframe, ⟨hresult, hin⟩ | ⟨hfailed, hin⟩⟩ := startMailbox_cases h hwrite hread
    · show Served e STATE_INIT STATE_PREOP s ((startMailbox e s).1, INIT_2_PREOP, (startMailbox e s).2)
      rw [hresult]
      exact .done (by decide) hframe hin fun hsafe => absurd hsafe (by decide)
    · exact .refused (by decide) hfailed hframe hin
  by_cases hinit : c = STATE_INIT
  · subst hinit ht
    have hback : Clean STATE_INIT (backToInitTransition s) :=
      ⟨h.status, h.state, ⟨h.within.flags, h.within.config, h.within.channels⟩, h.code⟩
    obtain ⟨hresult, hframe, hin⟩ := sameState_cases hback ack INIT_2_INIT
    show Served e STATE_INIT STATE_INIT s ((sameState ack INIT_2_INIT (backToInitTransition s)).1, INIT_2_INIT,
      (sameState ack INIT_2_INIT (backToInitTransition s)).2)
    rw [hresult]
    exact .same rfl hframe hin
  by_cases hother : c = STATE_SAFEOP ∨ c = STATE_OP
  · subst ht
    obtain rfl | rfl := hother
    · exact .refuse h (by decide) (by decide)
    · exact .refuse h (by decide) (by decide)
  · exact .refuseOther h (fun hstate => by unfold IsState at hstate; tauto) hc ht

theorem services_preop (h : Clean STATE_PREOP s) (hchecked : Checked e t s) (hc : c.toNat < 16)
    (ht : t = 16 * STATE_PREOP.toNat + c.toNat) : Served e STATE_PREOP c s (services e ack t s) := by
  by_cases hsafeop : c = STATE_SAFEOP
  · subst hsafeop ht
    obtain ⟨⟨hframe, hcase⟩, htaken⟩ := startInput_cases h hchecked
    show Served e STATE_PREOP STATE_SAFEOP s ((startInput e s).1, PREOP_2_SAFEOP, (startInput e s).2)
    obtain ⟨hresult, hin⟩ | ⟨hfailed, hin⟩ := hcase
    · have htaken' := htaken hresult
      rw [hresult]
      exact .done (by decide) hframe hin fun _ _ => htaken'
    · exact .refused (by decide) hfailed hframe hin
  by_cases hinit : c = STATE_INIT
  · subst hinit ht
    have hin := h.within.stopMailbox
    exact .done (by decide) Frame.refl ⟨hin.flags, hin.config, hin.channels⟩ fun hsafe => absurd hsafe (by decide)
  by_cases hpreop : c = STATE_PREOP
  · subst hpreop ht
    exact .sameState h rfl
  by_cases hop : c = STATE_OP
  · subst hop ht
    exact .refuse h (by decide) (by decide)
  · exact .refuseOther h (fun hstate => by unfold IsState at hstate; tauto) hc ht

theorem services_safeop (h : Clean STATE_SAFEOP s) (hc : c.toNat < 16) (ht : t = 16 * STATE_SAFEOP.toNat + c.toNat) :
    Served e STATE_SAFEOP c s (services e ack t s) := by
  have hstop := h.within.stopInput
  by_cases hop : c = STATE_OP
  · subst hop ht
    obtain ⟨hframe, hin, ⟨hresult, hpending, hpll⟩ | hfailed⟩ := startOutput_cases h
    · show Served e STATE_SAFEOP STATE_OP s ((startOutput s).1, SAFEOP_2_OP, (startOutput s).2)
      rw [hresult]
      exact .inWork rfl rfl hframe hin hpending hpll
    · exact .refused (by decide) hfailed hframe hin
  by_cases hinit : c = STATE_INIT
  · subst hinit ht
    have hin := hstop.stopMailbox
    exact .done (by decide) Frame.refl ⟨hin.flags, hin.config, hin.channels⟩ fun hsafe => absurd hsafe (by decide)
  by_cases hpreop : c = STATE_PREOP
  · subst hpreop ht
    exact .done (by decide) Frame.refl ⟨hstop.flags, hstop.config, hstop.channels⟩ fun hsafe => absurd hsafe (by decide)
  by_cases hsafeop : c = STATE_SAFEOP
  · subst hsafeop ht
    exact .sameState h rfl
  · exact .refuseOther h (fun hstate => by unfold IsState at hstate; tauto) hc ht

theorem services_op (h : Clean STATE_OP s) (hc : c.toNat < 16) (ht : t = 16 * STATE_OP.toNat + c.toNat) :
    Served e STATE_OP c s (services e ack t s) := by
  have hstop := h.within.stopOutput
  by_cases hinit : c = STATE_INIT
  · subst hinit ht
    have hin := hstop.stopInput.stopMailbox
    exact .done (by decide) Frame.refl ⟨hin.flags, hin.config, hin.channels⟩ fun hsafe => absurd hsafe (by decide)
  by_cases hpreop : c = STATE_PREOP
  · subst hpreop ht
    have hin := hstop.stopInput
    exact .done (by decide) Frame.refl ⟨hin.flags, hin.config, hin.channels⟩ fun hsafe => absurd hsafe (by decide)
  by_cases hsafeop : c = STATE_SAFEOP
  · subst hsafeop ht
    exact .done (by decide) Frame.refl ⟨hstop.flags, hstop.config, hstop.channels⟩ fun _ hp => absurd hp (by decide)
  by_cases hop : c = STATE_OP
  · subst hop ht
    exact .sameState h rfl
  · exact .refuseOther h (fun hstate => by unfold IsState at hstate; tauto) hc ht

theorem services_cases (h : Clean p s) (hchecked : Checked e t s) (hc : c.toNat < 16)
    (ht : t = 16 * p.toNat + c.toNat) : Served e p c s (services e ack t s) := by
  obtain rfl | rfl | rfl | rfl := h.state
  · exact services_init h hchecked hc ht
  · exact services_preop h hchecked hc ht
  · exact services_safeop h hc ht
  · exact services_op h hc ht

/-! ### The end of a request -/

/-- The slave shows the state `n`, with the error flag or without it, and waits for nothing. -/
structure Settled (n : UInt8) (err : Bool) (s : Esm) : Prop where
  status : s.nAlStatus = if err then n ||| STATE_CHANGE else n
  register : s.alStatus = s.nAlStatus.toUInt16
  waiting : s.bEcatWaitForAlControlRes = false
  state : IsState n
  op : n = STATE_OP → err = false
  within : InState n s

/-- The transition from SAFEOP to OP is in work; the application is not asked to complete it. -/
structure Waiting (s : Esm) : Prop where
  status : s.nAlStatus = STATE_SAFEOP
  waits : s.bEcatWaitForAlControlRes = true
  pending : s.bApplEsmPending = true
  trans : s.nEcatStateTrans.toNat = SAFEOP_2_OP
  time : 0 ≤ s.esmTimeoutCounter ∧ s.esmTimeoutCounter ≤ SAFEOP2OPTIMEOUT - 50
  within : InState STATE_SAFEOP s

/-- The AL status code after one is written; 0xFFFF stands for none. -/
def codeWritten (old new : UInt16) : UInt16 := if new ≠ 0xFFFF then new else old

theorem InState.setAlStatus (h : InState n s) (st : UInt8) (code : UInt16) (b : Bool) :
    InState n (setAlStatus st code { s with bEcatWaitForAlControlRes := b }) := ⟨h.flags, h.config, h.channels⟩

theorem IsState.masked (h : IsState p) : p &&& STATE_MASK = p := by
  obtain rfl | rfl | rfl | rfl := h <;> decide

theorem Moves.ne (h : Moves p c) : c ≠ p := by
  rintro rfl
  obtain ⟨hp, hc⟩ | ⟨hp, hc⟩ | ⟨-, hlt⟩ := h
  · exact absurd (hp.symm.trans hc) (by decide)
  · exact absurd (hp.symm.trans hc) (by decide)
  · exact absurd hlt (UInt8.lt_irrefl c)

theorem Moves.state (h : Moves p c) : IsState c := by
  obtain ⟨-, rfl⟩ | ⟨-, rfl⟩ | ⟨hc, -⟩ := h
  · exact .inr (.inl rfl)
  · exact .inr (.inr (.inl rfl))
  · exact hc

theorem Moves.ne_op (h : Moves p c) (hp : IsState p) : c ≠ STATE_OP := by
  rintro rfl
  obtain ⟨-, hc⟩ | ⟨-, hc⟩ | ⟨-, hlt⟩ := h
  · exact absurd hc (by decide)
  · exact absurd hc (by decide)
  · obtain rfl | rfl | rfl | rfl := hp <;> exact absurd hlt (by decide)

theorem leaveOp_frame (s : Esm) : Frame s (leaveOp s) := by
  unfold leaveOp
  dsimp only
  split <;> exact Frame.refl

/-- Outside OP no handler is stopped at the end of a request. -/
theorem InState.leave (h : InState p s) (hop : p ≠ STATE_OP) (b : Prop) [Decidable b] :
    InState p (if b then Ecat.leaveOp s else s) ∧ Frame s (if b then Ecat.leaveOp s else s) := by
  split
  · have hleave := h.leaveOp
    rw [if_neg hop] at hleave
    exact ⟨hleave, leaveOp_frame s⟩
  · exact ⟨h, Frame.refl⟩

theorem conclude_done (h : InState c s) (hs : s.nAlStatus = p) (hp : IsState p) (hmove : Moves p c) :
    Settled c (decide (code ≠ 0)) (conclude c code 0 t s) ∧
      (conclude c code 0 t s).alStatusCode = codeWritten s.alStatusCode code := by
  have hcp : c ≠ s.nAlStatus &&& STATE_MASK := by rw [hs, hp.masked]; exact hmove.ne
  have hop := hmove.ne_op hp
  obtain ⟨hleave, hframe⟩ := h.leave hop (((0 : UInt16) ≠ 0 ∨ code ≠ 0) ∧ (c ||| s.nAlStatus) &&& STATE_OP ≠ 0)
  unfold conclude
  rw [if_neg (by decide), if_pos hcp]
  dsimp only
  generalize (if ((0 : UInt16) ≠ 0 ∨ code ≠ 0) ∧ (c ||| s.nAlStatus) &&& STATE_OP ≠ 0 then leaveOp s else s) = s₁
    at hleave hframe ⊢
  rw [if_neg (by simp), ← hframe.2.2.1]
  split
  · rename_i hcode
    rw [decide_eq_true hcode]
    exact ⟨⟨rfl, rfl, rfl, hmove.state, fun h => absurd h hop, hleave.setAlStatus _ _ _⟩, rfl⟩
  · rename_i hcode
    rw [decide_eq_false hcode, not_not.1 hcode]
    exact ⟨⟨rfl, rfl, rfl, hmove.state, fun h => absurd h hop, hleave.setAlStatus _ _ _⟩, rfl⟩

theorem conclude_same (h : InState p s) (hs : s.nAlStatus = p) (hp : IsState p) (hresult : result ≠ NOERROR_INWORK) :
    Settled p false (conclude p code result t s) ∧ (conclude p code result t s).alStatusCode = 0 := by
  unfold conclude
  rw [if_neg hresult, if_neg (by rw [hs, hp.masked]; exact not_not.2 rfl)]
  exact ⟨⟨hs, rfl, rfl, hp, fun _ => rfl, h.setAlStatus _ _ _⟩, rfl⟩

theorem or_op_and_op (c : UInt8) : (c ||| STATE_OP) &&& STATE_OP ≠ 0 := by
  have h : (c ||| STATE_OP) &&& STATE_OP = STATE_OP := by
    apply UInt8.toBitVec_inj.1
    ext i hi
    rw [UInt8.toBitVec_and, UInt8.toBitVec_or, BitVec.getElem_and, BitVec.getElem_or]
    cases STATE_OP.toBitVec[i] <;> simp
  rw [h]
  decide

theorem conclude_refused (h : InState p s) (hs : s.nAlStatus = p) (hp : IsState p) (hcp : c ≠ p)
    (hresult : Failed result) :
    Settled (if p = STATE_OP then STATE_SAFEOP else p) true (conclude c code result t s) ∧
      (conclude c code result t s).alStatusCode = codeWritten s.alStatusCode result := by
  have hne : c ≠ s.nAlStatus &&& STATE_MASK := by rw [hs, hp.masked]; exact hcp
  unfold conclude
  rw [if_neg hresult.2, if_pos hne]
  dsimp only
  rw [if_pos hresult.1]
  by_cases hop : p = STATE_OP
  · subst hop
    have hleave := h.leaveOp
    have hframe := leaveOp_frame s
    have hcond : (result ≠ 0 ∨ code ≠ 0) ∧ (c ||| s.nAlStatus) &&& STATE_OP ≠ 0 :=
      ⟨.inl hresult.1, by rw [hs]; exact or_op_and_op c⟩
    rw [if_pos rfl] at hleave
    rw [if_pos hcond, hframe.1, hs, if_pos rfl, ← hframe.2.2.1]
    exact ⟨⟨rfl, rfl, rfl, .inr (.inr (.inl rfl)), fun h => absurd h (by decide), hleave.setAlStatus _ _ _⟩, rfl⟩
  · obtain ⟨hleave, hframe⟩ := h.leave hop ((result ≠ 0 ∨ code ≠ 0) ∧ (c ||| s.nAlStatus) &&& STATE_OP ≠ 0)
    generalize (if (result ≠ 0 ∨ code ≠ 0) ∧ (c ||| s.nAlStatus) &&& STATE_OP ≠ 0 then leaveOp s else s) = s₁
      at hleave hframe ⊢
    rw [if_neg hop, hframe.1, hs, if_neg hop, ← hframe.2.2.1]
    exact ⟨⟨rfl, rfl, rfl, hp, fun h => absurd h hop, hleave.setAlStatus _ _ _⟩, rfl⟩

/-- The state to which wrong settings of the sync managers lead. -/
def fallen (p : UInt8) (result : UInt16) : UInt8 :=
  if p = STATE_INIT ∨ result = ALSTATUSCODE_INVALIDMBXCFGINPREOP.toUInt16 then STATE_INIT else STATE_PREOP

theorem backToPreop_cases (h : InState STATE_PREOP s) (result : UInt16) :
    InState (if result = ALSTATUSCODE_INVALIDMBXCFGINPREOP.toUInt16 then STATE_INIT else STATE_PREOP)
        (backToPreop result s) ∧
      (backToPreop result s).nAlStatus =
        if result = ALSTATUSCODE_INVALIDMBXCFGINPREOP.toUInt16 then STATE_INIT else STATE_PREOP := by
  unfold backToPreop
  split
  · have hin := h.stopMailbox
    exact ⟨⟨hin.flags, hin.config, hin.channels⟩, rfl⟩
  · exact ⟨⟨h.flags, h.config, h.channels⟩, rfl⟩

theorem fallBack_cases (h : InState p s) (hs : s.nAlStatus = p) (hp : IsState p) (result : UInt16) :
    InState (fallen p result) (fallBack result s) ∧ (fallBack result s).nAlStatus = fallen p result := by
  have hfallen : p ≠ STATE_INIT → fallen p result =
      if result = ALSTATUSCODE_INVALIDMBXCFGINPREOP.toUInt16 then STATE_INIT else STATE_PREOP := fun hne => by
    unfold fallen
    simp only [hne, false_or]
  unfold fallBack
  rw [hs]
  obtain rfl | rfl | rfl | rfl := hp
  · exact ⟨h, hs⟩
  · rw [hfallen (by decide)]
    exact backToPreop_cases h result
  · rw [hfallen (by decide)]
    exact backToPreop_cases h.stopInput result
  · rw [hfallen (by decide)]
    exact backToPreop_cases h.stopOutput.stopInput result

/-! ### A request -/

/-- What no request changes. -/
def LocalFrame (s s' : Esm) : Prop :=
  s'.bLocalErrorFlag = s.bLocalErrorFlag ∧ s'.u16LocalErrorCode = s.u16LocalErrorCode ∧ s'.nMaxSyncMan = s.nMaxSyncMan

/-- What can become of a request of the state `c` in the state `p`. -/
inductive Outcome (e : Regs) (p c : UInt8) (code : UInt16) (s : Esm) : Esm → Prop
  | moved {s' : Esm} : Moves p c → Settled c (decide (code ≠ 0)) s' →
      s'.alStatusCode = codeWritten s.alStatusCode code → (c = STATE_SAFEOP → p = STATE_PREOP → AreasTaken e s') →
      Outcome e p c code s s'
  | same {s' : Esm} : c = p → Settled p false s' → s'.alStatusCode = 0 → Outcome e p c code s s'
  | refused {r : UInt16} {s' : Esm} : c ≠ p → Failed r → Settled (if p = STATE_OP then STATE_SAFEOP else p) true s' →
      s'.alStatusCode = codeWritten s.alStatusCode r → Outcome e p c code s s'
  | lowered {r : UInt16} {s' : Esm} : SmError r → Settled (fallen p r) (decide (c ≠ fallen p r)) s' →
      s'.alStatusCode = (if c = fallen p r then 0 else r) → Outcome e p c code s s'
  | pending {s' : Esm} : p = STATE_SAFEOP → c = STATE_OP → Waiting s' → s'.alStatus = s.alStatus →
      s'.alStatusCode = s.alStatusCode → PllStarted s s' → Outcome e p c code s s'

/-- What is kept by the three things that the end of a request can do. -/
theorem conclude_keeps {P : Esm → Prop} (hleave : ∀ s, P s → P (leaveOp s))
    (hset : ∀ n code s, P s → P (setAlStatus n code { s with bEcatWaitForAlControlRes := false }))
    (hwait : ∀ s n k, P s → P { s with bEcatWaitForAlControlRes := true, nEcatStateTrans := n, esmTimeoutCounter := k })
    (h : P s) : P (conclude c code result t s) := by
  have hif : P (if (result ≠ 0 ∨ code ≠ 0) ∧ (c ||| s.nAlStatus) &&& STATE_OP ≠ 0 then leaveOp s else s) := by
    split
    · exact hleave s h
    · exact h
  unfold conclude
  split
  · exact hwait s _ _ h
  split
  · dsimp only
    generalize (if (result ≠ 0 ∨ code ≠ 0) ∧ (c ||| s.nAlStatus) &&& STATE_OP ≠ 0 then leaveOp s else s) = s₁ at hif ⊢
    by_cases hresult : result ≠ 0
    · rw [if_pos hresult]
      exact hset _ _ s₁ hif
    rw [if_neg hresult]
    by_cases hcode : code ≠ 0
    · rw [if_pos hcode]
      exact hset _ _ s₁ hif
    · rw [if_neg hcode]
      exact hset _ _ s₁ hif
  · exact hset _ _ s h

theorem AreasTaken.conclude (h : AreasTaken e s) : AreasTaken e (conclude c code result t s) := by
  refine conclude_keeps (fun s h => ?_) (fun _ _ _ h => h) (fun _ _ _ h => h) h
  unfold leaveOp
  dsimp only
  split <;> exact h

theorem conclude_localFrame (c : UInt8) (code result : UInt16) (t : ℕ) (s : Esm) :
    LocalFrame s (conclude c code result t s) :=
  conclude_keeps (fun s' h => by
    obtain ⟨-, -, -, hflag, hcode, hmax⟩ := leaveOp_frame s'
    exact ⟨hflag.trans h.1, hcode.trans h.2.1, hmax.trans h.2.2⟩) (fun _ _ _ h => h) (fun _ _ _ h => h) ⟨rfl, rfl, rfl⟩

theorem fallBack_localFrame (result : UInt16) (s : Esm) : LocalFrame s (fallBack result s) := by
  unfold fallBack backToPreop
  split
  · split <;> exact ⟨rfl, rfl, rfl⟩
  split
  · split <;> exact ⟨rfl, rfl, rfl⟩
  split
  · split <;> exact ⟨rfl, rfl, rfl⟩
  · exact ⟨rfl, rfl, rfl⟩

theorem fallBack_conclude_localFrame (c : UInt8) (code result : UInt16) (t : ℕ) (s : Esm) :
    LocalFrame s (conclude c code result t (fallBack result s)) := by
  obtain ⟨hflag, hcode, hmax⟩ := fallBack_localFrame result s
  obtain ⟨hflag', hcode', hmax'⟩ := conclude_localFrame c code result t (fallBack result s)
  exact ⟨hflag'.trans hflag, hcode'.trans hcode, hmax'.trans hmax⟩

theorem LocalFrame.trans {s'' : Esm} (h : LocalFrame s s') (h' : LocalFrame s' s'') : LocalFrame s s'' :=
  ⟨h'.1.trans h.1, h'.2.1.trans h.2.1, h'.2.2.trans h.2.2⟩

theorem Frame.localFrame (h : Frame s s') : LocalFrame s s' := ⟨h.2.2.2.1, h.2.2.2.2.1, h.2.2.2.2.2⟩

theorem Served.localFrame {out : UInt16 × ℕ × Esm} (h : Served e p c s out) : LocalFrame s out.2.2 := by
  cases h with
  | done _ hframe _ _ => exact hframe.localFrame
  | same _ hframe _ => exact hframe.localFrame
  | inWork _ _ hframe _ _ _ => exact hframe.localFrame
  | refused _ _ hframe _ => exact hframe.localFrame

/-- The end of a request that has passed the checks. -/
theorem Served.conclude {out : UInt16 × ℕ × Esm} (h : Served e p c s out) (hs : Clean p s)
    (hpending : s.bApplEsmPending = true) : Outcome e p c code s (conclude c code out.1 out.2.1 out.2.2) := by
  cases h with
  | done hmove hframe hin htaken =>
    obtain ⟨hsettled, hcode⟩ := conclude_done hin (hframe.1.trans hs.status) hs.state hmove
    rw [hframe.2.2.1] at hcode
    exact .moved hmove hsettled hcode fun hsafe hpre => (htaken hsafe hpre).conclude
  | same hcp hframe hin =>
    subst hcp
    have hresult : NOERROR_NOSTATECHANGE ≠ NOERROR_INWORK := by decide
    obtain ⟨hsettled, hcode⟩ := conclude_same hin (hframe.1.trans hs.status) hs.state hresult
    exact .same rfl hsettled hcode
  | @inWork s' hp hc hframe hin hpend hpll =>
    subst hp hc
    have heq : Ecat.conclude STATE_OP code NOERROR_INWORK SAFEOP_2_OP s' = { s' with
      bEcatWaitForAlControlRes := true
      nEcatStateTrans := .ofNat SAFEOP_2_OP
      esmTimeoutCounter := timeout SAFEOP_2_OP - 50 } := if_pos rfl
    have htime : 0 ≤ timeout SAFEOP_2_OP - 50 ∧ timeout SAFEOP_2_OP - 50 ≤ SAFEOP2OPTIMEOUT - 50 := by decide
    rw [heq]
    exact .pending rfl rfl ⟨hframe.1.trans hs.status, rfl, hpend.trans hpending, rfl, htime,
      ⟨hin.flags, hin.config, hin.channels⟩⟩ hframe.2.1 hframe.2.2.1 hpll
  | refused hcp hfailed hframe hin =>
    obtain ⟨hsettled, hcode⟩ := conclude_refused hin (hframe.1.trans hs.status) hs.state hcp hfailed
    rw [hframe.2.2.1] at hcode
    exact .refused hcp hfailed hsettled hcode

theorem stateTrans_eq (hp : IsState p) (hc : c.toNat < 16) : (p <<< 4 + c).toNat = 16 * p.toNat + c.toNat := by
  have hp' : (p <<< 4).toNat = 16 * p.toNat ∧ p.toNat ≤ 8 := by
    obtain rfl | rfl | rfl | rfl := hp <;> decide
  rw [UInt8.toNat_add, hp'.1]
  omega

/-- The checks of the sync managers leave the slave in its state. -/
theorem Clean.settings (h : Clean p s) (i o : UInt16) (b w : Bool) (hc : c.toNat < 16)
    (hsizes : 16 * p.toNat + c.toNat ≠ PREOP_2_SAFEOP → i = s.nPdInputSize ∧ o = s.nPdOutputSize) :
    Clean p { s with nPdInputSize := i, nPdOutputSize := o, b3BufferMode := b, bWdTrigger := w } := by
  refine ⟨h.status, h.state, ⟨h.within.flags, ⟨h.within.config.1, fun hex => ?_⟩, h.within.channels⟩, h.code⟩
  have hp : 64 ≤ 16 * p.toNat := by
    obtain rfl | rfl := hex
    · exact Nat.le_refl 64
    · decide
  have hne : 16 * p.toNat + c.toNat ≠ PREOP_2_SAFEOP := fun heq => by
    have hlt : PREOP_2_SAFEOP < 64 := by decide
    omega
  obtain ⟨rfl, rfl⟩ := hsizes hne
  exact h.within.config.2 hex

/-- The transition that was stored last makes no difference. -/
theorem Clean.trans (h : Clean p s) (t : UInt16) : Clean p { s with nEcatStateTrans := t } :=
  ⟨h.status, h.state, ⟨h.within.flags, h.within.config, h.within.channels⟩, h.code⟩

theorem Checked.trans (h : Checked e t s) (t' : UInt16) : Checked e t { s with nEcatStateTrans := t' } :=
  ⟨h.mailbox, h.data, h.sized⟩

/-- An outcome is about the registers of the state before, and about its local error. -/
theorem Outcome.of_registers {s₁ : Esm} (h : Outcome e p c code s₁ s') (hstatus : s₁.alStatus = s.alStatus)
    (hcode : s₁.alStatusCode = s.alStatusCode)
    (hlocal : c = STATE_OP → s₁.u16LocalErrorCode = s.u16LocalErrorCode) : Outcome e p c code s s' := by
  cases h with
  | moved hmove hsettled hwritten htaken => exact .moved hmove hsettled (hcode ▸ hwritten) htaken
  | same hcp hsettled hwritten => exact .same hcp hsettled hwritten
  | refused hcp hfailed hsettled hwritten => exact .refused hcp hfailed hsettled (hcode ▸ hwritten)
  | lowered hr hsettled hwritten => exact .lowered hr hsettled hwritten
  | pending hp hc hwaiting hstatus' hcode' hpll =>
    exact .pending hp hc hwaiting (hstatus'.trans hstatus) (hcode'.trans hcode) fun hne => hpll (hlocal hc ▸ hne)

theorem fallen_cases (p : UInt8) (result : UInt16) : fallen p result = STATE_INIT ∨ fallen p result = STATE_PREOP := by
  unfold fallen
  split
  · exact .inl rfl
  · exact .inr rfl

theorem SmError.written (h : SmError result) (old : UInt16) : codeWritten old result = result := by
  unfold SmError at h
  fin_cases h <;> rfl

/-- The end of a request that has not passed them. -/
theorem SmError.settled (hr : SmError result) (h : Clean p s) :
    Settled (fallen p result) (decide (c ≠ fallen p result)) (conclude c code result t (fallBack result s)) ∧
      (conclude c code result t (fallBack result s)).alStatusCode = if c = fallen p result then 0 else result := by
  obtain ⟨hin, hstatus⟩ := fallBack_cases h.within h.status h.state result
  have hstate : IsState (fallen p result) := (fallen_cases p result).imp id .inl
  have hop : fallen p result ≠ STATE_OP := by
    obtain hfallen | hfallen := fallen_cases p result <;> rw [hfallen] <;> decide
  by_cases hc : c = fallen p result
  · subst hc
    obtain ⟨hsettled, hcode⟩ := conclude_same hin hstatus hstate hr.failed.2
    rw [if_pos rfl]
    exact ⟨by simpa using hsettled, hcode⟩
  · obtain ⟨hsettled, hcode⟩ := conclude_refused hin hstatus hstate hc hr.failed
    rw [if_neg hop] at hsettled
    rw [hr.written] at hcode
    rw [if_neg hc]
    exact ⟨by simpa [hc] using hsettled, hcode⟩

theorem request_cases (h : Clean p s) (hpending : s.bApplEsmPending = true) (hc : c.toNat < 16) :
    Outcome e p c code s (request e c code ack s) ∧ LocalFrame s (request e c code ack s) := by
  have ht : (s.nAlStatus <<< 4 + c).toNat = 16 * p.toNat + c.toNat := by rw [h.status]; exact stateTrans_eq h.state hc
  have hsm := smSettings_cases e (16 * p.toNat + c.toNat) s
  unfold request
  rw [ht]
  dsimp only
  generalize smSettings e (16 * p.toNat + c.toNat) s = out at hsm ⊢
  obtain ⟨r, s₁⟩ := out
  obtain ⟨i, o, b, w, rfl, hsizes, hresult⟩ := hsm
  have hclean := h.settings i o b w hc hsizes
  obtain ⟨herror, -⟩ | ⟨hr, hchecked⟩ := hresult
  · dsimp only at herror ⊢
    rw [if_neg herror.failed.1]
    obtain ⟨hsettled, hcode⟩ := herror.settled (c := c) hclean
    exact ⟨.lowered herror hsettled hcode, fallBack_conclude_localFrame _ _ _ _ _⟩
  · dsimp only at hr hchecked ⊢
    rw [if_pos hr]
    have hclean' := hclean.trans 0
    have hserved : Served e p c _ (services e ack (16 * p.toNat + c.toNat) _) :=
      services_cases hclean' (hchecked.trans 0) hc rfl
    exact ⟨(hserved.conclude hclean' hpending).of_registers rfl rfl fun _ => rfl,
      hserved.localFrame.trans (conclude_localFrame _ _ _ _ _)⟩

/-- The slave shows the state `n`, with the error flag or without it. -/
structure Shows (n : UInt8) (err : Bool) (s : Esm) : Prop where
  status : s.nAlStatus = if err then n ||| STATE_CHANGE else n
  state : IsState n
  within : InState n s
  code : s.bLocalErrorFlag = true → s.u16LocalErrorCode ≠ 0

/-- The error flag is set, and the request neither acknowledges it nor is one for INIT. -/
def Ignored (alControl : UInt8) (err : Bool) : Prop :=
  err = true ∧ alControl &&& STATE_CHANGE = 0 ∧ alControl &&& STATE_MASK ≠ STATE_INIT

instance (alControl : UInt8) (err : Bool) : Decidable (Ignored alControl err) := inferInstanceAs (Decidable (_ ∧ _))

theorem Shows.unmasked {err : Bool} (h : Shows n err s) :
    s.nAlStatus &&& ~~~ STATE_CHANGE = n ∧ s.nAlStatus &&& STATE_MASK = n ∧
      (s.nAlStatus &&& STATE_CHANGE ≠ 0 ↔ err = true) := by
  rw [h.status]
  obtain rfl | rfl | rfl | rfl := h.state <;> cases err <;> decide

theorem mask_lt (alControl : UInt8) : (alControl &&& STATE_MASK).toNat < 16 := by
  rw [UInt8.toNat_and]
  exact Nat.lt_of_le_of_lt Nat.and_le_right (by decide)

theorem alControlInd_ignored {err : Bool} (h : Shows n err s) {alControl : UInt8} (hignored : Ignored alControl err) :
    alControlInd e alControl code s = { s with esmTimeoutCounter := -1, bApplEsmPending := true } := by
  obtain ⟨herr, hack, hinit⟩ := hignored
  unfold alControlInd
  dsimp only
  rw [if_neg (not_not.2 hack), if_pos ⟨h.unmasked.2.2.2 herr, hinit⟩]

theorem alControlInd_cases {err : Bool} (h : Shows n err s) {alControl : UInt8} (hignored : ¬ Ignored alControl err) :
    Outcome e n (alControl &&& STATE_MASK) code s (alControlInd e alControl code s) ∧
      LocalFrame s (alControlInd e alControl code s) := by
  obtain ⟨hflag, hmask, herr⟩ := h.unmasked
  have hclean : ∀ st, st = n →
      Clean n { s with nAlStatus := st, esmTimeoutCounter := -1, bApplEsmPending := true } := fun st hst =>
    ⟨hst, h.state, ⟨h.within.flags, h.within.config, h.within.channels⟩, h.code⟩
  unfold alControlInd
  dsimp only
  split
  · obtain ⟨houtcome, hlocal⟩ := request_cases (e := e) (hclean _ hflag) rfl (mask_lt alControl)
    exact ⟨houtcome.of_registers rfl rfl fun _ => rfl, hlocal⟩
  split
  · rename_i hack hcond
    exact absurd ⟨herr.1 hcond.1, not_not.1 hack, hcond.2⟩ hignored
  · obtain ⟨houtcome, hlocal⟩ := request_cases (e := e) (hclean _ hmask) rfl (mask_lt alControl)
    exact ⟨houtcome.of_registers rfl rfl fun _ => rfl, hlocal⟩

end Ecat
end Dcs
