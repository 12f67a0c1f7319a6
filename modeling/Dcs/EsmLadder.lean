import Dcs.EsmRun

/-!
# The ladder from INIT to OP

How the state that is shown can move. It goes up by one state at a time and only when the master has asked for
it; the last step is made by `AL_ControlRes`. An error that is shown stays until it is acknowledged.
-/

namespace Dcs
namespace Ecat

variable {s s' : Esm} {a : EsmAction} {e : Regs} {c n : UInt8} {code : UInt16} {err : Bool} {as : List EsmAction}

namespace Esm

/-- The state in `nAlStatus`, and its error flag. -/
def state (s : Esm) : UInt8 := s.nAlStatus &&& STATE_MASK

def Error (s : Esm) : Prop := s.nAlStatus &&& STATE_CHANGE ≠ 0

instance (s : Esm) : Decidable s.Error := inferInstanceAs (Decidable (_ ≠ _))

end Esm

theorem Shows.state_eq (h : Shows n err s) : s.state = n := h.unmasked.2.1

theorem Shows.error_iff (h : Shows n err s) : s.Error ↔ err = true := h.unmasked.2.2

theorem Settled.unmasked (h : Settled n err s) : s.state = n ∧ (s.Error ↔ err = true) := by
  unfold Esm.state Esm.Error
  rw [h.status]
  obtain rfl | rfl | rfl | rfl := h.state <;> cases err <;> decide

theorem Waiting.unmasked (h : Waiting s) : s.state = STATE_SAFEOP ∧ ¬ s.Error := by
  unfold Esm.state Esm.Error
  rw [h.status]
  decide

theorem fallen_le (hn : IsState n) (result : UInt16) : fallen n result ≤ n := by
  unfold fallen
  obtain rfl | rfl | rfl | rfl := hn <;> split <;> first | decide | (rename_i h; exact absurd (.inl rfl) h)

/-- The master has written the state `n` into the AL control register. -/
def EsmAction.Requests (n : UInt8) : EsmAction → Prop
  | .alControl _ value => value.toUInt8 &&& STATE_MASK = n
  | _ => False

/-- A request for a state above the one that is shown is the master's. -/
theorem Asks.requests (h : Asks s a e c code) (hshows : Shows n err s) (hlt : n < c &&& STATE_MASK) :
    a.Requests (c &&& STATE_MASK) ∧ code = 0 := by
  have hmask : ∀ m : UInt8, m &&& STATE_MASK &&& STATE_MASK = m &&& STATE_MASK := fun m => by
    rw [UInt8.and_assoc]; rfl
  cases h with
  | alControl => exact ⟨rfl, rfl⟩
  | smChange _ _ =>
    rw [hmask, hshows.unmasked.2.1] at hlt
    exact absurd hlt (UInt8.lt_irrefl n)
  | smDisabled _ =>
    rw [hmask, hshows.unmasked.2.1] at hlt
    exact absurd hlt (UInt8.lt_irrefl n)
  | error hrun _ =>
    rw [hshows.within.flags.2.2.1 hrun] at hlt
    exact absurd hlt (by decide)
  | stateChange _ hless =>
    rw [hshows.unmasked.2.1] at hless
    exact absurd (UInt8.lt_trans hlt hless) (UInt8.lt_irrefl n)

/-- The state `n` lies one below the state `m` of a slave that shows no error, for a transition made at once. -/
def Rises (n m : UInt8) : Prop := n = STATE_INIT ∧ m = STATE_PREOP ∨ n = STATE_PREOP ∧ m = STATE_SAFEOP

theorem Does.state (h : Does n err s a s') (hshows : Shows n err s) :
    s'.state ≤ n ∨ Rises n s'.state ∧ a.Requests s'.state ∧ ¬ s'.Error ∨
      s'.state = STATE_OP ∧ ¬ s'.Error ∧ a = .controlRes ∧ Waiting s ∧ ReadyForOp s ∧ 0 < s.esmTimeoutCounter := by
  cases h with
  | quiet hquiet =>
    left
    unfold Esm.state
    rw [hquiet.status, hshows.unmasked.2.1]
    exact UInt8.le_refl n
  | @asked e c code _ hask _ houtcome _ =>
    cases houtcome with
    | moved hmove hsettled _ _ =>
      obtain ⟨hstate, herror⟩ := hsettled.unmasked
      rw [hstate, herror]
      obtain hrise | hrise | ⟨-, hlt⟩ := hmove
      · obtain ⟨hrequests, hcode⟩ := hask.requests hshows (by rw [hrise.1, hrise.2]; decide)
        exact .inr (.inl ⟨.inl hrise, hrequests, by rw [hcode]; decide⟩)
      · obtain ⟨hrequests, hcode⟩ := hask.requests hshows (by rw [hrise.1, hrise.2]; decide)
        exact .inr (.inl ⟨.inr hrise, hrequests, by rw [hcode]; decide⟩)
      · exact .inl (UInt8.le_of_lt hlt)
    | same hc hsettled _ =>
      rw [hsettled.unmasked.1]
      exact .inl (UInt8.le_refl n)
    | refused _ _ hsettled _ =>
      rw [hsettled.unmasked.1]
      left
      split
      · rename_i hop
        rw [hop]
        decide
      · exact UInt8.le_refl n
    | lowered _ hsettled _ =>
      rw [hsettled.unmasked.1]
      exact .inl (fallen_le hshows.state _)
    | pending hn _ hw _ _ _ =>
      rw [hw.unmasked.1, hn]
      exact .inl (UInt8.le_refl _)
  | responded ha hw hresponded _ =>
    have hn : n = STATE_SAFEOP := hshows.state_eq.symm.trans hw.unmasked.1
    cases hresponded with
    | timedOut _ hsettled _ =>
      rw [hsettled.unmasked.1, hn]
      exact .inl (UInt8.le_refl _)
    | toOp htime hready hsettled _ =>
      obtain ⟨hstate, herror⟩ := hsettled.unmasked
      have hpos : 0 < s.esmTimeoutCounter := by have := hw.time.1; omega
      exact .inr (.inr ⟨hstate, by rw [herror]; decide, ha, hw, hready, hpos⟩)
    | waits _ _ =>
      rw [hw.unmasked.1, hn]
      exact .inl (UInt8.le_refl _)

/-- The slave rises by one state, with no error shown: to PREOP or SAFEOP in the call for which the master has
written that state, and to OP in `AL_ControlRes`, before the time is over and once the slave is ready. -/
theorem rises (h : s.Reachable) (hen : s.Enabled a) (hup : s.state < (s.next a).state) :
    ¬ (s.next a).Error ∧ (Rises s.state (s.next a).state ∧ a.Requests (s.next a).state ∨
      s.state = STATE_SAFEOP ∧ (s.next a).state = STATE_OP ∧ a = .controlRes ∧ 0 < s.esmTimeoutCounter ∧ ReadyForOp s) := by
  obtain ⟨n, err, hshows⟩ := h.inv.shows
  rw [hshows.state_eq] at hup ⊢
  obtain hle | ⟨hrise, hrequests, herror⟩ | ⟨hop, herror, ha, hw, hready, htime⟩ :=
    (next_cases hshows h.inv.settled hen).state hshows
  · exact absurd (UInt8.lt_of_lt_of_le hup hle) (UInt8.lt_irrefl n)
  · exact ⟨herror, .inl ⟨hrise, hrequests⟩⟩
  · exact ⟨herror, .inr ⟨hshows.state_eq.symm.trans hw.unmasked.1, hop, ha, htime, hready⟩⟩

/-- The state before the last call of the run to OP. -/
def Esm.waited : Esm := Esm.system.run Esm.started (Esm.toWait ++ [EsmAction.outputs 0])

theorem waited_reachable : Esm.waited.Reachable := Esm.reachable_run _ (by decide)

theorem rises_waited : ¬ (Esm.waited.next .controlRes).Error ∧ ReadyForOp Esm.waited := by
  obtain ⟨herror, ⟨-, hrequests⟩ | ⟨-, -, -, -, hready⟩⟩ := rises waited_reachable (a := .controlRes) (by decide) (by decide)
  · exact hrequests.elim
  · exact ⟨herror, hready⟩

/-! ### No shortcut -/

/-- The states that the master has written, in their order. -/
def requested (as : List EsmAction) : List UInt8 :=
  as.filterMap fun
    | .alControl _ value => some (value.toUInt8 &&& STATE_MASK)
    | _ => none

/-- The requests that lead to a state. -/
def pathTo (n : UInt8) : List UInt8 := [STATE_PREOP, STATE_SAFEOP, STATE_OP].filter fun m => m ≤ n

/-- While the slave waits for OP, that has been requested, too. -/
def path (s : Esm) : List UInt8 := pathTo (if s.bEcatWaitForAlControlRes then STATE_OP else s.state)

theorem requested_append (as : List EsmAction) (a : EsmAction) : requested (as ++ [a]) = requested as ++ requested [a] :=
  List.filterMap_append ..

theorem EsmAction.Requests.requested (h : a.Requests n) : Ecat.requested [a] = [n] := by
  cases a with
  | alControl e value =>
    have hn : value.toUInt8 &&& STATE_MASK = n := h
    rw [← hn]
    rfl
  | _ => exact h.elim

theorem pathTo_sublist {m : UInt8} (h : m ≤ n) : (pathTo m).Sublist (pathTo n) :=
  List.monotone_filter_right _ fun k hk => by
    rw [decide_eq_true_eq] at hk ⊢
    exact UInt8.le_trans hk h

theorem Settled.path (h : Settled n err s) : path s = pathTo n := by
  unfold Ecat.path
  rw [h.waiting, h.unmasked.1]
  rfl

theorem Waiting.path (h : Waiting s) : path s = pathTo STATE_OP := by
  unfold Ecat.path
  rw [h.waits]
  rfl

/-- The state that is shown has been requested. -/
theorem Shows.pathTo_sublist (h : Shows n err s) (hinv : (∃ n err, Settled n err s) ∨ Waiting s) :
    (pathTo n).Sublist (path s) := by
  obtain ⟨m, err', hsettled⟩ | hw := hinv
  · rw [hsettled.path, ← h.state_eq, hsettled.unmasked.1]
  · rw [hw.path, ← h.state_eq, hw.unmasked.1]
    exact Ecat.pathTo_sublist (by decide)

theorem Rises.pathTo {m : UInt8} (h : Rises n m) : pathTo m = pathTo n ++ [m] := by
  obtain ⟨rfl, rfl⟩ | ⟨rfl, rfl⟩ := h <;> decide

/-- One step adds at most the request that was made. -/
theorem Does.path_sublist (h : Does n err s a s') (hshows : Shows n err s)
    (hinv : (∃ n err, Settled n err s) ∨ Waiting s) : (path s').Sublist (path s ++ requested [a]) := by
  have hn := hshows.pathTo_sublist hinv
  have hsettled : ∀ {m err'}, Settled m err' s' → (path s').Sublist (path s ++ requested [a]) := fun {m err'} hs' => by
    obtain hle | ⟨hrise, hrequests, -⟩ | ⟨hop, -, -, hw, -, -⟩ := h.state hshows
    · rw [hs'.path, ← hs'.unmasked.1]
      exact ((Ecat.pathTo_sublist hle).trans hn).trans (List.sublist_append_left _ _)
    · rw [hs'.path, hrequests.requested, ← hs'.unmasked.1, hrise.pathTo]
      exact hn.append (List.Sublist.refl _)
    · rw [hs'.path, ← hs'.unmasked.1, hop, hw.path]
      exact List.sublist_append_left _ _
  cases h with
  | quiet hquiet =>
    have heq : path s' = path s := by
      unfold path Esm.state
      rw [hquiet.status, hquiet.waits]
    rw [heq]
    exact List.sublist_append_left _ _
  | asked hask _ houtcome _ =>
    cases houtcome with
    | moved _ hs _ _ => exact hsettled hs
    | same _ hs _ => exact hsettled hs
    | refused _ _ hs _ => exact hsettled hs
    | lowered _ hs _ => exact hsettled hs
    | pending hn' hc hw _ _ _ =>
      obtain ⟨hrequests, -⟩ := hask.requests hshows (by rw [hn', hc]; decide)
      have hpath : pathTo STATE_OP = pathTo n ++ [STATE_OP] := by rw [hn']; decide
      rw [hw.path, hrequests.requested, hc, hpath]
      exact hn.append (List.Sublist.refl _)
  | responded _ hw hresponded _ =>
    cases hresponded with
    | timedOut _ hs _ => exact hsettled hs
    | toOp _ _ hs _ => exact hsettled hs
    | waits _ _ => exact List.sublist_append_left _ _

/-- Whatever else is called in between, the master has requested PREOP, SAFEOP and OP in this order before the slave
gets to OP, and accordingly for the states below. -/
theorem path_requested {s₀ : Esm} (hstart : s₀.Start) (has : Esm.system.Runs (fun _ _ => True) s₀ as) :
    (path (Esm.system.run s₀ as)).Sublist (requested as) := by
  refine (has.history (I := fun as s => Inv s ∧ (path s).Sublist (requested as)) ?_ ⟨hstart.inv, ?_⟩).2
  · rintro as s a ⟨hinv, hpath⟩ hen -
    obtain ⟨n, err, hshows⟩ := hinv.shows
    refine ⟨hinv.next hen, ?_⟩
    rw [requested_append]
    exact ((next_cases hshows hinv.settled hen).path_sublist hshows hinv.settled).trans
      (hpath.append (List.Sublist.refl _))
  · have hpath : path s₀ = [] := by
      unfold path Esm.state
      rw [hstart.pending.2.1, hstart.status]
      decide
    rw [hpath]
    exact List.nil_sublist _

theorem path_requested_toOp : [STATE_PREOP, STATE_SAFEOP, STATE_OP].Sublist (requested Esm.toOp) :=
  path_requested Esm.started_start (by decide : Esm.system.Runs (fun _ _ => True) Esm.started Esm.toOp)

/-! ### The error flag -/

/-- The master or the application acknowledges the error, or asks for INIT. -/
def Clears (alControl : UInt8) : Prop := alControl &&& STATE_CHANGE ≠ 0 ∨ alControl &&& STATE_MASK = STATE_INIT

instance (alControl : UInt8) : Decidable (Clears alControl) := inferInstanceAs (Decidable (_ ∨ _))

def EsmAction.Clears : EsmAction → Prop
  | .alControl _ value => Ecat.Clears value.toUInt8
  | .stateChange _ alStatus _ => Ecat.Clears alStatus
  | _ => False

instance : ∀ a : EsmAction, Decidable a.Clears
  | .alControl _ value => inferInstanceAs (Decidable (Ecat.Clears value.toUInt8))
  | .stateChange _ alStatus _ => inferInstanceAs (Decidable (Ecat.Clears alStatus))
  | .smChange _ | .smDisabled _ | .controlRes | .timer | .checkError _ | .outputs _ | .sync0 _ | .sync1
  | .write _ _ _ _ => inferInstanceAs (Decidable False)

theorem Ignored.of_not_clears (hclears : ¬ Clears c) : Ignored c true := by
  unfold Clears at hclears
  rw [not_or, not_not] at hclears
  exact ⟨rfl, hclears⟩

/-- While an error is shown, a request that is not ignored clears it. -/
theorem Asks.clears (h : Asks s a e c code) (hshows : Shows n true s) (hsettled : Settled n true s)
    (hignored : ¬ Ignored c true) : a.Clears := by
  have hclears : Clears c := by_contra fun hc => hignored (.of_not_clears hc)
  cases h with
  | alControl => exact hclears
  | smChange hchange _ => exact absurd hchange (hshows.unmasked.2.2.2 rfl)
  | smDisabled hrun =>
    have hinit : n ≠ STATE_INIT := hshows.within.flags.1.1 hrun
    rw [hshows.unmasked.2.1] at hclears
    obtain rfl | rfl | rfl | rfl := hshows.state
    · exact absurd rfl hinit
    all_goals exact absurd hclears (by decide)
  | error hrun _ => exact absurd (hsettled.op (hshows.within.flags.2.2.1 hrun)) (by decide)
  | stateChange _ _ => exact hclears

/-- An error that is shown stays, with the state and the code that go with it, as long as it is neither acknowledged
nor INIT is requested, whatever else is called. -/
theorem error_latched (h : s.Reachable) (herror : s.Error)
    (has : Esm.system.Runs (fun _ a => ¬ a.Clears) s as) :
    (Esm.system.run s as).nAlStatus = s.nAlStatus ∧ (Esm.system.run s as).alStatus = s.alStatus ∧
      (Esm.system.run s as).alStatusCode = s.alStatusCode := by
  refine (has.invariant (I := fun s' => Inv s' ∧ s'.nAlStatus = s.nAlStatus ∧ s'.alStatus = s.alStatus ∧
    s'.alStatusCode = s.alStatusCode) ?_ ⟨h.inv, rfl, rfl, rfl⟩).2
  rintro s' a ⟨hinv, hstatus, hregister, hcode⟩ hen hclears
  have herror' : s'.Error := by
    unfold Esm.Error
    rw [hstatus]
    exact herror
  obtain ⟨n, err, hsettled⟩ | hw := hinv.settled
  · obtain rfl : err = true := hsettled.unmasked.2.1 herror'
    have hshows : Shows n true s' := ⟨hsettled.status, hsettled.state, hsettled.within, hinv.code⟩
    refine ⟨hinv.next hen, ?_⟩
    show (Esm.next s' a).nAlStatus = _ ∧ (Esm.next s' a).alStatus = _ ∧ (Esm.next s' a).alStatusCode = _
    cases next_cases hshows hinv.settled hen with
    | quiet hquiet =>
      exact ⟨hquiet.status.trans hstatus, hquiet.register.1.trans hregister, hquiet.register.2.trans hcode⟩
    | asked hask hignored _ _ => exact absurd (hask.clears hshows hsettled hignored) hclears
    | responded _ hw _ _ => exact absurd herror' hw.unmasked.2
  · exact absurd herror' hw.unmasked.2

/-- PREOP is requested in INIT with sync managers of odd length, and then in vain again. -/
def Esm.badRegs : Regs := { Esm.regs with syncMan := fun _ => ⟨0x1000, 0x81, 0x26, 1⟩ }

def Esm.refused : List EsmAction := [.alControl Esm.badRegs 2]

theorem error_latched_refused : (Esm.system.run (Esm.system.run Esm.started Esm.refused)
    [.alControl Esm.regs 2, .timer, .checkError Esm.regs, .alControl Esm.regs 4]).alStatusCode =
      (Esm.system.run Esm.started Esm.refused).alStatusCode :=
  (error_latched (Esm.reachable_run Esm.refused (by decide)) (by decide) (by decide)).2.2

end Ecat
end Dcs
