import Dcs.Lib.Lts
import Mathlib.Data.List.Chain

/-!
# Redelivery

A sender puts messages into a box, one at a time, and keeps the one that was taken out last. What is
taken out can get lost on the way; then the receiver asks for it again before it takes the next one, and
the kept message is put in front of whatever the box holds. The receiver may also ask although nothing was
lost. It tells a message it knows already from a new one by a key alone, so two messages that are sent one
after the other must have different keys, and nothing more than that.

`reach_in_order` and `reach_complete` are what this is for: whatever gets lost, the receiver keeps a prefix
of what was sent, and all of it once the box is empty and no repetition is owed.
-/

namespace Redelivery

structure State (α : Type*) where
  sent : List α
  box : List α
  last : Option α
  received : List α
  owed : Bool

inductive Action (α : Type*)
  | send (m : α)
  | take (arrives : Bool)
  | doubt
  | again

variable {α κ : Type*} (key : α → κ)

/-- What the receiver makes of a message that arrives. -/
def keep [DecidableEq κ] (received : List α) (m : α) : List α :=
  if received.getLast?.map key = some (key m) then received else received ++ [m]

/-- The kept message goes in front, unless the box has a repeated one already with another behind it. -/
def repeated (box : List α) : Option α → List α
  | some l => if box.length ≤ 1 then l :: box else box
  | none => box

def next [DecidableEq κ] (s : State α) : Action α → State α
  | .send m => { s with sent := s.sent ++ [m], box := [m] }
  | .take arrives =>
    match s.box with
    | [] => s
    | m :: box => { s with
        box, last := some m
        received := if arrives then keep key s.received m else s.received
        owed := !arrives }
  | .doubt => { s with owed := true }
  | .again => { s with box := repeated s.box s.last, owed := false }

def Enabled (s : State α) : Action α → Prop
  | .send m => s.box = [] ∧ s.sent.getLast?.map key ≠ some (key m)
  | .take _ => s.box ≠ [] ∧ s.owed = false
  | .doubt => True
  | .again => True

def system [DecidableEq κ] : Lts.System (State α) (Action α) where
  Init s := s = ⟨[], [], none, [], false⟩
  Enabled := Enabled key
  next := next key

/-- `taken` was taken out at least once, `fresh` never, and the box holds repetitions in front of it. -/
structure Split (s : State α) (taken reps fresh : List α) : Prop where
  sent_eq : s.sent = taken ++ fresh
  box_eq : s.box = reps ++ fresh
  last_eq : s.last = taken.getLast?
  reps_eq : ∀ r ∈ reps, taken.getLast? = some r
  fresh_le : fresh.length ≤ 1
  received_eq : s.received = taken ∨
    ∃ m, taken = s.received ++ [m] ∧ (s.owed = true ∨ reps ≠ [])

structure Ok (s : State α) : Prop where
  keys : s.sent.IsChain fun a b => key a ≠ key b
  split : ∃ taken reps fresh, Split s taken reps fresh

variable {key} {s : State α}

namespace Ok

theorem init : Ok key (⟨[], [], none, [], false⟩ : State α) :=
  ⟨.nil, [], [], [], ⟨rfl, rfl, rfl, by simp, by simp, .inl rfl⟩⟩

theorem received_initial (h : Ok key s) : s.received <+: s.sent := by
  obtain ⟨-, taken, reps, fresh, hs⟩ := h
  rcases hs.received_eq with hrec | ⟨m, hm, -⟩
  · exact ⟨fresh, by rw [hs.sent_eq, hrec]⟩
  · exact ⟨[m] ++ fresh, by rw [hs.sent_eq, hm, List.append_assoc]⟩

theorem sent_length (h : Ok key s) : s.sent.length ≤ s.received.length + 2 := by
  obtain ⟨-, taken, reps, fresh, hs⟩ := h
  have hfresh := hs.fresh_le
  rcases hs.received_eq with hrec | ⟨m, hm, -⟩
  · rw [hs.sent_eq, hrec, List.length_append]; omega
  · rw [hs.sent_eq, hm, List.length_append, List.length_append, List.length_singleton]; omega

theorem complete (h : Ok key s) (hbox : s.box = []) (howed : s.owed = false) : s.received = s.sent := by
  obtain ⟨-, taken, reps, fresh, hs⟩ := h
  obtain ⟨rfl, rfl⟩ : reps = [] ∧ fresh = [] := List.append_eq_nil_iff.1 (hs.box_eq.symm.trans hbox)
  rcases hs.received_eq with hrec | ⟨m, -, h | h⟩
  · rw [hs.sent_eq, hrec, List.append_nil]
  · rw [howed] at h; cases h
  · exact absurd rfl h

end Ok

variable [DecidableEq κ]

theorem keep_last {l : List α} {m : α} (h : l.getLast? = some m) : keep key l m = l := by
  simp [keep, h]

theorem keep_new {l : List α} {m : α} (h : (l ++ [m]).IsChain fun a b => key a ≠ key b) :
    keep key l m = l ++ [m] := by
  unfold keep
  refine if_neg fun hlast => ?_
  obtain ⟨a, ha, hkey⟩ := Option.map_eq_some_iff.1 hlast
  exact (List.isChain_append.1 h).2.2 a (Option.mem_def.2 ha) m (by simp) hkey

namespace Ok

theorem send (h : Ok key s) {m : α} (hbox : s.box = []) (hkey : s.sent.getLast?.map key ≠ some (key m)) :
    Ok key (next key s (.send m)) := by
  obtain ⟨hkeys, taken, reps, fresh, hs⟩ := h
  obtain ⟨rfl, rfl⟩ : reps = [] ∧ fresh = [] := List.append_eq_nil_iff.1 (hs.box_eq.symm.trans hbox)
  refine ⟨?_, taken, [], [m], ⟨?_, rfl, hs.last_eq, by simp, by simp, hs.received_eq⟩⟩
  · refine List.isChain_append.2 ⟨hkeys, .singleton m, fun a ha b hb hab => hkey ?_⟩
    obtain rfl : b = m := by simpa using hb.symm
    rw [Option.mem_def.1 ha, ← hab]
    rfl
  · show s.sent ++ [m] = taken ++ [m]
    rw [hs.sent_eq, List.append_nil]

theorem take (h : Ok key s) (arrives : Bool) (hbox : s.box ≠ []) (howed : s.owed = false) :
    Ok key (next key s (.take arrives)) := by
  obtain ⟨hkeys, taken, reps, fresh, hs⟩ := h
  refine ⟨?_, ?_⟩
  · have hsent : (next key s (.take arrives)).sent = s.sent := by
      unfold next; dsimp only; split <;> rfl
    rwa [hsent]
  cases reps with
  | cons r reps =>
    -- a repetition is taken: it is the last of `taken` again
    have hr : taken.getLast? = some r := hs.reps_eq r (by simp)
    have hnext : next key s (.take arrives) = { s with
        box := reps ++ fresh, last := some r
        received := if arrives then keep key s.received r else s.received, owed := !arrives } := by
      have hb : s.box = r :: (reps ++ fresh) := hs.box_eq
      simp only [next, hb]
    rw [hnext]
    refine ⟨taken, reps, fresh, ⟨hs.sent_eq, rfl, hr.symm, fun x hx => hs.reps_eq x (by simp [hx]), hs.fresh_le, ?_⟩⟩
    rcases hs.received_eq with hrec | ⟨m, hm, -⟩
    · left
      cases arrives
      · exact hrec
      · show keep key s.received r = taken
        rw [hrec, keep_last hr]
    · obtain rfl : m = r := by simpa [hm] using hr
      cases arrives
      · exact .inr ⟨m, hm, .inl rfl⟩
      · left
        show keep key s.received m = taken
        rw [hm, keep_new]
        rw [hs.sent_eq, hm] at hkeys
        exact (List.isChain_append.1 hkeys).1
  | nil =>
    -- a new message is taken: nothing was owed, so the receiver has all of `taken`
    have hrec : s.received = taken := by
      rcases hs.received_eq with hrec | ⟨m, -, h | h⟩
      · exact hrec
      · rw [howed] at h; cases h
      · exact absurd rfl h
    have hb : s.box = fresh := hs.box_eq
    cases fresh with
    | nil => exact absurd hb hbox
    | cons m fresh =>
      have hnext : next key s (.take arrives) = { s with
          box := fresh, last := some m
          received := if arrives then keep key s.received m else s.received, owed := !arrives } := by
        simp only [next, hb]
      obtain rfl : fresh = [] := by simpa using hs.fresh_le
      rw [hnext]
      refine ⟨taken ++ [m], [], [], ⟨?_, rfl, by simp, by simp, by simp, ?_⟩⟩
      · show s.sent = _
        rw [hs.sent_eq, List.append_nil]
      · cases arrives
        · exact .inr ⟨m, by rw [← hrec]; rfl, .inl rfl⟩
        · left
          show keep key s.received m = taken ++ [m]
          rw [hrec, keep_new]
          rwa [hs.sent_eq] at hkeys

theorem doubt (h : Ok key s) : Ok key (next key s .doubt) := by
  obtain ⟨hkeys, taken, reps, fresh, hs⟩ := h
  refine ⟨hkeys, taken, reps, fresh, ⟨hs.sent_eq, hs.box_eq, hs.last_eq, hs.reps_eq, hs.fresh_le, ?_⟩⟩
  exact hs.received_eq.imp_right fun ⟨m, hm, _⟩ => ⟨m, hm, .inl rfl⟩

theorem again (h : Ok key s) : Ok key (next key s .again) := by
  obtain ⟨hkeys, taken, reps, fresh, hs⟩ := h
  refine ⟨hkeys, ?_⟩
  have hlast := hs.last_eq
  cases hl : s.last with
  | none =>
    have hnil : taken = [] := by rw [hl] at hlast; exact List.getLast?_eq_none_iff.1 hlast.symm
    refine ⟨taken, reps, fresh, ⟨hs.sent_eq, ?_, hlast, hs.reps_eq, hs.fresh_le, ?_⟩⟩
    · show repeated s.box s.last = _
      rw [hl]
      exact hs.box_eq
    · refine hs.received_eq.imp_right fun ⟨m, hm, _⟩ => ?_
      simp [hnil] at hm
  | some l =>
    rw [hl] at hlast
    by_cases hlen : s.box.length ≤ 1
    · refine ⟨taken, l :: reps, fresh, ⟨hs.sent_eq, ?_, hs.last_eq, ?_, hs.fresh_le, ?_⟩⟩
      · show repeated s.box s.last = _
        rw [hl, repeated, if_pos hlen, hs.box_eq]
        rfl
      · intro r hr
        rcases List.mem_cons.1 hr with rfl | hr
        · exact hlast.symm
        · exact hs.reps_eq r hr
      · exact hs.received_eq.imp_right fun ⟨m, hm, _⟩ => ⟨m, hm, .inr (by simp)⟩
    · refine ⟨taken, reps, fresh, ⟨hs.sent_eq, ?_, hs.last_eq, hs.reps_eq, hs.fresh_le, ?_⟩⟩
      · show repeated s.box s.last = _
        rw [hl, repeated, if_neg hlen, hs.box_eq]
      · -- at most one of the two is new
        refine hs.received_eq.imp_right fun ⟨m, hm, _⟩ => ⟨m, hm, .inr ?_⟩
        rintro rfl
        exact hlen (by rw [hs.box_eq]; simpa using hs.fresh_le)

theorem next (h : Ok key s) {a : Action α} (ha : Enabled key s a) : Ok key (next key s a) := by
  cases a with
  | send m => exact h.send ha.1 ha.2
  | take arrives => exact h.take arrives ha.1 ha.2
  | doubt => exact h.doubt
  | again => exact h.again

end Ok

variable {P : State α → Action α → Prop}

theorem reach_ok (h : Lts.Reach (system key) P s) : Ok key s :=
  h.invariant (fun _ hs => by subst hs; exact .init) fun _ _ hok ha _ => hok.next ha

theorem reach_in_order (h : Lts.Reach (system key) P s) :
    s.received <+: s.sent ∧ s.sent.length ≤ s.received.length + 2 :=
  ⟨(reach_ok h).received_initial, (reach_ok h).sent_length⟩

theorem reach_complete (h : Lts.Reach (system key) P s) (hbox : s.box = []) (howed : s.owed = false) :
    s.received = s.sent :=
  (reach_ok h).complete hbox howed

end Redelivery
