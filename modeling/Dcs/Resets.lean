import Dcs.EncoderInv
import Dcs.PwmDuty

/-!
# What a reset leaves of the past

The reset of the decoder sets the counter and its delayed copy, but neither the edge memory nor the
direction; the reset of the pulse generator sets the counter only. The output of the pulse generator is
assigned at the first clock after the reset, so two runs agree from then on. In the decoder the first
clock compares channel A with its level before the reset, and `Dir_Int` stays as it was.
-/

namespace Dcs
open Vhdl StdLogic StdLogicVector Clocked

namespace Encoder
variable {s s' : Encoder} {i : Sample}

/-- The ports `Pos` and `Dir`. -/
def outputs (s : Encoder) : StdLogicVector × StdLogic := (s.pos, s.dir)

theorem process_reset (s : Encoder) (rising : Bool) (i : Sample) : s.process .one rising i = s.reset := by
  unfold process; exact if_pos rfl

theorem reset_counted (s : Encoder) (i : Sample) : s.reset.counted i resetPos = s.counted i resetPos := rfl

theorem posInt_step_reset (s : Encoder) (i : Sample) :
    (s.reset.step i).posInt = slv 32 (s.counted i resetPos) := by
  have hnext : s.reset.nextPos i resetPos = s.counted i resetPos := by
    rw [nextPos, if_neg (by decide), if_neg (by decide), reset_counted]
  rw [← hnext]
  exact ((Inv.reset s).step i).posInt

theorem step_reset (s : Encoder) (i : Sample) : s.reset.step i =
    { nrstState := .one, chanAPrev := i.chanA, chanBPrev := i.chanB, dirInt := s.dirInt,
      posInt := slv 32 (s.counted i resetPos), prevPos := slv 32 resetPos, pos := slv 32 resetPos,
      dir := s.dirInt } := by
  have hdir : s.reset.direction = s.dirInt := by
    rw [(Inv.reset s).direction_eq, if_neg (lt_irrefl _), if_neg (lt_irrefl _)]
    rfl
  rw [← posInt_step_reset, step_of_nrstState rfl, ← hdir]
  rfl

theorem counted_resetPos_lt (s : Encoder) (i : Sample) : s.counted i resetPos < 2 ^ 32 := by
  have hreset : resetPos = 0x20000000 := rfl
  have hnear := counted_near (s := s) i resetPos
  omega

theorem counted_reset_inj : slv 32 (s.counted i resetPos) = slv 32 (s'.counted i resetPos) ↔
    (s.UpEdge i ↔ s'.UpEdge i) ∧ (s.DownEdge i ↔ s'.DownEdge i) := by
  rw [slv_inj (counted_resetPos_lt s i) (counted_resetPos_lt s' i)]
  have hs := not_up_and_down (s := s) (i := i)
  have hs' := not_up_and_down (s := s') (i := i)
  unfold counted
  by_cases hu : s.UpEdge i <;> by_cases hd : s.DownEdge i <;> by_cases hu' : s'.UpEdge i <;>
    by_cases hd' : s'.DownEdge i <;> simp_all

theorem outputs_agree_iff (s s' : Encoder) (inp : ℕ → Sample) :
    (∀ n, 2 ≤ n → (trace step s.reset inp n).outputs = (trace step s'.reset inp n).outputs) ↔
      s.dirInt = s'.dirInt ∧ (s.UpEdge (inp 0) ↔ s'.UpEdge (inp 0)) ∧
        (s.DownEdge (inp 0) ↔ s'.DownEdge (inp 0)) := by
  rw [← counted_reset_inj]
  have hsecond : ∀ t : Encoder, (trace step t.reset inp 2).outputs =
      (slv 32 (t.counted (inp 0) resetPos), t.dirInt) := fun t => by
    rw [trace_succ, trace_succ]
    show ((t.reset.step (inp 0)).step (inp 1)).outputs = _
    rw [step_reset, step_of_nrstState rfl]
    rfl
  constructor
  · intro h
    have h2 := h 2 le_rfl
    rw [hsecond, hsecond] at h2
    exact ⟨congrArg Prod.snd h2, congrArg Prod.fst h2⟩
  · rintro ⟨hdir, hcount⟩ n hn
    have hmeet : trace step s.reset inp 1 = trace step s'.reset inp 1 := by
      show s.reset.step (inp 0) = s'.reset.step (inp 0)
      rw [step_reset, step_reset, hdir, hcount]
    rw [trace_eq_of_meet hmeet (by omega)]

/-- A rise of channel A that the release of the reset has seen is counted at the first clock, unless the
edge memory or channel B is not at a level. -/
theorem stale_edge_iff {rising : Bool} {r : Sample} {inp : ℕ → Sample} (hA : (inp 0).chanA = .one) :
    (trace step (s.process .one rising r) inp 1).posInt = slv 32 resetPos ↔
      ¬ (s.chanAPrev = .zero ∧ ((inp 0).chanB = .zero ∨ (inp 0).chanB = .one)) := by
  rw [process_reset]
  show (s.reset.step (inp 0)).posInt = _ ↔ _
  rw [posInt_step_reset, slv_inj (counted_resetPos_lt s _) (by decide)]
  have hu : s.UpEdge (inp 0) ↔ s.chanAPrev = .zero ∧ (inp 0).chanB = .zero := by simp [UpEdge, hA]
  have hd : s.DownEdge (inp 0) ↔ s.chanAPrev = .zero ∧ (inp 0).chanB = .one := by simp [DownEdge, hA]
  rw [and_or_left, ← hu, ← hd]
  unfold counted
  by_cases h : s.UpEdge (inp 0) <;> by_cases h' : s.DownEdge (inp 0) <;> simp [h, h']

end Encoder

namespace Pwm

/-- What an event with `nrst = '0'` makes of a state. -/
def reset (s : Pwm) (i : PwmPorts) : Pwm :=
  { s with counter := 0, freqInt := bin2int i.freq, widthInt := bin2int i.width }

theorem process_reset (s : Pwm) (rising : Bool) (i : PwmPorts) :
    s.process .zero rising i = some (s.reset i) := rfl

/-- An event of `clk` or `nrst` with `nrst = '1'`. -/
def event (s : Pwm) (e : Bool × PwmPorts) : Option Pwm := s.process .one e.1 e.2

/-- Two states that differ in the output at most, and in that only in front of the clock that assigns it. -/
structure Alike (t t' : Pwm) : Prop where
  counter : t.counter = t'.counter
  freqInt : t.freqInt = t'.freqInt
  widthInt : t.widthInt = t'.widthInt
  pos : 1 ≤ t.freqInt
  pulseOut : t.counter = 0 ∨ t.pulseOut = t'.pulseOut

theorem Alike.event {t t' : Pwm} (h : Alike t t') {e : Bool × PwmPorts} (he : 1 ≤ bin2int e.2.freq) :
    ∃ u u', t.event e = some u ∧ t'.event e = some u' ∧ Alike u u' ∧
      (e.1 = true ∨ t.pulseOut = t'.pulseOut → u.pulseOut = u'.pulseOut) := by
  obtain ⟨rising, i⟩ := e
  have hne : t.freqInt ≠ 0 := by have := h.pos; omega
  have hne' : t'.freqInt ≠ 0 := h.freqInt ▸ hne
  cases rising with
  | false =>
    refine ⟨{ t with freqInt := bin2int i.freq, widthInt := bin2int i.width },
      { t' with freqInt := bin2int i.freq, widthInt := bin2int i.width }, by simp [Pwm.event, process],
      by simp [Pwm.event, process], ⟨h.counter, rfl, rfl, he, h.pulseOut⟩, ?_⟩
    rintro (hr | hp)
    · cases hr
    · exact hp
  | true =>
    have hout : (if t.counter = t.widthInt then StdLogic.zero else if t.counter = 0 then .one else t.pulseOut) =
        if t'.counter = t'.widthInt then .zero else if t'.counter = 0 then .one else t'.pulseOut := by
      rw [← h.counter, ← h.widthInt]
      rcases h.pulseOut with h0 | hp
      · rw [if_pos h0, if_pos h0]
      · rw [hp]
    refine ⟨{ t.next i with freqInt := bin2int i.freq, widthInt := bin2int i.width },
      { t'.next i with freqInt := bin2int i.freq, widthInt := bin2int i.width },
      by simp [Pwm.event, process, clock, hne, next], by simp [Pwm.event, process, clock, hne', next],
      ⟨?_, rfl, rfl, he, .inr hout⟩, fun _ => hout⟩
    show (wrapInt (t.counter + 1)).tmod t.freqInt = (wrapInt (t'.counter + 1)).tmod t'.freqInt
    rw [h.counter, h.freqInt]

/-- Two runs on the same inputs that are alike before the first clock stay alike. -/
theorem Alike.run {q q' t t' : Pwm} {inp : ℕ → Bool × PwmPorts} {m : ℕ} (ht : tryTrace Pwm.event q inp m = some t)
    (ht' : tryTrace Pwm.event q' inp m = some t') (h : Alike t t') (hbefore : ∀ k < m, (inp k).1 = false)
    (hfreq : ∀ n, 1 ≤ bin2int (inp n).2.freq) {n : ℕ} (hmn : m ≤ n) :
    ∃ u u', tryTrace Pwm.event q inp n = some u ∧ tryTrace Pwm.event q' inp n = some u' ∧ Alike u u' ∧
      ((∃ k < n, (inp k).1 = true) → u.pulseOut = u'.pulseOut) := by
  induction n, hmn using Nat.le_induction with
  | base =>
    refine ⟨t, t', ht, ht', h, ?_⟩
    rintro ⟨k, hk, hr⟩
    rw [hbefore k hk] at hr
    cases hr
  | succ n _ ih =>
    obtain ⟨u, u', hu, hu', halike, hpulse⟩ := ih
    obtain ⟨v, v', hv, hv', halike', hpulse'⟩ := halike.event (hfreq n)
    refine ⟨v, v', by rw [tryTrace, hu]; exact hv, by rw [tryTrace, hu']; exact hv', halike', ?_⟩
    rintro ⟨k, hk, hr⟩
    rcases Nat.lt_or_ge k n with hlt | hge
    · exact hpulse' (.inr (hpulse ⟨k, hlt, hr⟩))
    · obtain rfl : k = n := by omega
      exact hpulse' (.inl hr)

/-- The release of the reset is an event of its own, or the ports were the same for both runs already in
the reset. -/
theorem pulseOut_of_reset (s s' : Pwm) {i i' : PwmPorts} {inp : ℕ → Bool × PwmPorts}
    (hrelease : (inp 0).1 = false ∨ i = i' ∧ 1 ≤ bin2int i.freq) (hfreq : ∀ n, 1 ≤ bin2int (inp n).2.freq)
    {n k : ℕ} (hk : k < n) (hr : (inp k).1 = true) :
    ∃ u u', tryTrace event (s.reset i) inp n = some u ∧ tryTrace event (s'.reset i') inp n = some u' ∧
      u.pulseOut = u'.pulseOut := by
  suffices h : ∃ u u', tryTrace event (s.reset i) inp n = some u ∧ tryTrace event (s'.reset i') inp n = some u' ∧
      Alike u u' ∧ ((∃ k < n, (inp k).1 = true) → u.pulseOut = u'.pulseOut) by
    obtain ⟨u, u', hu, hu', -, hpulse⟩ := h
    exact ⟨u, u', hu, hu', hpulse ⟨k, hk, hr⟩⟩
  rcases hrelease with hrelease | ⟨rfl, hi⟩
  · have hfirst : ∀ (s : Pwm) i, tryTrace event (s.reset i) inp 1 = some (s.reset (inp 0).2) := fun s i => by
      simp [tryTrace, event, process, hrelease, reset]
    refine Alike.run (hfirst s i) (hfirst s' i') ⟨rfl, rfl, rfl, hfreq 0, .inl rfl⟩ (fun j hj => ?_) hfreq
      (by omega)
    obtain rfl : j = 0 := by omega
    exact hrelease
  · have hfirst : ∀ (s : Pwm) i, tryTrace event (s.reset i) inp 0 = some (s.reset i) := fun _ _ => rfl
    exact Alike.run (hfirst s i) (hfirst s' i) ⟨rfl, rfl, rfl, hi, .inl rfl⟩
      (fun j hj => absurd hj (Nat.not_lt_zero j)) hfreq (Nat.zero_le n)

end Pwm

/-- Two runs of the decoder from a reset have the same outputs from the second clock on if and only if the
direction was the same and the first sample is an edge for both or for neither, and a rise of channel A
before the release is counted exactly when the edge memory and channel B are at a level. Two runs of the
pulse generator have the same output from the first clock on. -/
theorem reset_forgets (s s' : Encoder) (inp : ℕ → Sample) :
    ((∀ n, 2 ≤ n → (trace Encoder.step s.reset inp n).outputs = (trace Encoder.step s'.reset inp n).outputs) ↔
      s.dirInt = s'.dirInt ∧ (s.UpEdge (inp 0) ↔ s'.UpEdge (inp 0)) ∧
        (s.DownEdge (inp 0) ↔ s'.DownEdge (inp 0))) ∧
    (∀ rising r, r.chanA = .one → (inp 0).chanA = .one →
      ((trace Encoder.step (s.process .one rising r) inp 1).posInt = slv 32 resetPos ↔
        ¬ (s.chanAPrev = .zero ∧ ((inp 0).chanB = .zero ∨ (inp 0).chanB = .one)))) ∧
    ∀ (p p' q q' : Pwm) rising rising' i i' inp, p.process .zero rising i = some q →
      p'.process .zero rising' i' = some q' → ((inp 0).1 = false ∨ i = i' ∧ 1 ≤ bin2int i.freq) →
      (∀ n, 1 ≤ bin2int (inp n).2.freq) → ∀ n k, k < n → (inp k).1 = true → ∃ v,
        (tryTrace Pwm.event q inp n).map Pwm.pulseOut = some v ∧
          (tryTrace Pwm.event q' inp n).map Pwm.pulseOut = some v := by
  refine ⟨Encoder.outputs_agree_iff s s' inp, fun rising r _ hA => Encoder.stale_edge_iff hA, ?_⟩
  intro p p' q q' rising rising' i i' inp hq hq' hrelease hfreq n k hk hr
  obtain rfl := Option.some.inj hq
  obtain rfl := Option.some.inj hq'
  obtain ⟨t, t', ht, ht', hpulse⟩ := Pwm.pulseOut_of_reset p p' hrelease hfreq hk hr
  refine ⟨t.pulseOut, ?_, ?_⟩
  · exact congrArg (Option.map Pwm.pulseOut) ht
  · rw [hpulse]
    exact congrArg (Option.map Pwm.pulseOut) ht'

/-- The last signals of a decoder that was moving up, and down. -/
def movedUp : Encoder := ⟨.one, .one, .zero, .zero, slv 32 9, slv 32 9, slv 32 9, .zero⟩
def movedDown : Encoder := ⟨.one, .zero, .zero, .one, slv 32 7, slv 32 7, slv 32 7, .one⟩

theorem reset_forgets_moved :
    ((∀ n, 2 ≤ n → (trace Encoder.step movedUp.reset (fun _ => ⟨.one, .zero⟩) n).outputs =
        (trace Encoder.step movedDown.reset (fun _ => ⟨.one, .zero⟩) n).outputs) ↔
      movedUp.dirInt = movedDown.dirInt ∧ (movedUp.UpEdge ⟨.one, .zero⟩ ↔ movedDown.UpEdge ⟨.one, .zero⟩) ∧
        (movedUp.DownEdge ⟨.one, .zero⟩ ↔ movedDown.DownEdge ⟨.one, .zero⟩)) ∧
    ((trace Encoder.step (movedUp.process .one true ⟨.one, .zero⟩) (fun _ => ⟨.one, .zero⟩) 1).posInt =
        slv 32 resetPos ↔ ¬ (movedUp.chanAPrev = .zero ∧ (StdLogic.zero = .zero ∨ StdLogic.zero = .one))) ∧
    ∃ v, (tryTrace Pwm.event ⟨5, 2, 0, .U⟩ (fun n => (n == 1, Pwm.ports 5 2)) 3).map Pwm.pulseOut = some v ∧
      (tryTrace Pwm.event ⟨9, 9, 0, .one⟩ (fun n => (n == 1, Pwm.ports 5 2)) 3).map Pwm.pulseOut = some v := by
  obtain ⟨hagree, hstale, hpwm⟩ := reset_forgets movedUp movedDown fun _ => ⟨.one, .zero⟩
  refine ⟨hagree, hstale true ⟨.one, .zero⟩ rfl rfl, ?_⟩
  exact hpwm ⟨4, 4, 3, .U⟩ ⟨7, 1, 6, .one⟩ _ _ true true (Pwm.ports 5 2) (Pwm.ports 9 9) _ (by decide) (by decide)
    (.inl rfl) (fun n => by rw [show ((n == 1, Pwm.ports 5 2).2.freq) = slv 32 5 from rfl,
      bin2int_slv_of_lt (by decide)]; decide) 3 1 (by decide) rfl

/-- After a reset `Dir` still shows the movement before it, and a rise of channel A before the release is
counted. -/
theorem reset_remembers :
    ¬ (∀ (s s' : Encoder) inp n, 2 ≤ n →
      (trace Encoder.step s.reset inp n).outputs = (trace Encoder.step s'.reset inp n).outputs) ∧
    ¬ ∀ (s : Encoder) (inp : ℕ → Sample) rising r, r.chanA = .one → (inp 0).chanA = .one →
      (trace Encoder.step (s.process .one rising r) inp 1).posInt = slv 32 resetPos := by
  refine ⟨fun h => ?_, fun h => ?_⟩
  · exact absurd (h movedUp movedDown (fun _ => ⟨.zero, .zero⟩) 2 le_rfl) (by decide)
  · exact absurd (h movedDown (fun _ => ⟨.one, .zero⟩) true ⟨.one, .zero⟩ rfl rfl) (by decide)

end Dcs
