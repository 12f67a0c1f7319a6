import Dcs.Handlers
import Dcs.PwmCore

/-!
# From the driver to the pulse generator

A value the PWM driver stores passes through the slave register (`PWM_AXI_v2_v1_0_S00_AXI.vhd`), the
port of the register file and the `integer` signal of the core, one event of a clock at each stage;
the two clocks are unrelated. The driver does not apply its limit of 8192, lets every `FREQUENCY`
through, and the registers are 0 after a reset. `safe_iff` says for which inputs the core sees legal
values only.
-/

namespace Dcs
open Vhdl StdLogic StdLogicVector

/-! ### The register file -/

structure RegFile where
  slvReg0 : StdLogicVector
  slvReg1 : StdLogicVector
  slvReg2 : StdLogicVector
  slvReg3 : StdLogicVector
  width : StdLogicVector
  freq : StdLogicVector
  dir : StdLogic
  enable : StdLogic
deriving DecidableEq, Repr

/-- The write for which `slv_reg_wren` is up: `loc_addr`, `S_AXI_WDATA` and `S_AXI_WSTRB`. -/
structure AxiWrite where
  locAddr : StdLogicVector
  wdata : StdLogicVector
  wstrb : StdLogicVector
deriving DecidableEq, Repr

def writeBytes (reg wdata wstrb : StdLogicVector) : StdLogicVector :=
  reg.mapIdx fun i b => if wstrb.getD (i / 8) .zero = .one then wdata.getD i b else b

/-- An event of `S_AXI_ACLK`, for the processes that write the slave registers and that drive the ports.
The ports take the registers as they were before the event. -/
def RegFile.aclk (f : RegFile) (rising : Bool) (aresetn : StdLogic) (write : Option AxiWrite) : RegFile :=
  let ports := { f with
    width := f.slvReg0
    freq := f.slvReg1
    dir := f.slvReg2.getD 0 .U
    enable := f.slvReg2.getD 1 .U }
  if rising then
    if aresetn = .zero then
      { ports with slvReg0 := slv 32 0, slvReg1 := slv 32 0, slvReg2 := slv 32 0, slvReg3 := slv 32 0 }
    else
      match write with
      | none => ports
      | some a =>
        if a.locAddr = slv 2 0 then { ports with slvReg0 := writeBytes f.slvReg0 a.wdata a.wstrb }
        else if a.locAddr = slv 2 1 then { ports with slvReg1 := writeBytes f.slvReg1 a.wdata a.wstrb }
        else if a.locAddr = slv 2 2 then { ports with slvReg2 := writeBytes f.slvReg2 a.wdata a.wstrb }
        else if a.locAddr = slv 2 3 then { ports with slvReg3 := writeBytes f.slvReg3 a.wdata a.wstrb }
        else ports
  else ports

/-- The write that `iowrite32` of the driver becomes. -/
def iowrite32 (r : PwmReg) (value : BitVec 32) : AxiWrite :=
  ⟨slv 2 (pwm.offset r), slv 32 value.toNat, slv 4 15⟩

theorem writeBytes_all {reg wdata : StdLogicVector} (hreg : reg.length = 32) (hdata : wdata.length = 32) :
    writeBytes reg wdata (slv 4 15) = wdata := by
  refine List.ext_getElem (by simp [writeBytes, hreg, hdata]) fun i hi hi' => ?_
  have hones : ∀ k < 4, (slv 4 15).getD k .zero = .one := by decide
  have hstrb : (slv 4 15).getD (i / 8) .zero = .one := hones _ (by omega)
  simp only [writeBytes, List.getElem_mapIdx]
  rw [if_pos hstrb, List.getD, List.getElem?_eq_getElem hi', Option.getD_some]

/-! ### The whole component -/

/-- The register file and the pulse generator, with `s00_axi_aresetn` high. -/
structure PwmIp where
  regs : RegFile
  core : Pwm
deriving DecidableEq, Repr

/-- Events: a store of the driver arrives at a rising edge of `S_AXI_ACLK`, `S_AXI_ACLK` has another
event, the clock of the core has an event. -/
inductive PwmEvent
  | pwmWrite (buffer : Buffer)
  | setFrequency (buffer : Buffer)
  | aclk (rising : Bool)
  | clk (rising : Bool)
deriving DecidableEq, Repr

def frequencyStore (K : Kstrto) (buffer : Buffer) : BitVec 32 :=
  PwmAttr.FREQUENCY.transform 0 (parsed (K.kstrtoint buffer) 0).2

theorem pwmSysSet_frequency {K : Kstrto} {w : World PwmReg} (hw : w.Wf pwm) {p : Ptr} {x : DevData PwmReg}
    (hx : w.Entry p x) (buffer : Buffer) (io : Io) :
    (pwmSysSet K w x.devt .FREQUENCY buffer io).2 =
      Function.update io (x.address .frequency) (frequencyStore K buffer) := by
  rw [pwmSysSet_entry hw.entries hx]
  rfl

namespace PwmIp

/-- One event; `none` is the evaluation of `rem` by zero. -/
def next (K : Kstrto) (s : PwmIp) : PwmEvent → Option PwmIp
  | .pwmWrite b =>
    some { s with regs := s.regs.aclk true .one (some (iowrite32 .pulsewidth (pwmStore K b).2)) }
  | .setFrequency b =>
    some { s with regs := s.regs.aclk true .one (some (iowrite32 .frequency (frequencyStore K b))) }
  | .aclk rising => some { s with regs := s.regs.aclk rising .one none }
  | .clk rising =>
    (s.core.process .one rising ⟨s.regs.freq, s.regs.width⟩).map fun core => { s with core := core }

/-- The state after a reset. -/
def reset (pulse : StdLogic) : PwmIp where
  regs := ⟨slv 32 0, slv 32 0, slv 32 0, slv 32 0, slv 32 0, slv 32 0, .zero, .zero⟩
  core := ⟨0, 0, 0, pulse⟩

/-- Two events of `S_AXI_ACLK` during the reset and the events of `nrst` lead to `reset`. -/
theorem reset_of_aresetn (s : PwmIp) :
    let regs := (s.regs.aclk true .zero none).aclk false .zero none
    ((s.core.process .zero false ⟨regs.freq, regs.width⟩).bind fun core =>
      core.process .one false ⟨regs.freq, regs.width⟩).map (PwmIp.mk regs) = some (reset s.core.pulseOut) :=
  rfl

/-- What follows a reset; the events are listed latest first. -/
def after (K : Kstrto) (pulse : StdLogic) : List PwmEvent → Option PwmIp
  | [] => some (reset pulse)
  | e :: h => (after K pulse h).bind fun s => s.next K e

/-- The registers that feed the core, and the ports, hold values of the range of `integer`, and the
pulse width is within the limit. -/
structure Legal (s : PwmIp) : Prop where
  slvReg0 : bin2int s.regs.slvReg0 = s.regs.slvReg0.toNat
  slvReg1 : bin2int s.regs.slvReg1 = s.regs.slvReg1.toNat
  width : bin2int s.regs.width = s.regs.width.toNat
  freq : bin2int s.regs.freq = s.regs.freq.toNat
  limit : s.regs.slvReg0.toNat ≤ 8192

/-- Up to the events `h` every state is legal, and `rem` is never evaluated with `freq_int = 0`. -/
def Safe (K : Kstrto) (pulse : StdLogic) (h : List PwmEvent) : Prop :=
  ∀ h', h' <:+ h → ∃ s, after K pulse h' = some s ∧ s.Legal ∧ (.clk true :: h' <:+ h → s.core.freqInt ≠ 0)

end PwmIp

/-! ### What arrives -/

section
variable (K : Kstrto)

def PwmEvent.stored (r : PwmReg) : PwmEvent → Option (BitVec 32)
  | .pwmWrite b => if r = .pulsewidth then some (pwmStore K b).2 else none
  | .setFrequency b => if r = .frequency then some (frequencyStore K b) else none
  | _ => none

/-- The last value stored in `r`. -/
def written (r : PwmReg) : List PwmEvent → BitVec 32
  | [] => 0
  | e :: h => (e.stored K r).getD (written r h)

/-- The last value stored in `r` before the last event of `S_AXI_ACLK`. -/
def onPort (r : PwmReg) : List PwmEvent → BitVec 32
  | [] => 0
  | .clk _ :: h => onPort r h
  | _ :: h => written K r h

/-- The value that was on the port at the last event of the core's clock. -/
def latched (r : PwmReg) : List PwmEvent → BitVec 32
  | [] => 0
  | .clk _ :: h => onPort K r h
  | _ :: h => latched r h

end

variable {K : Kstrto} {pulse : StdLogic} {h : List PwmEvent} {s s' : PwmIp}

/-- A property of 0 and of every stored value is one of what is in the register and on the port. -/
theorem written_induction {P : BitVec 32 → Prop} {r : PwmReg} (h0 : P 0)
    (hP : ∀ e ∈ h, ∀ v, e.stored K r = some v → P v) : P (written K r h) ∧ P (onPort K r h) := by
  induction h with
  | nil => exact ⟨h0, h0⟩
  | cons e h ih =>
    obtain ⟨hw, hp⟩ := ih fun e' he' => hP e' (List.mem_cons_of_mem _ he')
    have hwritten : P (written K r (e :: h)) := by
      cases hs : e.stored K r with
      | none => simpa [written, hs] using hw
      | some v => simpa [written, hs] using hP e List.mem_cons_self v hs
    refine ⟨hwritten, ?_⟩
    cases e with
    | clk rising => exact hp
    | _ => exact hw

namespace PwmIp

theorem bin2int_bitVec (v : BitVec 32) : bin2int (slv 32 v.toNat) = wrapInt v.toNat := by
  rw [bin2int_slv, Nat.mod_eq_of_lt v.isLt]

theorem bin2int_eq_zero {v : BitVec 32} : bin2int (slv 32 v.toNat) = 0 ↔ v = 0 := by
  have hlt := v.isLt
  rw [bin2int_bitVec, wrapInt, Int.bmod_def]
  refine ⟨fun h => BitVec.eq_of_toNat_eq ?_, fun h => by subst h; decide⟩
  change v.toNat = 0
  split at h <;> omega

theorem bin2int_eq_toNat {v : BitVec 32} :
    bin2int (slv 32 v.toNat) = (slv 32 v.toNat).toNat ↔ v.toNat < 2 ^ 31 := by
  have hlt := v.isLt
  rw [bin2int_bitVec, toNat_slv, Nat.mod_eq_of_lt hlt, wrapInt, Int.bmod_def]
  constructor
  · intro h
    split at h <;> omega
  · intro h
    rw [if_pos (by omega)]
    omega

/-- The signals hold what the events before have brought to them. -/
structure Follows (K : Kstrto) (h : List PwmEvent) (s : PwmIp) : Prop where
  slvReg0 : s.regs.slvReg0 = slv 32 (written K .pulsewidth h).toNat
  slvReg1 : s.regs.slvReg1 = slv 32 (written K .frequency h).toNat
  width : s.regs.width = slv 32 (onPort K .pulsewidth h).toNat
  freq : s.regs.freq = slv 32 (onPort K .frequency h).toNat
  freqInt : s.core.freqInt = bin2int (slv 32 (latched K .frequency h).toNat)

theorem Follows.next (hs : Follows K h s) {e : PwmEvent} (he : s.next K e = some s') : Follows K (e :: h) s' := by
  cases e with
  | pwmWrite b =>
    obtain rfl := Option.some.inj he
    refine ⟨?_, hs.slvReg1, hs.slvReg0, hs.slvReg1, hs.freqInt⟩
    exact writeBytes_all (by rw [hs.slvReg0, length_slv]) (length_slv _ _)
  | setFrequency b =>
    obtain rfl := Option.some.inj he
    refine ⟨hs.slvReg0, ?_, hs.slvReg0, hs.slvReg1, hs.freqInt⟩
    exact writeBytes_all (by rw [hs.slvReg1, length_slv]) (length_slv _ _)
  | aclk rising =>
    obtain rfl := Option.some.inj he
    cases rising <;> exact ⟨hs.slvReg0, hs.slvReg1, hs.slvReg0, hs.slvReg1, hs.freqInt⟩
  | clk rising =>
    obtain ⟨core, hcore, rfl⟩ := Option.map_eq_some_iff.1 he
    obtain ⟨t, -, rfl⟩ := Option.map_eq_some_iff.1 hcore
    exact ⟨hs.slvReg0, hs.slvReg1, hs.width, hs.freq, by rw [hs.freq]; rfl⟩

theorem Follows.of_after (hs : after K pulse h = some s) : Follows K h s := by
  induction h generalizing s with
  | nil =>
    obtain rfl := Option.some.inj hs
    exact ⟨rfl, rfl, rfl, rfl, (bin2int_eq_zero.2 rfl).symm⟩
  | cons e h ih =>
    obtain ⟨t, ht, he⟩ := Option.bind_eq_some_iff.1 hs
    exact (ih ht).next he

/-- An event goes through unless it is a rising edge that finds `freq_int = 0`. -/
theorem next_isSome {e : PwmEvent} (h : e = .clk true → s.core.freqInt ≠ 0) : ∃ s', s.next K e = some s' := by
  cases e with
  | clk rising =>
    cases rising with
    | false => exact ⟨_, rfl⟩
    | true => exact ⟨_, by simp only [next, Pwm.process, Pwm.clock, if_neg (h rfl)]; rfl⟩
  | _ => exact ⟨_, rfl⟩

/-- The stored values are in range: pulse widths up to the limit, frequencies not negative. -/
structure InputsOk (K : Kstrto) (h : List PwmEvent) : Prop where
  width : ∀ b v, .pwmWrite b ∈ h → K.kstrtouintFromUser b = .ok v → v.toNat ≤ 8192
  frequency : ∀ b v, .setFrequency b ∈ h → K.kstrtoint b = .ok v → 0 ≤ v.toInt

theorem stored_width_le (hok : InputsOk K h) : ∀ e ∈ h, ∀ v, e.stored K .pulsewidth = some v → v.toNat ≤ 8192 := by
  intro e he v hv
  cases e with
  | pwmWrite b =>
    obtain rfl : (pwmStore K b).2 = v := by simpa [PwmEvent.stored] using hv
    cases hb : K.kstrtouintFromUser b with
    | error e => simp [pwmStore, parsed, hb]
    | ok v => simpa [pwmStore, parsed, hb] using hok.width b v he hb
  | _ => cases hv

theorem stored_frequency_lt (hok : InputsOk K h) :
    ∀ e ∈ h, ∀ v, e.stored K .frequency = some v → v.toNat < 2 ^ 31 := by
  intro e he v hv
  cases e with
  | setFrequency b =>
    obtain rfl : frequencyStore K b = v := by simpa [PwmEvent.stored] using hv
    cases hb : K.kstrtoint b with
    | error e => simp [frequencyStore, PwmAttr.transform, parsed, hb]
    | ok v =>
      have hpos := hok.frequency b v he hb
      rw [BitVec.toInt_eq_toNat_cond] at hpos
      simp only [frequencyStore, PwmAttr.transform, parsed, hb]
      split at hpos <;> omega
  | _ => cases hv

theorem Follows.legal (hs : Follows K h s) (hok : InputsOk K h) : s.Legal := by
  obtain ⟨hreg0, hwidth⟩ := written_induction (P := fun v => v.toNat ≤ 8192) (by decide) (stored_width_le hok)
  obtain ⟨hreg1, hfreq⟩ := written_induction (P := fun v => v.toNat < 2 ^ 31) (by decide) (stored_frequency_lt hok)
  refine ⟨?_, ?_, ?_, ?_, ?_⟩
  · rw [hs.slvReg0]; exact bin2int_eq_toNat.2 (by omega)
  · rw [hs.slvReg1]; exact bin2int_eq_toNat.2 hreg1
  · rw [hs.width]; exact bin2int_eq_toNat.2 (by omega)
  · rw [hs.freq]; exact bin2int_eq_toNat.2 hfreq
  · rw [hs.slvReg0, toNat_slv, Nat.mod_eq_of_lt (BitVec.isLt _)]; exact hreg0

theorem exists_after (hedge : ∀ h', .clk true :: h' <:+ h → latched K .frequency h' ≠ 0) :
    ∃ s, after K pulse h = some s := by
  induction h with
  | nil => exact ⟨_, rfl⟩
  | cons e h ih =>
    obtain ⟨s, hs⟩ := ih fun h' hh' => hedge h' (hh'.trans (List.suffix_cons e h))
    have hfollows := Follows.of_after hs
    obtain ⟨s', hs'⟩ := next_isSome (K := K) (s := s) (e := e) fun he hzero => by
      rw [hfollows.freqInt, bin2int_eq_zero] at hzero
      exact hedge h (he ▸ List.suffix_rfl) hzero
    exact ⟨s', by rw [after, hs]; exact hs'⟩

/-- The core sees legal values only and never divides by zero, if and only if every pulse width is at
most 8192, no frequency is negative, and no rising edge of the core's clock finds that the frequency
that has arrived is 0, as it is after a reset. -/
theorem safe_iff (K : Kstrto) (pulse : StdLogic) (h : List PwmEvent) :
    Safe K pulse h ↔ InputsOk K h ∧ ∀ h', .clk true :: h' <:+ h → latched K .frequency h' ≠ 0 := by
  constructor
  · intro hsafe
    have hstate : ∀ e ∈ h, ∃ h' s, after K pulse (e :: h') = some s ∧ Follows K (e :: h') s ∧ s.Legal := fun e he => by
      obtain ⟨h₁, h₂, rfl⟩ := List.append_of_mem he
      obtain ⟨s, hs, hlegal, -⟩ := hsafe (e :: h₂) (List.suffix_append _ _)
      exact ⟨h₂, s, hs, .of_after hs, hlegal⟩
    refine ⟨⟨fun b v hb hv => ?_, fun b v hb hv => ?_⟩, fun h' hh' hzero => ?_⟩
    · obtain ⟨h', s, -, hfollows, hlegal⟩ := hstate _ hb
      have hlimit := hlegal.limit
      rw [hfollows.slvReg0, toNat_slv, Nat.mod_eq_of_lt (BitVec.isLt _)] at hlimit
      simpa [written, PwmEvent.stored, pwmStore, parsed, hv] using hlimit
    · obtain ⟨h', s, -, hfollows, hlegal⟩ := hstate _ hb
      have hrange := hlegal.slvReg1
      rw [hfollows.slvReg1, bin2int_eq_toNat] at hrange
      have hlt : v.toNat < 2 ^ 31 := by
        simpa [written, PwmEvent.stored, frequencyStore, PwmAttr.transform, parsed, hv] using hrange
      rw [BitVec.toInt_eq_toNat_of_lt (by omega)]
      exact Int.natCast_nonneg _
    · obtain ⟨s, hs, -, hne⟩ := hsafe h' ((List.suffix_cons _ _).trans hh')
      refine hne hh' ?_
      rw [(Follows.of_after hs).freqInt, hzero]
      exact bin2int_eq_zero.2 rfl
  · rintro ⟨hok, hedge⟩ h' hh'
    obtain ⟨s, hs⟩ := (exists_after fun h'' hh'' => hedge h'' (hh''.trans hh') : ∃ s, after K pulse h' = some s)
    have hfollows := Follows.of_after hs
    refine ⟨s, hs, hfollows.legal ⟨fun b v hb => hok.width b v (hh'.mem hb),
      fun b v hb => hok.frequency b v (hh'.mem hb)⟩, fun hclk hzero => ?_⟩
    rw [hfollows.freqInt, bin2int_eq_zero] at hzero
    exact hedge h' hclk hzero

/-- The first rising edge after a reset, a pulse width of 9000, and a frequency of -1. -/
theorem not_safe :
    ¬ Safe decimal .zero [.clk true] ∧ ¬ Safe decimal .zero [.pwmWrite [57, 48, 48, 48]] ∧
      ¬ Safe decimal .zero [.setFrequency [45, 49]] := by
  refine ⟨fun h => ?_, fun h => ?_, fun h => ?_⟩
  · obtain ⟨s, hs, -, hne⟩ := h [] (List.nil_suffix)
    obtain rfl := Option.some.inj hs
    exact hne List.suffix_rfl rfl
  · obtain ⟨s, hs, hlegal, -⟩ := h _ List.suffix_rfl
    obtain rfl := Option.some.inj hs
    exact absurd hlegal.limit (by decide)
  · obtain ⟨s, hs, hlegal, -⟩ := h _ List.suffix_rfl
    have hrange := hlegal.slvReg1
    rw [(Follows.of_after hs).slvReg1, bin2int_eq_toNat] at hrange
    exact absurd hrange (by decide)

end PwmIp

end Dcs
