import Dcs.Lib.Clocked
import Dcs.Lib.StdLogic

/-!
# The pulse generator (`PWM.vhd`)

`Pwm` holds the signals of architecture `Functional` (`counter2` is never read or written),
`Pwm.process` is its process. The process runs at every event of `clk` and `nrst`: the clocked part
acts at a rising edge only, `freq_int` and `width_int` follow their ports at each event, so the
clocked part reads the ports of the event before.
-/

namespace Dcs
open Vhdl StdLogic StdLogicVector

/-- The loop of `bin2int` over `word'range`, leftmost element first, with its EXIT. -/
def bin2intLoop : List (StdLogic × ℕ) → ℤ → ℤ
  | [], result => result
  | (b, i) :: word, result =>
    if b = .one then bin2intLoop word (wrapInt (result + 2 ^ i))
    else if b ≠ .zero then -1
    else bin2intLoop word result

def bin2int (word : StdLogicVector) : ℤ := bin2intLoop word.zipIdx.reverse 0

theorem slv_succ_append (n v : ℕ) : slv (n + 1) v = slv n v ++ [ofBool (v / 2 ^ n % 2 == 1)] := by
  induction n generalizing v with
  | zero => simp [slv]
  | succ n ih =>
    rw [slv, ih (v / 2), slv, List.cons_append, Nat.div_div_eq_div_mul, ← Nat.pow_succ']

theorem bin2intLoop_slv (n v : ℕ) (r : ℤ) (hr : wrapInt r = r) :
    bin2intLoop (slv n v).zipIdx.reverse r = wrapInt (r + (v % 2 ^ n : ℕ)) := by
  induction n generalizing r with
  | zero => simpa [slv, bin2intLoop, Nat.mod_one] using hr.symm
  | succ n ih =>
    have hmod : v % 2 ^ (n + 1) = v % 2 ^ n + 2 ^ n * (v / 2 ^ n % 2) := by
      rw [Nat.pow_succ, Nat.mod_mul]
    rw [slv_succ_append, List.zipIdx_append, List.reverse_append, hmod]
    simp only [length_slv, List.zipIdx_cons, List.zipIdx_nil, List.reverse_cons, List.reverse_nil,
      List.nil_append, List.cons_append, bin2intLoop, Nat.zero_add]
    rcases Nat.mod_two_eq_zero_or_one (v / 2 ^ n) with h | h
    · simp [h, ofBool, ih r hr]
    · have hw : wrapInt (wrapInt (r + 2 ^ n)) = wrapInt (r + 2 ^ n) := Int.bmod_bmod
      simp only [h, ofBool, beq_self_eq_true, ↓reduceIte, ih _ hw, Nat.mul_one]
      rw [wrapInt, wrapInt, Int.bmod_add_bmod, wrapInt]
      congr 1
      push_cast
      ring

/-- `bin2int` reads a vector of bits as a 32-bit two's complement word. -/
theorem bin2int_slv (v : ℕ) : bin2int (slv 32 v) = wrapInt (v % 2 ^ 32 : ℕ) := by
  rw [bin2int, bin2intLoop_slv 32 v 0 (by decide), zero_add]

theorem bin2int_slv_of_lt {v : ℕ} (h : v < 2 ^ 31) : bin2int (slv 32 v) = v := by
  rw [bin2int_slv, Nat.mod_eq_of_lt (by omega)]
  exact wrapInt_of_range (by omega) (by omega)

structure Pwm where
  freqInt : ℤ
  widthInt : ℤ
  counter : ℤ
  pulseOut : StdLogic
deriving DecidableEq, Repr

structure PwmPorts where
  freq : StdLogicVector
  width : StdLogicVector
deriving DecidableEq, Repr

namespace Pwm

/-- The clocked branch. `rem` by zero has no value; of the two assignments to `pulse_out` the last one
wins. -/
def clock (s : Pwm) : Option Pwm :=
  if s.freqInt = 0 then none
  else some { s with
    counter := (wrapInt (s.counter + 1)).tmod s.freqInt
    pulseOut := if s.counter = s.widthInt then .zero else if s.counter = 0 then .one else s.pulseOut }

/-- `process (clk, nrst)`; `rising` is `clk'event and clk = '1'`. -/
def process (s : Pwm) (nrst : StdLogic) (rising : Bool) (i : PwmPorts) : Option Pwm :=
  let clocked :=
    if nrst = .zero then some { s with counter := 0 }
    else if rising ∧ nrst = .one then s.clock
    else some s
  clocked.map fun t => { t with freqInt := bin2int i.freq, widthInt := bin2int i.width }

/-- One rising clock with `nrst = '1'`. -/
def step (s : Pwm) (i : PwmPorts) : Option Pwm := s.process .one true i

end Pwm

end Dcs
