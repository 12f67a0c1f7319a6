import Dcs.Reads

/-!
# The two pins of a PWM device

`DIRECTION` and `ENABLE` share one register, of which each is meant to own a bit. A number that is not
0 is or-ed into the register as it is, and a 0 also clears the upper half; `sys_read_node` shows the
whole register for either attribute. `pins_independent` says for which numbers and which contents the
two attributes still behave as two bits.
-/

namespace Dcs
open Function

/-- The bit of the pins register that an attribute is for. -/
def PwmAttr.pin : PwmAttr → Option ℕ
  | .FREQUENCY => none
  | .DIRECTION => some 0
  | .ENABLE => some 1

theorem PwmAttr.pin_lt {a : PwmAttr} {i : ℕ} (h : a.pin = some i) : i < 2 := by
  cases a <;> cases h <;> decide

theorem PwmAttr.reg_of_pin {a : PwmAttr} {i : ℕ} (h : a.pin = some i) : a.reg = .pins := by
  cases a <;> cases h <;> rfl

theorem PwmAttr.reg_of_no_pin {a : PwmAttr} (h : a.pin = none) : a.reg = .frequency := by
  cases a <;> cases h
  rfl

/-- What a write to an attribute makes of each bit of the pins register. -/
theorem PwmAttr.getLsbD_transform {a : PwmAttr} {i : ℕ} (h : a.pin = some i) (r value : BitVec 32) (j : ℕ) :
    (a.transform r value).getLsbD j =
      if value ≠ 0 then r.getLsbD j || (value <<< i).getLsbD j else r.getLsbD j && decide (j ≠ i ∧ j < 16) := by
  have hmask : ∀ j < 32, (0xFFFE#32).getLsbD j = decide (j ≠ 0 ∧ j < 16) ∧
      (0xFFFD#32).getLsbD j = decide (j ≠ 1 ∧ j < 16) := by decide
  have hand : ∀ m : BitVec 32, (∀ j < 32, m.getLsbD j = decide (j ≠ i ∧ j < 16)) →
      (r &&& m).getLsbD j = (r.getLsbD j && decide (j ≠ i ∧ j < 16)) := fun m hm => by
    rw [BitVec.getLsbD_and]
    rcases Nat.lt_or_ge j 32 with hj | hj
    · rw [hm j hj]
    · rw [BitVec.getLsbD_of_ge r j hj, Bool.false_and, Bool.false_and]
  cases a with
  | FREQUENCY => cases h
  | DIRECTION =>
    cases h
    rw [transform]
    split
    · rw [BitVec.getLsbD_or, BitVec.shiftLeft_zero]
    · exact hand _ fun j hj => (hmask j hj).1
  | ENABLE =>
    cases h
    rw [transform]
    split
    · rw [BitVec.getLsbD_or]
    · exact hand _ fun j hj => (hmask j hj).2

/-! ### Writes -/

/-- In `w` the device at `p` is bound, has the number `v` and these register addresses. -/
def World.Binds (w : World PwmReg) (v : DevT) (address : PwmReg → IoAddr) (p : Ptr) : Prop :=
  Lts.Reach (drive pwm) (fun _ _ => True) w ∧
    ∃ d x, w.drvdata d = some p ∧ w.heap p = some x ∧ x.devt = v ∧ x.address = address

/-- A bound device is on the list, and its three registers are different words. -/
theorem World.Binds.entry {w : World PwmReg} {v : DevT} {address : PwmReg → IoAddr} {p : Ptr}
    (hb : w.Binds v address p) :
    w.Wf pwm ∧ address .pulsewidth ≠ address .pins ∧ address .frequency ≠ address .pins ∧
      ∃ x, w.Entry p x ∧ x.devt = v ∧ x.address = address := by
  obtain ⟨hreach, d, x, hd, hx, rfl, rfl⟩ := hb
  have hw : w.Wf pwm := .of_reach hreach
  obtain ⟨hentry, hold⟩ := hw.bound_at hd hx
  refine ⟨hw, ?_, ?_, x, hentry, rfl, rfl⟩
  · rw [hold.address .pulsewidth, hold.address .pins]
    simp [pwm]
  · rw [hold.address .frequency, hold.address .pins]
    simp [pwm]

/-- A write to an attribute or to the device node, with the world in which it happens. -/
inductive PwmWrite
  | attr (w : World PwmReg) (a : PwmAttr) (buffer : Buffer)
  | width (w : World PwmReg) (f : FileId) (buffer : Buffer)

namespace PwmWrite

def buffer : PwmWrite → Buffer
  | attr _ _ buffer | width _ _ buffer => buffer

def run (K : Kstrto) (v : DevT) : PwmWrite → Io → Outcome × Io
  | attr w a buffer, io => pwmSysSet K w v a buffer io
  | width w f buffer, io => pwmWrite K w f buffer io

/-- The write is to the device with number `v` and these addresses. -/
def On (v : DevT) (address : PwmReg → IoAddr) : PwmWrite → Prop
  | attr w _ _ => ∃ p, w.Binds v address p
  | width w f _ => ∃ p, w.Binds v address p ∧ w.files f >>= File.privateData = some p

/-- The registers after the writes of `h`, the last of which is the head. -/
def after (K : Kstrto) (v : DevT) (io : Io) : List PwmWrite → Io
  | [] => io
  | e :: h => (e.run K v (after K v io h)).2

def pin : PwmWrite → Option ℕ
  | attr _ a _ => a.pin
  | width _ _ _ => none

/-- The number in the buffer. -/
def parse (K : Kstrto) : PwmWrite → Except ℤ (BitVec 32)
  | attr _ _ buffer => K.kstrtoint buffer
  | width _ _ buffer => K.kstrtouintFromUser buffer

/-- The number that was last written to the attribute of bit `i`. -/
def lastSet (K : Kstrto) (i : ℕ) (h : List PwmWrite) : Option (BitVec 32) :=
  h.findSome? fun e => if e.pin = some i then (e.parse K).toOption else none

/-- Bit `i` of the pins as two booleans: whether the number last written to its attribute is not 0, and
the prior value for a bit without attribute or without a write. -/
def wanted (K : Kstrto) (old : BitVec 32) (h : List PwmWrite) (i : ℕ) : Bool :=
  match lastSet K i h with
  | some value => value ≠ 0
  | none => old.getLsbD i

/-- A number other than 0 has no bits but the one for the attribute's pin and bits that are set anyway,
and the pin is set by it or is set anyway; a 0 finds the upper half clear. -/
def Clean (K : Kstrto) (r : BitVec 32) (e : PwmWrite) : Prop :=
  ∀ i ∈ e.pin, ∀ value, e.parse K = .ok value →
    if value ≠ 0 then (r.getLsbD i ∨ (value <<< i).getLsbD i) ∧ ∀ j ≠ i, (value <<< i).getLsbD j → r.getLsbD j
    else ∀ j, 16 ≤ j → r.getLsbD j = false

variable {K : Kstrto} {v : DevT} {address : PwmReg → IoAddr} {e : PwmWrite} {h : List PwmWrite}

theorem parse_of_succeeds (hon : e.On v address) {io : Io}
    (hs : (e.run K v io).1 = .returns e.buffer.length) : ∃ value, e.parse K = .ok value := by
  cases e with
  | attr w a buffer =>
    obtain ⟨p, hb⟩ := hon
    obtain ⟨hw, -, -, x, hx, rfl, rfl⟩ := hb.entry
    show ∃ value, K.kstrtoint buffer = .ok value
    cases he : K.kstrtoint buffer with
    | ok value => exact ⟨value, rfl⟩
    | error n =>
      rw [run, (pwmSysSet_rejected hw hx a he io).1] at hs
      have hlen : n = buffer.length := Outcome.returns.inj hs
      have := K.kstrtoint_neg _ _ he
      omega
  | width w f buffer =>
    obtain ⟨p, hb, hp⟩ := hon
    obtain ⟨hw, -, -, x, hx, rfl, rfl⟩ := hb.entry
    show ∃ value, K.kstrtouintFromUser buffer = .ok value
    cases he : K.kstrtouintFromUser buffer with
    | ok value => exact ⟨value, rfl⟩
    | error n =>
      rw [run, (pwmWrite_rejected hp hx.2 he io).1] at hs
      have hlen : n = buffer.length := Outcome.returns.inj hs
      have := K.kstrtouintFromUser_neg _ _ he
      omega

theorem getLsbD_run (hon : e.On v address) {value : BitVec 32} (hvalue : e.parse K = .ok value) (io : Io) (j : ℕ) :
    ((e.run K v io).2 (address .pins)).getLsbD j = match e.pin with
      | none => (io (address .pins)).getLsbD j
      | some i => if value ≠ 0 then (io (address .pins)).getLsbD j || (value <<< i).getLsbD j
          else (io (address .pins)).getLsbD j && decide (j ≠ i ∧ j < 16) := by
  cases e with
  | attr w a buffer =>
    obtain ⟨p, hb⟩ := hon
    obtain ⟨hw, -, hne, x, hx, rfl, rfl⟩ := hb.entry
    have hparse : K.kstrtoint buffer = .ok value := hvalue
    show ((pwmSysSet K w x.devt a buffer io).2 (x.address .pins)).getLsbD j = _
    rw [pwmSysSet_entry hw.entries hx, hparse]
    cases hpin : a.pin with
    | none =>
      simp only [pin, hpin, PwmAttr.reg_of_no_pin hpin]
      rw [update_of_ne hne.symm]
    | some i =>
      simp only [pin, hpin, PwmAttr.reg_of_pin hpin]
      rw [update_self]
      exact PwmAttr.getLsbD_transform hpin _ _ j
  | width w f buffer =>
    obtain ⟨p, hb, hp⟩ := hon
    obtain ⟨hw, hne, -, x, hx, rfl, rfl⟩ := hb.entry
    show ((pwmWrite K w f buffer io).2 (x.address .pins)).getLsbD j = (io (x.address .pins)).getLsbD j
    simp only [pwmWrite, hp, hx.2]
    rw [update_of_ne hne.symm]

theorem wanted_cons {old value : BitVec 32} (hvalue : e.parse K = .ok value) (j : ℕ) :
    wanted K old (e :: h) j = if e.pin = some j then decide (value ≠ 0) else wanted K old h j := by
  by_cases hpin : e.pin = some j
  · simp [wanted, lastSet, hpin, hvalue, Except.toOption]
  · simp [wanted, lastSet, hpin]

theorem pin_lt {i : ℕ} (hpin : e.pin = some i) : i < 2 := by
  cases e with
  | attr w a buffer => exact PwmAttr.pin_lt hpin
  | width w f buffer => cases hpin

theorem or_sets_iff {r m : BitVec 32} {i : ℕ} :
    (∀ j, (r.getLsbD j || m.getLsbD j) = if i = j then true else r.getLsbD j) ↔
      (r.getLsbD i ∨ m.getLsbD i) ∧ ∀ j ≠ i, m.getLsbD j → r.getLsbD j := by
  constructor
  · intro hbit
    refine ⟨?_, fun j hj hset => ?_⟩
    · have hb := hbit i
      rwa [if_pos rfl, Bool.or_eq_true] at hb
    · have hb := hbit j
      rw [if_neg (Ne.symm hj), hset, Bool.or_true] at hb
      exact hb.symm
  · rintro ⟨hset, hothers⟩ j
    by_cases hij : i = j
    · subst hij
      rwa [if_pos rfl, Bool.or_eq_true]
    · rw [if_neg hij]
      cases hb : m.getLsbD j with
      | false => rw [Bool.or_false]
      | true => rw [Bool.or_true, hothers j (Ne.symm hij) hb]

/-- A mask of 16 bits without bit `i` clears that bit and nothing else. -/
theorem mask_clears_iff {r : BitVec 32} {i : ℕ} (hi : i < 16) :
    (∀ j, (r.getLsbD j && decide (j ≠ i ∧ j < 16)) = if i = j then false else r.getLsbD j) ↔
      ∀ j, 16 ≤ j → r.getLsbD j = false := by
  constructor
  · intro hbit j hj
    have hb := hbit j
    rw [if_neg (by omega)] at hb
    simpa [show ¬ j < 16 by omega] using hb.symm
  · intro hhigh j
    by_cases hij : i = j
    · simp [hij]
    · rw [if_neg hij]
      rcases Nat.lt_or_ge j 16 with hj | hj
      · simp [hj, Ne.symm hij]
      · simp [hhigh j hj]

/-- A write takes the register from what is wanted before it to what is wanted after it, if and only if
it is clean. -/
theorem wanted_run (hon : e.On v address) (hparse : ∃ value, e.parse K = .ok value) {old : BitVec 32} {io : Io}
    (hbits : ∀ i, (io (address .pins)).getLsbD i = wanted K old h i) :
    (∀ i, ((e.run K v io).2 (address .pins)).getLsbD i = wanted K old (e :: h) i) ↔
      e.Clean K (io (address .pins)) := by
  obtain ⟨value, hvalue⟩ := hparse
  simp only [getLsbD_run hon hvalue, wanted_cons hvalue, ← hbits]
  generalize io (address .pins) = r
  cases hpin : e.pin with
  | none => simp [Clean, hpin]
  | some i =>
    have hclean : e.Clean K r ↔ if value ≠ 0 then
        (r.getLsbD i ∨ (value <<< i).getLsbD i) ∧ ∀ j ≠ i, (value <<< i).getLsbD j → r.getLsbD j
        else ∀ j, 16 ≤ j → r.getLsbD j = false := by
      simp [Clean, hpin, hvalue]
    rw [hclean]
    by_cases hzero : value = 0
    · simp only [hzero, ne_eq, not_true, ↓reduceIte, Option.some.injEq, decide_false]
      exact mask_clears_iff (Nat.lt_trans (pin_lt hpin) (by decide))
    · simp only [hzero, ne_eq, not_false_eq_true, ↓reduceIte, Option.some.injEq, decide_true]
      exact or_sets_iff

/-! ### Reads -/

/-- The text of each attribute is `0` if and only if its pin is. -/
def ReadsRight (v : DevT) (address : PwmReg → IoAddr) (io : Io) : Prop :=
  ∀ a i w p, PwmAttr.pin a = some i → w.Binds v address p →
    ((pwmSysRead w v a io 0).2 = [48] ↔ (io (address .pins)).getLsbD i = false)

/-- Both pins are wanted high, or the whole register is wanted 0. -/
def Told (K : Kstrto) (old : BitVec 32) (h : List PwmWrite) : Prop :=
  (wanted K old h 0 = true ∧ wanted K old h 1 = true) ∨ ∀ i, wanted K old h i = false

theorem pwmSysRead_eq_zero {w : World PwmReg} {p : Ptr} (hb : w.Binds v address p) {a : PwmAttr} {i : ℕ}
    (hpin : a.pin = some i) (io : Io) : (pwmSysRead w v a io 0).2 = [48] ↔ io (address .pins) = 0 := by
  obtain ⟨hw, -, -, x, hx, rfl, rfl⟩ := hb.entry
  rw [pwmSysRead_entry hw.entries hx, PwmAttr.reg_of_pin hpin]
  simp only [sysRead, copyOut_zero]
  exact printInt_eq_zero

theorem reads_right_iff {w : World PwmReg} {p : Ptr} (hb : w.Binds v address p) {old : BitVec 32} {io : Io}
    (hbits : ∀ i, (io (address .pins)).getLsbD i = wanted K old h i) :
    ReadsRight v address io ↔ Told K old h := by
  simp only [Told, ← hbits]
  generalize hr : io (address .pins) = r
  have hzero : r = 0 ↔ ∀ i, r.getLsbD i = false := by
    refine ⟨by rintro rfl i; simp, fun hno => BitVec.eq_of_getLsbD_eq fun i _ => ?_⟩
    rw [hno i]
    simp
  constructor
  · intro hreads
    by_cases hr0 : r = 0
    · exact .inr (hzero.1 hr0)
    · left
      have hset : ∀ a i, PwmAttr.pin a = some i → r.getLsbD i = true := fun a i hpin => by
        have hbit := hreads a i w p hpin hb
        rw [pwmSysRead_eq_zero hb hpin, hr] at hbit
        by_contra hlow
        exact hr0 (hbit.2 (by simpa using hlow))
      exact ⟨hset .DIRECTION 0 rfl, hset .ENABLE 1 rfl⟩
  · rintro htold a i w' p' hpin hb'
    rw [pwmSysRead_eq_zero hb' hpin, hr, hzero]
    rcases htold with ⟨h0, h1⟩ | hall
    · have hset : r.getLsbD i = true := by
        cases a <;> cases hpin
        · exact h1
        · exact h0
      exact iff_of_false (fun hall => by simp [hall i] at hset) (by simp [hset])
    · exact iff_of_true hall (hall i)

/-! ### Histories -/

/-- All writes of `h` are to the device, and succeed. -/
def Succeed (K : Kstrto) (v : DevT) (address : PwmReg → IoAddr) (io : Io) (h : List PwmWrite) : Prop :=
  ∀ e s, e :: s <:+ h → e.On v address ∧ (e.run K v (after K v io s)).1 = .returns e.buffer.length

/-- The pins register has the wanted bits, and the attributes show them. -/
def PinsRight (K : Kstrto) (v : DevT) (address : PwmReg → IoAddr) (io : Io) (h : List PwmWrite) : Prop :=
  (∀ i, (after K v io h (address .pins)).getLsbD i = wanted K (io (address .pins)) h i) ∧
    ReadsRight v address (after K v io h)

/-- After each write of a history of successful writes the attributes are two independent booleans, if
and only if each write was clean, and both pins are wanted high or the whole register 0 after it. -/
theorem pins_independent (K : Kstrto) (v : DevT) (address : PwmReg → IoAddr) (io : Io) (h : List PwmWrite)
    (hs : Succeed K v address io h) :
    (∀ e s, e :: s <:+ h → PinsRight K v address io (e :: s)) ↔
      ∀ e s, e :: s <:+ h → e.Clean K (after K v io s (address .pins)) ∧ Told K (io (address .pins)) (e :: s) := by
  have hbound : ∀ e s, e :: s <:+ h → ∃ w p, World.Binds w v address p := fun e s hes => by
    cases e with
    | attr w a buffer =>
      obtain ⟨p, hb⟩ := (hs _ s hes).1
      exact ⟨w, p, hb⟩
    | width w f buffer =>
      obtain ⟨p, hb, -⟩ := (hs _ s hes).1
      exact ⟨w, p, hb⟩
  have hstep : ∀ e s, e :: s <:+ h →
      (∀ i, (after K v io s (address .pins)).getLsbD i = wanted K (io (address .pins)) s i) →
      ((∀ i, (after K v io (e :: s) (address .pins)).getLsbD i = wanted K (io (address .pins)) (e :: s) i) ↔
        e.Clean K (after K v io s (address .pins))) := fun e s hes hbits =>
    wanted_run (hs e s hes).1 (parse_of_succeeds (hs e s hes).1 (hs e s hes).2) hbits
  constructor
  · intro hright e s hes
    have hbits : ∀ i, (after K v io s (address .pins)).getLsbD i = wanted K (io (address .pins)) s i := by
      cases s with
      | nil => exact fun i => rfl
      | cons e' s => exact (hright e' s ((List.suffix_cons _ _).trans hes)).1
    obtain ⟨w, p, hb⟩ := hbound e s hes
    exact ⟨(hstep e s hes hbits).1 (hright e s hes).1, (reads_right_iff hb (hright e s hes).1).1 (hright e s hes).2⟩
  · intro hclean
    have hbits : ∀ s, s <:+ h →
        ∀ i, (after K v io s (address .pins)).getLsbD i = wanted K (io (address .pins)) s i := by
      intro s hsh
      induction s with
      | nil => exact fun i => rfl
      | cons e s ih => exact (hstep e s hsh (ih ((List.suffix_cons _ _).trans hsh))).2 (hclean e s hsh).1
    intro e s hes
    obtain ⟨w, p, hb⟩ := hbound e s hes
    exact ⟨hbits _ hes, (reads_right_iff hb (hbits _ hes)).2 (hclean e s hes).2⟩

theorem binds_oneDevice :
    (oneDevice pwm).Binds ⟨240, 0⟩ (fun r => (⟨some 7, 0⟩ : IoAddr).add (pwm.offset r)) 1 :=
  ⟨oneDevice_reach pwm, ⟨0, 0x43C00000⟩, _, by decide, rfl, rfl, rfl⟩

theorem succeed_one {K : Kstrto} {v : DevT} {address : PwmReg → IoAddr} {io : Io} {e : PwmWrite}
    (hon : e.On v address) (hs : (e.run K v io).1 = .returns e.buffer.length) : Succeed K v address io [e] := by
  intro e' s hes
  obtain ⟨rfl, rfl⟩ : e' = e ∧ s = [] := by simpa [List.suffix_cons_iff] using hes
  exact ⟨hon, hs⟩

theorem pins_independent_enable :
    let address := fun r => (⟨some 7, 0⟩ : IoAddr).add (pwm.offset r)
    let h := [attr (oneDevice pwm) .ENABLE [49]]
    (∀ e s, e :: s <:+ h → PinsRight decimal ⟨240, 0⟩ address (fun _ => 1) (e :: s)) ↔
      ∀ e s, e :: s <:+ h → e.Clean decimal (after decimal ⟨240, 0⟩ (fun _ => 1) s (address .pins)) ∧
        Told decimal 1 (e :: s) :=
  pins_independent decimal ⟨240, 0⟩ _ _ _ (succeed_one ⟨1, binds_oneDevice⟩ (by decide))

/-- A `DIRECTION` of 2 turns the motor on, and with `DIRECTION` 1 an `ENABLE` that is off does not read 0. -/
theorem pins_not_independent :
    ¬ (∀ K v address io h, Succeed K v address io h → ∀ e s, e :: s <:+ h →
      ∀ i, (after K v io (e :: s) (address .pins)).getLsbD i = wanted K (io (address .pins)) (e :: s) i) ∧
    ¬ ∀ K v address io h, Succeed K v address io h → ∀ e s, e :: s <:+ h →
      ReadsRight v address (after K v io (e :: s)) := by
  constructor
  · intro hall
    have hbit := hall decimal ⟨240, 0⟩ _ (fun _ => 0) [attr (oneDevice pwm) .DIRECTION [50]]
      (succeed_one ⟨1, binds_oneDevice⟩ (by decide)) _ [] List.suffix_rfl 1
    exact absurd hbit (by decide)
  · intro hall
    have hread := hall decimal ⟨240, 0⟩ _ (fun _ => 0) [attr (oneDevice pwm) .DIRECTION [49]]
      (succeed_one ⟨1, binds_oneDevice⟩ (by decide)) _ [] List.suffix_rfl .ENABLE 1 (oneDevice pwm) 1 rfl
      binds_oneDevice
    exact absurd (hread.2 (by decide)) (by decide)

end PwmWrite

end Dcs
