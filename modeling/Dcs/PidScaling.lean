import Dcs.Isolation

/-!
# Gains, setpoints and status words of PID

The hardware divides by 100000, so the handlers multiply what they store by 100000 and divide what they
read. The product is not checked against the 32 bits of the register, the quotient is one of unsigned
numbers, and the status words go through the same division although they are flags.
-/

namespace Dcs
open Function Decimal

def PidAttr.Gain (a : PidAttr) : Prop := a = .P ∨ a = .I ∨ a = .D

instance (a : PidAttr) : Decidable a.Gain := inferInstanceAs (Decidable (_ ∨ _))

theorem PidAttr.Gain.writable {a : PidAttr} (ha : a.Gain) : a.Writable := by
  rcases ha with rfl | rfl | rfl <;> decide

theorem PidAttr.Gain.readable {a : PidAttr} (ha : a.Gain) : a.Readable := by
  rcases ha with rfl | rfl | rfl <;> decide

/-! ### Exact products -/

/-- A call on the number `v` has stored exactly `100000 * v` at `b` and succeeded, or has failed and
stored nothing. -/
def StoresScaled (io : Io) (b : IoAddr) (v : ℤ) (r : Outcome × Io) : Prop :=
  ((∃ n, 0 ≤ n ∧ r.1 = .returns n) ∧ (-2 ^ 31 ≤ 100000 * v ∧ 100000 * v ≤ 2 ^ 31 - 1) ∧
    r.2 = update io b (.ofInt 32 (100000 * v))) ∨
  (∃ n, n < 0 ∧ r.1 = .returns n) ∧ r.2 = io

theorem ofInt_scaled (value : BitVec 32) : BitVec.ofInt 32 (100000 * value.toInt) = value * 100000 := by
  rw [mul_comm, BitVec.ofInt_mul, BitVec.ofInt_toInt]
  rfl

theorem storesScaled_iff (io : Io) (b : IoAddr) (value : BitVec 32) (count : ℕ) :
    StoresScaled io b value.toInt (.returns count, update io b (value * 100000)) ↔
      -21474 ≤ value.toInt ∧ value.toInt ≤ 21474 := by
  have hband : (-2 ^ 31 ≤ 100000 * value.toInt ∧ 100000 * value.toInt ≤ 2 ^ 31 - 1) ↔
      -21474 ≤ value.toInt ∧ value.toInt ≤ 21474 := by
    omega
  rw [← hband]
  refine ⟨fun h => ?_, fun h => .inl ⟨⟨count, Int.natCast_nonneg count, rfl⟩, h, by rw [ofInt_scaled]⟩⟩
  rcases h with ⟨-, h, -⟩ | ⟨⟨n, hn, heq⟩, -⟩
  · exact h
  · cases heq
    omega

section
variable {K : Kstrto}

theorem pidWrite_parsed {w : World PidReg} {f : FileId} {p : Ptr} {x : DevData PidReg}
    (hp : w.files f >>= File.privateData = some p) (hx : w.heap p = some x) {buffer : Buffer}
    {value : BitVec 32} (hvalue : K.kstrtointFromUser buffer = .ok value) (junk : BitVec 32) (io : Io) :
    pidWrite K w f buffer junk io =
      (.returns buffer.length, update io (x.address .setpoint) (value * 100000)) := by
  simp only [pidWrite, hp, hx, hvalue, parsed]
  rfl

theorem pidSysSet_parsed {w : World PidReg} (hw : w.Entries) {p : Ptr} {x : DevData PidReg} (hx : w.Entry p x)
    {a : PidAttr} (ha : a.Writable) {buffer : Buffer} {value : BitVec 32} (hvalue : K.kstrtoint buffer = .ok value)
    (io : Io) :
    pidSysSet K w x.devt a buffer io =
      (.returns buffer.length, update io (x.address a.reg) (value * 100000)) := by
  rw [pidSysSet_entry hw hx ha, hvalue]
  rfl

end

/-- For every text that parses, `PID_write` and `sys_set_node` store the exact product or reject the
number if and only if the product is one that the register can hold; there is no rejection. -/
theorem scaled_exact (K : Kstrto) (buffer : Buffer) (value : BitVec 32) (io : Io) :
    (∀ w f p x junk, w.files f >>= File.privateData = some p → w.heap p = some x →
      K.kstrtointFromUser buffer = .ok value →
      (StoresScaled io (x.address .setpoint) value.toInt (pidWrite K w f buffer junk io) ↔
        -21474 ≤ value.toInt ∧ value.toInt ≤ 21474)) ∧
    ∀ w p x a, Lts.Reach (drive pid) (fun _ _ => True) w → w.Entry p x → PidAttr.Gain a →
      K.kstrtoint buffer = .ok value →
      (StoresScaled io (x.address a.reg) value.toInt (pidSysSet K w x.devt a buffer io) ↔
        -21474 ≤ value.toInt ∧ value.toInt ≤ 21474) := by
  refine ⟨fun w f p x junk hp hx hvalue => ?_, fun w p x a hw hx ha hvalue => ?_⟩
  · rw [pidWrite_parsed hp hx hvalue]
    exact storesScaled_iff io _ value buffer.length
  · rw [pidSysSet_parsed (World.Wf.of_reach hw).entries hx ha.writable hvalue]
    exact storesScaled_iff io _ value buffer.length

theorem onePid_listed : ∃ x, (oneDevice pid).Entry 1 x ∧ x.devt = ⟨240, 0⟩ ∧ x.address .P = ⟨some 7, 1⟩ :=
  ⟨_, ⟨by decide, rfl⟩, rfl, rfl⟩

theorem scaled_exact_five :
    ∃ x, (oneDevice pid).Entry 1 x ∧
      StoresScaled (fun _ => 0) (x.address .P) 5 (pidSysSet decimal (oneDevice pid) x.devt .P [53] fun _ => 0) := by
  obtain ⟨x, hx, -, -⟩ := onePid_listed
  have hvalue : decimal.kstrtoint [53] = .ok 5 := by decide
  exact ⟨x, hx, ((scaled_exact decimal [53] 5 fun _ => 0).2 (oneDevice pid) 1 x .P (oneDevice_reach pid) hx
    (by decide) hvalue).2 (by decide)⟩

/-- The text `21475` is accepted, and stored as a negative number. -/
theorem scaled_wraps :
    ¬ (∀ buffer value w f p x junk io, w.files f >>= File.privateData = some p → w.heap p = some x →
      decimal.kstrtointFromUser buffer = .ok value →
      StoresScaled io (x.address .setpoint) value.toInt (pidWrite decimal w f buffer junk io)) ∧
    ¬ ∀ buffer value w p x a io, Lts.Reach (drive pid) (fun _ _ => True) w → w.Entry p x → PidAttr.Gain a →
      decimal.kstrtoint buffer = .ok value →
      StoresScaled io (x.address a.reg) value.toInt (pidSysSet decimal w x.devt a buffer io) := by
  refine ⟨fun h => ?_, fun h => ?_⟩
  · have hvalue : decimal.kstrtointFromUser [50, 49, 52, 55, 53] = .ok 21475 := by decide
    have hopen : ((oneDevice pid).open 0 ⟨240, 0⟩).1.files 0 >>= File.privateData = some 1 := by decide
    have hstore := h _ _ _ 0 1 _ 0 (fun _ => 0) hopen rfl hvalue
    rw [pidWrite_parsed hopen rfl hvalue] at hstore
    exact absurd ((storesScaled_iff _ _ _ _).1 hstore) (by decide)
  · have hvalue : decimal.kstrtoint [50, 49, 52, 55, 53] = .ok 21475 := by decide
    obtain ⟨x, hx, -, -⟩ := onePid_listed
    have hstore := h _ _ _ 1 x .P (fun _ => 0) (oneDevice_reach pid) hx (by decide) hvalue
    rw [pidSysSet_parsed (World.Wf.of_reach (oneDevice_reach pid)).entries hx (by decide) hvalue] at hstore
    exact absurd ((storesScaled_iff _ _ _ _).1 hstore) (by decide)

/-! ### Reading a gain back -/

theorem toNat_scaled {v : ℤ} (hv : -21474 ≤ v ∧ v ≤ 21474) :
    ((BitVec.ofInt 32 (100000 * v)).toNat : ℤ) = if 0 ≤ v then 100000 * v else 2 ^ 32 + 100000 * v := by
  rw [BitVec.toNat_ofInt, Int.toNat_of_nonneg (by omega)]
  split <;> omega

/-- The unsigned quotient of an exact product: it has lost the sign. -/
theorem printInt_scaled {v : ℤ} (hv : -21474 ≤ v ∧ v ≤ 21474) :
    printInt (.ofInt 32 (100000 * v) / 100000) = intText (if 0 ≤ v then v else 42949 + v) := by
  have hword := toNat_scaled hv
  have hquot : ((BitVec.ofInt 32 (100000 * v) / 100000).toNat : ℤ) = if 0 ≤ v then v else 42949 + v := by
    rw [BitVec.toNat_udiv, Int.natCast_ediv, hword, show ((100000 : BitVec 32).toNat : ℤ) = 100000 from rfl]
    split <;> omega
  unfold printInt
  rw [BitVec.toInt_eq_toNat_of_lt, hquot]
  split at hquot <;> omega

section
variable {w : World PidReg} {p : Ptr} {x : DevData PidReg}

theorem entries_single (hlist : w.deviceList = [p]) (hx : w.heap p = some x) : w.Entries := by
  have heq : ∀ {q y}, w.Entry q y → q = p := fun {q y} hq => List.mem_singleton.1 (hlist ▸ hq.1)
  refine ⟨by simp [hlist], fun q hq => ?_, fun q r y z hy hz _ => (heq hy).trans (heq hz).symm⟩
  rw [hlist, List.mem_singleton] at hq
  exact ⟨x, hq ▸ hx⟩

theorem pidReadAddress_single (hlist : w.deviceList = [p]) (hx : w.heap p = some x) {a : PidAttr}
    (ha : a.Readable) : pidReadAddress w x.devt a = .ok (x.address a.reg) := by
  have hw := entries_single hlist hx
  by_cases hPI : a = .P ∨ a = .I
  · exact pidReadAddress_last hw hPI (by rw [hlist]; rfl) hx x.devt
  · exact pidReadAddress_own hw ⟨by rw [hlist]; exact List.mem_singleton_self p, hx⟩ ha hPI

end

/-- On a single device the text of a gain comes back if and only if the gain is not negative. -/
theorem gain_read_back (K : Kstrto) (w : World PidReg) (p : Ptr) (x : DevData PidReg) (a : PidAttr) (v : ℤ)
    (buffer : Buffer) (io : Io) (hlist : w.deviceList = [p]) (hx : w.heap p = some x) (ha : a.Gain)
    (hv : -21474 ≤ v ∧ v ≤ 21474) (hparse : K.kstrtoint buffer = .ok (.ofInt 32 v)) :
    (pidSysSet K w x.devt a buffer io).1 = .returns buffer.length ∧
      (pidSysRead w x.devt a (pidSysSet K w x.devt a buffer io).2 0 =
        (.returns (intText v).length, intText v) ↔ 0 ≤ v) := by
  have hentry : w.Entry p x := ⟨by rw [hlist]; exact List.mem_singleton_self p, hx⟩
  have hword : (.ofInt 32 v * 100000 : BitVec 32) = .ofInt 32 (100000 * v) := by
    rw [mul_comm, BitVec.ofInt_mul]
    rfl
  rw [pidSysSet_parsed (entries_single hlist hx) hentry ha.writable hparse, pidSysRead,
    pidReadAddress_single hlist hx ha.readable, hword]
  simp only [sysRead, update_self, copyOut_zero, printInt_scaled hv, Prod.mk.injEq, intText_inj, true_and]
  split
  · rename_i h
    simp [h]
  · rename_i h
    refine iff_of_false (fun heq => ?_) h
    omega

theorem gain_read_back_five :
    pidSysRead (oneDevice pid) ⟨240, 0⟩ .P (pidSysSet decimal (oneDevice pid) ⟨240, 0⟩ .P [53] fun _ => 0).2 0 =
      (.returns (intText 5).length, intText 5) := by
  obtain ⟨x, hx, hv, -⟩ := onePid_listed
  have hparse : decimal.kstrtoint [53] = .ok (.ofInt 32 5) := by decide
  rw [← hv]
  exact (gain_read_back decimal (oneDevice pid) 1 x .P 5 [53] (fun _ => 0) rfl hx.2 (by decide) (by decide)
    hparse).2.2 (by decide)

/-- The gain `-1` comes back as `42948`. -/
theorem gain_not_read_back :
    ¬ ∀ w p x a v io, World.deviceList w = [p] → w.heap p = some x → PidAttr.Gain a →
      -21474 ≤ v ∧ v ≤ 21474 →
      pidSysRead w x.devt a (pidSysSet decimal w x.devt a (intText v) io).2 0 =
        (.returns (intText v).length, intText v) := by
  intro h
  obtain ⟨x, hx, -, -⟩ := onePid_listed
  have hread := h (oneDevice pid) 1 x .P (-1) (fun _ => 0) rfl hx.2 (by decide) (by decide)
  have hparse : decimal.kstrtoint (intText (-1)) = .ok (.ofInt 32 (-1)) := kstrtoint_intText (by decide)
  rw [pidSysSet_parsed (entries_single rfl hx.2) hx (by decide) hparse, pidSysRead,
    pidReadAddress_single rfl hx.2 (by decide)] at hread
  simp only [sysRead, update_self, copyOut_zero, Prod.mk.injEq] at hread
  exact absurd hread.2 (by decide)

/-! ### Status words -/

def PidAttr.Status (a : PidAttr) : Prop := a = .State ∨ a = .Emerg

instance (a : PidAttr) : Decidable a.Status := inferInstanceAs (Decidable (_ ∨ _))

theorem pidSysRead_status {w : World PidReg} (hw : w.Entries) {p : Ptr} {x : DevData PidReg} (hx : w.Entry p x)
    {a : PidAttr} (ha : a.Status) (io : Io) :
    (pidSysRead w x.devt a io 0).2 = printInt (io (x.address a.reg) / 100000) := by
  have haddr : pidReadAddress w x.devt a = .ok (x.address a.reg) := by
    rcases ha with rfl | rfl <;> exact pidReadAddress_own hw hx (by decide) (by decide)
  simp [pidSysRead, haddr, sysRead]

theorem quotient_eq_zero (word : BitVec 32) : word / 100000 = 0 ↔ word.toNat < 100000 := by
  rw [← BitVec.toNat_inj, BitVec.toNat_udiv]
  exact Nat.div_eq_zero_iff_lt (by decide)

def neighbour (word : BitVec 32) : BitVec 32 := if word.toNat % 100000 = 0 then word + 1 else word - 1

theorem neighbour_ne (word : BitVec 32) : neighbour word ≠ word := by
  unfold neighbour
  split <;> bv_omega

theorem neighbour_quotient (word : BitVec 32) : neighbour word / 100000 = word / 100000 := by
  have hlt := word.isLt
  rw [← BitVec.toNat_inj, BitVec.toNat_udiv, BitVec.toNat_udiv, neighbour,
    show (100000 : BitVec 32).toNat = 100000 from rfl]
  split <;> bv_omega

/-- Whatever a status word is, another one has the same text, and the text is `0` for every word
below 100000: no flag in one of the bits 0 to 16 is visible alone. -/
theorem status_hidden (w : World PidReg) (hw : Lts.Reach (drive pid) (fun _ _ => True) w) (p : Ptr)
    (x : DevData PidReg) (hx : w.Entry p x) (a : PidAttr) (ha : a.Status) (io : Io) (word : BitVec 32) :
    ¬ (∀ word', (pidSysRead w x.devt a (update io (x.address a.reg) word') 0).2 =
        (pidSysRead w x.devt a (update io (x.address a.reg) word) 0).2 → word' = word) ∧
    ((pidSysRead w x.devt a (update io (x.address a.reg) word) 0).2 = [48] ↔ word.toNat < 100000) := by
  have htext : ∀ word', (pidSysRead w x.devt a (update io (x.address a.reg) word') 0).2 =
      printInt (word' / 100000) := fun word' => by
    rw [pidSysRead_status (World.Wf.of_reach hw).entries hx ha, update_self]
  refine ⟨fun h => neighbour_ne word (h _ ?_), ?_⟩
  · rw [htext, htext, neighbour_quotient]
  · rw [htext, printInt_eq_zero, quotient_eq_zero]

theorem status_hidden_zero :
    ∃ x, (oneDevice pid).Entry 1 x ∧
      (pidSysRead (oneDevice pid) x.devt .Emerg (update (fun _ => 0) (x.address .emerg) 1) 0).2 = [48] := by
  obtain ⟨x, hx, -, -⟩ := onePid_listed
  exact ⟨x, hx, (status_hidden (oneDevice pid) (oneDevice_reach pid) 1 x hx .Emerg (by decide) _ 1).2.2
    (by decide)⟩

/-- An emergency flag in bit 0 reads as `0`. -/
theorem status_not_visible :
    ¬ ∀ w p x a io word, Lts.Reach (drive pid) (fun _ _ => True) w → w.Entry p x → PidAttr.Status a →
      (pidSysRead w x.devt a (update io (x.address a.reg) word) 0).2 = [48] → word = 0 := by
  intro h
  obtain ⟨x, hx, -, -⟩ := onePid_listed
  have hzero := h (oneDevice pid) 1 x .Emerg (fun _ => 0) 1 (oneDevice_reach pid) hx (by decide) ?_
  · exact absurd hzero (by decide)
  · rw [pidSysRead_status (World.Wf.of_reach (oneDevice_reach pid)).entries hx (by decide), update_self]
    decide

end Dcs
