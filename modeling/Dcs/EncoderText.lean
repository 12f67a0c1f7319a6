import Dcs.Reads
import Mathlib.Data.Nat.Log

/-!
# `Encoder_itoa`

The digits are stored in `data` from the last one on, and copied back from the first that is not zero.
The inner loop that copies them makes one round more than there are digits, so it always reads the byte in
front of `data`; a newline replaces it. No digit of 0 is found, and no text is made of it.
-/

namespace Dcs
open Function Decimal

/-- The variables of `Encoder_itoa` and the indices that have been used on the arrays. An index outside
of `data` reads what is there in memory. -/
structure Itoa where
  data : ℤ → UInt8
  intArray : ℤ → UInt8
  tmp : ℤ
  dataUsed : List ℤ
  intArrayUsed : List ℤ

namespace Itoa

def useData (s : Itoa) (i : ℤ) : Itoa := { s with dataUsed := i :: s.dataUsed }

def setIntArray (s : Itoa) (j : ℤ) (c : UInt8) : Itoa :=
  { s with intArray := update s.intArray j c, intArrayUsed := j :: s.intArrayUsed }

/-- The body of the first loop. -/
def divide (s : Itoa) (i : ℕ) : Itoa :=
  { s.useData i with data := update s.data i (.ofInt (48 + s.tmp.tmod 10)), tmp := s.tmp.tdiv 10 }

/-- `int_array[j] = data[9-i-j]`. -/
def copy (i : ℕ) (s : Itoa) (j : ℕ) : Itoa := (s.useData (9 - i - j)).setIntArray j (s.data (9 - i - j))

/-- What the second loop does when it has found a digit. -/
def flip (s : Itoa) (i : ℕ) : Itoa :=
  let s := (List.range (11 - i)).foldl (copy i) s
  let j : ℕ := 11 - i
  if j < 11 then (s.setIntArray (j - 1) 10).setIntArray j 0
  else (s.setIntArray 10 10).setIntArray 11 0

/-- The second loop, from `i` on for `n` rounds. -/
def trim (s : Itoa) (i : ℕ) : ℕ → Itoa
  | 0 => s
  | n + 1 => if s.data (9 - i) ≠ 48 then (s.useData (9 - i)).flip i else (s.useData (9 - i)).trim (i + 1) n

/-- Both loops; `memory` is what is in and around `data` before. -/
def run (value : BitVec 32) (memory : ℤ → UInt8) : Itoa :=
  ((List.range 11).foldl divide ⟨memory, fun _ => 0, value.toInt, [], []⟩).trim 0 11

end Itoa

/-- `strcpy`: the source up to its first zero, which is copied too. -/
def strcpy (target source : Buffer) : Buffer :=
  let text := source.takeWhile (· ≠ 0) ++ [0]
  text ++ target.drop text.length

def encoderItoa (value : BitVec 32) (memory : ℤ → UInt8) (buffer : Buffer) : Buffer :=
  strcpy buffer ((List.range 12).map fun j : ℕ => (Itoa.run value memory).intArray j)

namespace Itoa
variable {s : Itoa}

/-! ### The indices -/

/-- The indices used so far are in these ranges, and `int_array` still ends with a zero. -/
structure Inside (s : Itoa) : Prop where
  dataUsed : ∀ k ∈ s.dataUsed, -1 ≤ k ∧ k ≤ 10
  intArrayUsed : ∀ k ∈ s.intArrayUsed, 0 ≤ k ∧ k ≤ 11
  closing : s.intArray 11 = 0

theorem Inside.useData (hs : s.Inside) {i : ℤ} (hi : -1 ≤ i ∧ i ≤ 10) : (s.useData i).Inside :=
  ⟨List.forall_mem_cons.2 ⟨hi, hs.dataUsed⟩, hs.intArrayUsed, hs.closing⟩

theorem Inside.setIntArray (hs : s.Inside) {j : ℤ} (hj : 0 ≤ j ∧ j ≤ 11) {c : UInt8} (hc : j = 11 → c = 0) :
    (s.setIntArray j c).Inside := by
  refine ⟨hs.dataUsed, List.forall_mem_cons.2 ⟨hj, hs.intArrayUsed⟩, ?_⟩
  by_cases h : j = 11
  · simp [Itoa.setIntArray, h, hc h]
  · simp [Itoa.setIntArray, Ne.symm h, hs.closing]

theorem Inside.divide (hs : s.Inside) {i : ℕ} (hi : i < 11) : (s.divide i).Inside :=
  ⟨List.forall_mem_cons.2 ⟨by omega, hs.dataUsed⟩, hs.intArrayUsed, hs.closing⟩

theorem Inside.copy (hs : s.Inside) {i j : ℕ} (hj : j < 11 - i) : (s.copy i j).Inside :=
  (hs.useData (by omega)).setIntArray (by omega) (by omega)

theorem Inside.foldl {f : Itoa → ℕ → Itoa} {n : ℕ} (hf : ∀ t j, j < n → Inside t → Inside (f t j))
    (hs : s.Inside) : ((List.range n).foldl f s).Inside := by
  induction n with
  | zero => exact hs
  | succ n ih =>
    rw [List.range_succ, List.foldl_append]
    exact hf _ n (Nat.lt_succ_self n) (ih fun t j hj ht => hf t j (Nat.lt_succ_of_lt hj) ht)

theorem Inside.flip (hs : s.Inside) {i : ℕ} (hi : i < 11) : (s.flip i).Inside := by
  have hcopied := hs.foldl (n := 11 - i) fun t j hj ht => Inside.copy ht hj
  simp only [Itoa.flip]
  split
  · exact (hcopied.setIntArray (by omega) (by omega)).setIntArray (by omega) fun _ => rfl
  · exact (hcopied.setIntArray (by omega) (by omega)).setIntArray (by omega) fun _ => rfl

theorem Inside.trim (hs : s.Inside) {i n : ℕ} (h : i + n = 11) : (s.trim i n).Inside := by
  induction n generalizing s i with
  | zero => exact hs
  | succ n ih =>
    have hused : (s.useData (9 - i)).Inside := hs.useData (by omega)
    rw [Itoa.trim]
    split
    · exact hused.flip (by omega)
    · exact ih hused (by omega)

theorem inside_run (value : BitVec 32) (memory : ℤ → UInt8) : (run value memory).Inside := by
  have hstart : Inside ⟨memory, fun _ => 0, value.toInt, [], []⟩ := ⟨by simp, by simp, rfl⟩
  exact (hstart.foldl fun t i hi ht => Inside.divide ht hi).trim rfl

/-- The last round of the inner loop reads in front of `data`. -/
theorem flip_reads (s : Itoa) {i : ℕ} (hi : i < 11) : -1 ∈ (s.flip i).dataUsed := by
  obtain ⟨m, hm⟩ : ∃ m, 11 - i = m + 1 := ⟨10 - i, by omega⟩
  have hindex : (9 - i - m : ℤ) = -1 := by omega
  have hlast : -1 ∈ ((List.range (11 - i)).foldl (copy i) s).dataUsed := by
    rw [hm, List.range_succ, List.foldl_append]
    exact hindex ▸ List.mem_cons_self
  unfold flip
  dsimp only
  split <;> exact hlast

theorem trim_reads (s : Itoa) {i n : ℕ} (hn : 0 < n) (h : i + n = 11) : -1 ∈ (s.trim i n).dataUsed := by
  induction n generalizing s i with
  | zero => exact absurd hn (lt_irrefl 0)
  | succ n ih =>
    rw [trim]
    split
    · exact flip_reads _ (by omega)
    · rcases Nat.eq_zero_or_pos n with rfl | hn
      · -- no digit has been found, and `9 - i` is the index in front of `data`
        obtain rfl : i = 10 := by omega
        exact List.mem_cons_self
      · exact ih _ hn (by omega)

theorem closing_zero (value : BitVec 32) (memory : ℤ → UInt8) :
    0 ∈ (List.range 12).map fun j : ℕ => (run value memory).intArray j :=
  List.mem_map.2 ⟨11, by decide, (inside_run value memory).closing⟩

/-- For every number `data` is read at the index -1, and nowhere else outside of its 11 elements; the
indices on `int_array` are inside, and the last of its 12 elements is zero. -/
theorem itoa_indices (value : BitVec 32) (memory : ℤ → UInt8) :
    ¬ (∀ k ∈ (run value memory).dataUsed, 0 ≤ k ∧ k ≤ 10) ∧
    (∀ k ∈ (run value memory).dataUsed, -1 ≤ k ∧ k ≤ 10) ∧
    (∀ k ∈ (run value memory).intArrayUsed, 0 ≤ k ∧ k ≤ 11) ∧
    0 ∈ (List.range 12).map fun j : ℕ => (run value memory).intArray j := by
  have hinside := inside_run value memory
  refine ⟨fun h => ?_, hinside.dataUsed, hinside.intArrayUsed, closing_zero value memory⟩
  exact absurd (h (-1) (trim_reads _ (by decide) rfl)).1 (by decide)

theorem itoa_outside :
    ¬ ∀ value memory, ∀ k ∈ (run value memory).dataUsed, 0 ≤ k ∧ k ≤ 10 := fun h =>
  absurd (h 5 (fun _ => 0) (-1) (by decide)).1 (by decide)

/-! ### The digits -/

/-- The first `n` digits of `v`, from the last one on, are in `data`. -/
structure Digits (s : Itoa) (v n : ℕ) : Prop where
  tmp : s.tmp = (v / 10 ^ n : ℕ)
  data : ∀ k : ℕ, k < n → s.data k = .ofNat (48 + v / 10 ^ k % 10)
  blank : s.intArray = fun _ => 0

theorem Digits.divide {v n : ℕ} (hs : s.Digits v n) : (s.divide n).Digits v (n + 1) := by
  refine ⟨?_, fun k hk => ?_, hs.blank⟩
  · show s.tmp.tdiv 10 = _
    rw [hs.tmp, Int.tdiv_eq_ediv_of_nonneg (Int.natCast_nonneg _), Nat.pow_succ, ← Nat.div_div_eq_div_mul]
    rfl
  · show update s.data n _ k = _
    by_cases hkn : k = n
    · subst hkn
      have hchar : ∀ d < 10, UInt8.ofInt (48 + (d : ℕ)) = UInt8.ofNat (48 + d) := by decide
      rw [update_self, hs.tmp, Int.tmod_eq_emod_of_nonneg (Int.natCast_nonneg _)]
      exact hchar _ (Nat.mod_lt _ (by decide))
    · rw [update_of_ne (by exact_mod_cast hkn)]
      exact hs.data k (by omega)

theorem digits_divide {v : ℕ} (memory : ℤ → UInt8) (n : ℕ) :
    ((List.range n).foldl divide ⟨memory, fun _ => 0, v, [], []⟩).Digits v n := by
  induction n with
  | zero => exact ⟨by simp, fun k hk => absurd hk (Nat.not_lt_zero k), rfl⟩
  | succ n ih =>
    rw [List.range_succ, List.foldl_append]
    exact ih.divide

theorem copied (s : Itoa) (i n : ℕ) (j : ℕ) :
    ((List.range n).foldl (copy i) s).intArray j = if j < n then s.data (9 - i - j) else s.intArray j := by
  have hdata : ∀ n, ((List.range n).foldl (copy i) s).data = s.data := fun n => by
    induction n with
    | zero => rfl
    | succ n ih => rw [List.range_succ, List.foldl_append]; exact ih
  induction n with
  | zero => rfl
  | succ n ih =>
    rw [List.range_succ, List.foldl_append]
    show update ((List.range n).foldl (copy i) s).intArray n _ j = _
    by_cases hjn : j = n
    · rw [hjn, update_self, hdata, if_pos (Nat.lt_succ_self n)]
    · rw [update_of_ne (by exact_mod_cast hjn), ih]
      exact if_congr (by omega) rfl rfl

theorem setIntArray_end (s : Itoa) (a b j : ℤ) : ((s.setIntArray a 10).setIntArray b 0).intArray j =
    if j = b then 0 else if j = a then 10 else s.intArray j := by
  simp only [setIntArray, update_apply]

/-- The text that a digit at `9 - i` makes: the digits up to it in reverse order, and a newline. -/
theorem flip_intArray (s : Itoa) {d : ℕ} (hd : d < 10) (j : ℕ) : (s.flip (9 - d)).intArray j =
    if j < d + 1 then s.data (d - j) else if j = d + 1 then 10 else if j = d + 2 then 0 else s.intArray j := by
  have hindex : (9 - (9 - d : ℕ) - j : ℤ) = d - j := by omega
  have hrounds : 11 - (9 - d) = d + 2 := by omega
  have hcopied := copied s (9 - d) (11 - (9 - d)) j
  rw [hindex, hrounds] at hcopied
  have hend : (s.flip (9 - d)).intArray j =
      if (j : ℤ) = d + 2 then 0 else if (j : ℤ) = d + 1 then 10
      else ((List.range (d + 2)).foldl (copy (9 - d)) s).intArray j := by
    unfold flip
    dsimp only
    rw [hrounds]
    split
    · rw [← setIntArray_end, show ((d + 2 : ℕ) : ℤ) = d + 2 by omega, show (d + 2 - 1 : ℤ) = d + 1 by omega]
    · obtain rfl : d = 9 := by omega
      exact setIntArray_end _ 10 11 j
  rw [hend, hcopied]
  split_ifs <;> first | rfl | omega

theorem trim_skip {i m n : ℕ} (hzero : ∀ k < m, s.data (9 - (i + k : ℕ)) = 48) :
    ∃ used, s.trim i (m + n) = { s with dataUsed := used }.trim (i + m) n := by
  induction m generalizing s i with
  | zero => exact ⟨s.dataUsed, by rw [Nat.zero_add, Nat.add_zero]⟩
  | succ m ih =>
    obtain ⟨used, hused⟩ := ih (s := s.useData (9 - i)) (i := i + 1) fun k hk => by
      rw [Nat.add_assoc, Nat.add_comm 1 k]
      exact hzero (k + 1) (by omega)
    have hfirst : s.data (9 - i) = 48 := hzero 0 (Nat.succ_pos m)
    refine ⟨used, ?_⟩
    rw [Nat.succ_add, trim, if_neg (not_not_intro hfirst), hused, Nat.add_assoc, Nat.add_comm 1 m]
    rfl

theorem lt_ten {v d : ℕ} (hlow : 10 ^ d ≤ v) (hv : v < 2 ^ 31) : d < 10 := by
  by_contra h
  have hpow : 10 ^ 10 ≤ 10 ^ d := Nat.pow_le_pow_right (by decide) (Nat.le_of_not_lt h)
  omega

theorem run_intArray {v d : ℕ} (hlow : 10 ^ d ≤ v) (hhigh : v < 10 ^ (d + 1)) (hv : v < 2 ^ 31)
    (memory : ℤ → UInt8) (j : ℕ) : (run (.ofNat 32 v) memory).intArray j =
      if j < d + 1 then .ofNat (48 + v / 10 ^ (d - j) % 10) else if j = d + 1 then 10 else 0 := by
  have hd := lt_ten hlow hv
  have hvalue : (BitVec.ofNat 32 v).toInt = v := by
    rw [← BitVec.ofInt_natCast, BitVec.toInt_ofInt, Int.bmod_eq_of_le (by omega) (by omega)]
  have hdigits := digits_divide (v := v) memory 11
  unfold run
  rw [hvalue]
  generalize (List.range 11).foldl divide ⟨memory, fun _ => 0, v, [], []⟩ = s at hdigits
  have hzero : ∀ k < 9 - d, s.data (9 - (0 + k : ℕ)) = 48 := fun k hk => by
    have hpow : v < 10 ^ (9 - k) := hhigh.trans_le (Nat.pow_le_pow_right (by decide) (by omega))
    rw [show (9 - (0 + k : ℕ) : ℤ) = (9 - k : ℕ) by omega, hdigits.data _ (by omega), Nat.div_eq_of_lt hpow]
    rfl
  have hfound : s.data (9 - (0 + (9 - d) : ℕ)) ≠ 48 := by
    have hfirst : 0 < v / 10 ^ d := Nat.div_pos hlow (Nat.pow_pos (by decide))
    have hdigit : v / 10 ^ d < 10 := Nat.div_lt_of_lt_mul (by rwa [← Nat.pow_succ])
    have hchar : ∀ c < 10, 0 < c → UInt8.ofNat (48 + c % 10) ≠ 48 := by decide
    rw [show (9 - (0 + (9 - d) : ℕ) : ℤ) = (d : ℕ) by omega, hdigits.data _ (by omega)]
    exact hchar _ hdigit hfirst
  obtain ⟨used, hused⟩ := trim_skip (n := d + 2) hzero
  rw [show 9 - d + (d + 2) = 11 by omega] at hused
  rw [hused, trim, if_pos hfound, Nat.zero_add, flip_intArray _ hd]
  have hblank : s.intArray j = 0 := by rw [hdigits.blank]
  have hdata : j < d + 1 → s.data (d - j) = .ofNat (48 + v / 10 ^ (d - j) % 10) := fun hj => by
    rw [show (d - j : ℤ) = (d - j : ℕ) by omega]
    exact hdigits.data _ (by omega)
  split_ifs with hj h1 h2
  · exact hdata hj
  · rfl
  · rfl
  · exact hblank

/-- For 0 no digit is found in `data`, and the first character is at most the newline. -/
theorem run_zero (memory : ℤ → UInt8) : (run 0 memory).intArray 0 = 0 ∨ (run 0 memory).intArray 0 = 10 := by
  have hdigits := digits_divide (v := 0) memory 11
  unfold run
  rw [show (0 : BitVec 32).toInt = (0 : ℕ) from rfl]
  generalize (List.range 11).foldl divide ⟨memory, fun _ => 0, (0 : ℕ), [], []⟩ = s at hdigits
  have hzero : ∀ k < 10, s.data (9 - (0 + k : ℕ)) = 48 := fun k hk => by
    rw [show (9 - (0 + k : ℕ) : ℤ) = (9 - k : ℕ) by omega, hdigits.data _ (by omega), Nat.zero_div]
    rfl
  obtain ⟨used, hused⟩ := trim_skip (n := 1) hzero
  rw [hused, trim]
  split
  · right
    unfold flip
    dsimp only
    exact setIntArray_end _ 0 1 0
  · left
    show s.intArray 0 = 0
    rw [hdigits.blank]

end Itoa

/-! ### The text -/

/-- The buffer holds the decimal text of `v`, a newline and a closing zero, and the text is read back as `v`. -/
def Prints (v : ℕ) (buffer : Buffer) : Prop :=
  natText v ++ [10, 0] <+: buffer ∧ digits (buffer.takeWhile (· ≠ 0)) = some v

theorem takeWhile_text {text : Buffer} (htext : ∀ b ∈ text, b ≠ 0) (rest : Buffer) :
    (text ++ 0 :: rest).takeWhile (· ≠ 0) = text := by
  rw [List.takeWhile_append_of_pos fun b hb => decide_eq_true (htext b hb)]
  simp

theorem strcpy_text {text : Buffer} (htext : ∀ b ∈ text, b ≠ 0) (target rest : Buffer) :
    strcpy target (text ++ 0 :: rest) = text ++ 0 :: target.drop (text.length + 1) := by
  simp only [strcpy, takeWhile_text htext, List.length_append, List.length_singleton, List.append_assoc,
    List.singleton_append]

theorem strcpy_head (target : Buffer) (c : UInt8) (source : Buffer) : (strcpy target (c :: source)).head? = some c := by
  by_cases hc : c = 0
  · simp [strcpy, hc]
  · simp [strcpy, hc]

theorem line_ne_zero (v : ℕ) : ∀ b ∈ natText v ++ [10], b ≠ 0 := by
  intro b hb
  rcases List.mem_append.1 hb with hb | hb
  · rintro rfl
    exact absurd (mem_natText hb).1 (by decide)
  · obtain rfl := List.mem_singleton.1 hb
    decide

theorem map_intArray {v d : ℕ} (hlow : 10 ^ d ≤ v) (hhigh : v < 10 ^ (d + 1)) (hv : v < 2 ^ 31)
    (memory : ℤ → UInt8) : ((List.range 12).map fun j : ℕ => (Itoa.run (.ofNat 32 v) memory).intArray j) =
      natText v ++ [10] ++ 0 :: List.replicate (9 - d) 0 := by
  have hd := Itoa.lt_ten hlow hv
  have hrun := Itoa.run_intArray hlow hhigh hv memory
  have hzero : ∀ k, (Itoa.run (.ofNat 32 v) memory).intArray (d + 1 + (k + 1) : ℕ) = 0 := fun k => by
    rw [hrun, if_neg (by omega), if_neg (by omega)]
  rw [natText_eq_map (.inl hlow) hhigh, show 12 = (d + 1) + (9 - d + 1 + 1) by omega, List.range_add,
    List.map_append, List.append_assoc]
  congr 1
  · refine List.map_congr_left fun j hj => ?_
    rw [hrun, if_pos (List.mem_range.1 hj)]
  · rw [List.range_succ_eq_map, List.map_cons, List.map_cons, hrun, if_neg (by omega), if_pos rfl]
    refine congrArg (10 :: ·) (List.eq_replicate_iff (n := 9 - d + 1).2 ⟨by simp, fun b hb => ?_⟩)
    simp only [List.map_map, List.mem_map] at hb
    obtain ⟨k, -, rfl⟩ := hb
    exact hzero k

theorem encoderItoa_text {v : ℕ} (hpos : 0 < v) (hv : v < 2 ^ 31) (memory : ℤ → UInt8) (buffer : Buffer) :
    encoderItoa (.ofNat 32 v) memory buffer =
      natText v ++ [10] ++ 0 :: buffer.drop ((natText v ++ [10]).length + 1) := by
  have hlow : 10 ^ Nat.log 10 v ≤ v := Nat.pow_log_le_self 10 (by omega)
  have hhigh : v < 10 ^ (Nat.log 10 v + 1) := Nat.lt_pow_succ_log_self (by decide) v
  unfold encoderItoa
  rw [map_intArray hlow hhigh hv memory, strcpy_text (line_ne_zero v)]

/-- `Encoder_itoa` prints every number that a register delivers, except 0. -/
theorem itoa_prints (v : ℕ) (hv : v ≤ 0x3FFFFFFF) (memory : ℤ → UInt8) (buffer : Buffer) :
    Prints v (encoderItoa (.ofNat 32 v) memory buffer) ↔ v ≠ 0 := by
  refine ⟨fun h => ?_, fun h => ?_⟩
  · rintro rfl
    obtain ⟨rest, hrest⟩ := h.1
    have hhead : (encoderItoa (.ofNat 32 0) memory buffer).head? = some ((Itoa.run 0 memory).intArray 0) :=
      strcpy_head buffer _ _
    rw [← hrest] at hhead
    have hzero : (48 : UInt8) = (Itoa.run 0 memory).intArray 0 := Option.some.inj hhead
    rcases Itoa.run_zero memory with h0 | h0
    · exact absurd (hzero.trans h0) (by decide)
    · exact absurd (hzero.trans h0) (by decide)
  · rw [encoderItoa_text (Nat.pos_of_ne_zero h) (by omega)]
    refine ⟨⟨buffer.drop ((natText v ++ [10]).length + 1), by simp only [List.append_assoc]; rfl⟩, ?_⟩
    rw [takeWhile_text (line_ne_zero v)]
    exact digits_natText v [10] (.inr rfl)

theorem itoa_prints_forty : Prints 40 (encoderItoa 40 (fun _ => 0) (List.replicate 12 0)) :=
  (itoa_prints 40 (by decide) (fun _ => 0) (List.replicate 12 0)).2 (by decide)

/-- 0 is printed as a newline alone. -/
theorem itoa_not_prints :
    ¬ ∀ v ≤ 0x3FFFFFFF, ∀ memory buffer, Prints v (encoderItoa (.ofNat 32 v) memory buffer) := by
  intro h
  have hzero := (h 0 (by decide) (fun _ => 0) (List.replicate 12 0)).2
  exact absurd hzero (by decide)

end Dcs
