import Mathlib.Tactic.Ring

/-!
# Decimal texts

`intText z` are the ASCII characters that `%i` prints for `z`: the digits without leading zeros, after a
minus sign for a negative number. The text determines the number, and `textValue` reads the digits back.
-/

namespace Decimal

/-- The digits of `n`, of which there is at least one. -/
def natText (n : ℕ) : List UInt8 := (Nat.toDigits 10 n).map fun c => UInt8.ofNat c.toNat

def intText : ℤ → List UInt8
  | .ofNat n => natText n
  | .negSucc n => 45 :: natText (n + 1)

/-- The number that a text of digits stands for. -/
def textValue (text : List UInt8) : ℕ := text.foldl (fun n b => 10 * n + (b.toNat - 48)) 0

theorem mem_natText {n : ℕ} {b : UInt8} (hb : b ∈ natText n) : 48 ≤ b.toNat ∧ b.toNat ≤ 57 := by
  obtain ⟨c, hc, rfl⟩ := List.mem_map.1 hb
  have hdigit := Nat.isDigit_of_mem_toDigits (by decide) (by decide) hc
  simp only [Char.isDigit, Bool.and_eq_true, decide_eq_true_eq, ge_iff_le] at hdigit
  have hlow : 48 ≤ c.toNat := UInt32.le_iff_toNat_le.1 hdigit.1
  have hhigh : c.toNat ≤ 57 := UInt32.le_iff_toNat_le.1 hdigit.2
  rw [UInt8.toNat_ofNat']
  omega

theorem natText_ne_nil (n : ℕ) : natText n ≠ [] := by
  rw [natText, Ne, List.map_eq_nil_iff]
  exact Nat.toDigits_ne_nil

theorem length_natText_le {n k : ℕ} (hk : 0 < k) (h : n < 10 ^ k) : (natText n).length ≤ k := by
  rw [natText, List.length_map]
  exact (Nat.length_toDigits_le_iff (by decide) hk).2 h

theorem textValue_append (text : List UInt8) (b : UInt8) :
    textValue (text ++ [b]) = 10 * textValue text + (b.toNat - 48) := by
  rw [textValue, List.foldl_append]
  rfl

theorem natText_of_lt {n : ℕ} (h : n < 10) : natText n = [UInt8.ofNat (48 + n)] := by
  have hdigit : ∀ d < 10, [UInt8.ofNat (Nat.digitChar d).toNat] = [UInt8.ofNat (48 + d)] := by decide
  rw [natText, Nat.toDigits_of_lt_base h]
  exact hdigit n h

theorem natText_of_le {n : ℕ} (h : 10 ≤ n) : natText n = natText (n / 10) ++ [UInt8.ofNat (48 + n % 10)] := by
  have hlast : natText (n % 10) = [UInt8.ofNat (48 + n % 10)] := natText_of_lt (Nat.mod_lt n (by decide))
  rw [natText, Nat.toDigits_of_lt_base (Nat.mod_lt n (by decide))] at hlast
  rw [natText, Nat.toDigits_of_base_le (by decide) h, List.map_append, hlast, natText]

/-- The digits of a number with `d + 1` of them, counted from the first one. -/
theorem natText_eq_map {n d : ℕ} (hlow : 10 ^ d ≤ n ∨ d = 0) (hhigh : n < 10 ^ (d + 1)) :
    natText n = (List.range (d + 1)).map fun j => UInt8.ofNat (48 + n / 10 ^ (d - j) % 10) := by
  induction d generalizing n with
  | zero => simp [natText_of_lt hhigh, Nat.mod_eq_of_lt (show n < 10 from hhigh)]
  | succ d ih =>
    have hpow := Nat.one_le_pow d 10 (by decide)
    rw [Nat.pow_succ] at hlow hhigh
    have hn : 10 * 10 ^ d ≤ n := by omega
    have hinit : natText (n / 10) = _ := ih (.inl (by omega)) (by omega)
    rw [natText_of_le (by omega), List.range_succ, List.map_append, hinit]
    congr 1
    · refine List.map_congr_left fun j hj => ?_
      have hjd : j ≤ d := Nat.lt_succ_iff.1 (List.mem_range.1 hj)
      rw [Nat.div_div_eq_div_mul, ← Nat.pow_succ', Nat.succ_sub hjd]
    · simp

@[simp] theorem textValue_natText (n : ℕ) : textValue (natText n) = n := by
  have hdigit : ∀ d < 10, (UInt8.ofNat (48 + d)).toNat - 48 = d := by decide
  induction n using Nat.strong_induction_on with
  | _ n ih =>
    rcases Nat.lt_or_ge n 10 with h | h
    · rw [natText_of_lt h]
      show 10 * 0 + ((UInt8.ofNat (48 + n)).toNat - 48) = n
      rw [hdigit n h, Nat.mul_zero, Nat.zero_add]
    · rw [natText_of_le h, textValue_append, ih (n / 10) (by omega), hdigit _ (Nat.mod_lt n (by decide))]
      omega

theorem natText_inj {m n : ℕ} : natText m = natText n ↔ m = n := by
  refine ⟨fun h => ?_, fun h => h ▸ rfl⟩
  rw [← textValue_natText m, h, textValue_natText]

theorem natText_ne_minus {n : ℕ} {text : List UInt8} : natText n ≠ 45 :: text := fun h => by
  have hb := mem_natText (n := n) (b := 45) (h ▸ List.mem_cons_self)
  exact absurd hb.1 (by decide)

/-- A decimal text is the text of one number only. -/
theorem intText_inj {y z : ℤ} : intText y = intText z ↔ y = z := by
  refine ⟨fun h => ?_, fun h => h ▸ rfl⟩
  cases y with
  | ofNat m =>
    cases z with
    | ofNat n => exact congrArg Int.ofNat (natText_inj.1 h)
    | negSucc n => exact absurd h natText_ne_minus
  | negSucc m =>
    cases z with
    | ofNat n => exact absurd h.symm natText_ne_minus
    | negSucc n =>
      have hmn : m + 1 = n + 1 := natText_inj.1 (List.cons.inj h).2
      exact congrArg Int.negSucc (Nat.succ.inj hmn)

theorem intText_eq_zero {z : ℤ} : intText z = [48] ↔ z = 0 := by
  rw [show [48] = intText 0 from rfl, intText_inj]

end Decimal
