import Mathlib
import BenchReport.Decimal.Reading
import BenchReport.Proofs.Binary64.Decimal
import BenchReport.Proofs.Text.Cut
import BenchReport.Proofs.Text.Integer

/-!
# Decimals are read as the nearest doubles

A decimal as written is digits and a power of ten, and it is read as the double nearest to
its number (`BenchReport.Decimal.Written.isNearest_toFloat`), as large as the power may be.
Where the digits begin decides between three cases: the number is beyond every double, it is
below half of the least one, or it can be scaled. The zeros in front of it have to be
taken off before its digits say anything about its size
(`BenchReport.Decimal.Written.value_lt`, `BenchReport.Decimal.Written.le_value`).
-/

/-! ### Digits -/

namespace BenchReport.Text

section Digits

variable {s : List Char}

theorem spelled_cons (c : Char) (s : List Char) :
    spelled (c :: s) = 10 ^ s.length * (c.toNat - '0'.toNat) + spelled s := by
  rw [spelled, Nat.ofDigitChars_cons, Nat.ofDigitChars_eq_ofDigitChars_zero, Nat.mul_zero,
    Nat.zero_add]
  rfl

theorem spelled_append (s t : List Char) :
    spelled (s ++ t) = 10 ^ t.length * spelled s + spelled t := by
  rw [spelled, Nat.ofDigitChars_append, Nat.ofDigitChars_eq_ofDigitChars_zero]
  rfl

/-- **A number has no more digits than its text.** -/
theorem spelled_lt (h : ∀ c ∈ s, c.isDigit = true) : spelled s < 10 ^ s.length := by
  induction s with
  | nil => decide
  | cons c s ih =>
    have hs := ih fun d hd => h d (List.mem_cons_of_mem _ hd)
    have hc : c.toNat - '0'.toNat ≤ 9 := by
      have hle : c.toNat ≤ '9'.toNat := (Char.isDigit_iff_toNat.mp (h c (by simp))).2
      have hnine : '9'.toNat = '0'.toNat + 9 := rfl
      omega
    rw [spelled_cons, List.length_cons, Nat.pow_succ]
    nlinarith [Nat.mul_le_mul_left (10 ^ s.length) hc]

/-- **A text of digits that does not begin with a zero has no more digits than its number.** -/
theorem le_spelled {c : Char} (hc : c.isDigit = true) (hne : c ≠ '0') (s : List Char) :
    10 ^ s.length ≤ spelled (c :: s) := by
  have hpos : 1 ≤ c.toNat - '0'.toNat := by
    have hle : '0'.toNat ≤ c.toNat := (Char.isDigit_iff_toNat.mp hc).1
    have hcode : c.toNat ≠ '0'.toNat := fun h => hne (Char.toNat_inj.mp h)
    omega
  rw [spelled_cons]
  exact (Nat.le_mul_of_pos_right _ hpos).trans (Nat.le_add_right _ _)

/-- Zeros in front of a text do not count. -/
theorem spelled_dropWhile_zero (s : List Char) : spelled (s.dropWhile (· = '0')) = spelled s := by
  induction s with
  | nil => rfl
  | cons c s ih =>
    rw [List.dropWhile_cons]
    split
    · rename_i hc
      obtain rfl : c = '0' := by simpa using hc
      rw [ih, spelled_cons, Nat.sub_self, Nat.mul_zero, Nat.zero_add]
    · rfl

end Digits

end BenchReport.Text

/-! ### Decimals -/

namespace BenchReport.Decimal

open Binary64

/-- The number that a decimal says. -/
def Written.value (w : Written) : ℚ := digitsValue w.digits * 10 ^ w.exponent

theorem digitsValue_eq (s : List Char) : digitsValue s = Text.spelled s := by
  have hstep : (fun n (c : Char) => n * 10 + (c.toNat - '0'.toNat)) =
      fun n (c : Char) => 10 * n + (c.toNat - '0'.toNat) := by
    funext n c
    rw [Nat.mul_comm]
  rw [digitsValue, hstep]
  rfl

namespace Written

variable {w : Written}

/-- The power of ten just above a decimal. -/
def leading (w : Written) : ℤ := w.exponent + ((w.digits.dropWhile (· = '0')).length : ℕ)

theorem value_lt (h : ∀ c ∈ w.digits, c.isDigit = true) : w.value < 10 ^ w.leading := by
  have hdigits : ∀ c ∈ w.digits.dropWhile (· = '0'), c.isDigit = true := fun c hc =>
    h c ((List.dropWhile_sublist _).subset hc)
  have hlt := Text.spelled_lt hdigits
  rw [value, leading, digitsValue_eq, ← Text.spelled_dropWhile_zero, zpow_add₀ (by norm_num),
    mul_comm (10 ^ w.exponent), zpow_natCast]
  exact mul_lt_mul_of_pos_right (mod_cast hlt) (zpow_pos (by norm_num) _)

/-- A decimal that is not zero begins with a digit that is not. -/
theorem le_digitsValue (h : ∀ c ∈ w.digits, c.isDigit = true) (hne : digitsValue w.digits ≠ 0) :
    10 ^ ((w.digits.dropWhile (· = '0')).length - 1) ≤ digitsValue w.digits := by
  rw [digitsValue_eq, ← Text.spelled_dropWhile_zero] at hne ⊢
  cases hdrop : w.digits.dropWhile (· = '0') with
  | nil =>
    rw [hdrop] at hne
    exact absurd rfl hne
  | cons c s =>
    have hc : c ∈ w.digits.dropWhile (· = '0') := by simp [hdrop]
    have hzero : c ≠ '0' := by
      have hstop := Text.head?_dropWhile (fun c => decide (c = '0')) w.digits c (by simp [hdrop])
      simpa using hstop
    exact Text.le_spelled (h c ((List.dropWhile_sublist _).subset hc)) hzero s

theorem le_value (h : ∀ c ∈ w.digits, c.isDigit = true) (hne : digitsValue w.digits ≠ 0) :
    10 ^ (w.leading - 1) ≤ w.value := by
  have hle := le_digitsValue h hne
  have hexponent : w.leading - 1 ≤
      (((w.digits.dropWhile (· = '0')).length - 1 : ℕ) : ℤ) + w.exponent := by
    rw [leading]
    omega
  calc (10 : ℚ) ^ (w.leading - 1)
      ≤ 10 ^ ((((w.digits.dropWhile (· = '0')).length - 1 : ℕ) : ℤ) + w.exponent) :=
        zpow_le_zpow_right₀ (by norm_num) hexponent
    _ = 10 ^ ((w.digits.dropWhile (· = '0')).length - 1) * 10 ^ w.exponent := by
        rw [zpow_add₀ (by norm_num), zpow_natCast]
    _ ≤ w.value := mul_le_mul_of_nonneg_right (mod_cast hle) (zpow_pos (by norm_num) _).le

/-- A decimal is at most as long as its number in binary. -/
theorem length_le_log2 (h : ∀ c ∈ w.digits, c.isDigit = true) (hne : digitsValue w.digits ≠ 0) :
    (w.digits.dropWhile (· = '0')).length ≤ (digitsValue w.digits).log2 + 1 := by
  have hle := le_digitsValue h hne
  have hpow : 2 ^ ((w.digits.dropWhile (· = '0')).length - 1) ≤ digitsValue w.digits :=
    (Nat.pow_le_pow_left (by norm_num) _).trans hle
  have hlog := (Nat.le_log2 hne).mpr hpow
  omega

/-- Three binary digits are less than a decimal one. -/
theorem two_zpow_le (n : ℕ) : (2 : ℚ) ^ (3 * n : ℤ) ≤ 10 ^ (n : ℤ) := by
  rw [zpow_mul, zpow_natCast, zpow_natCast]
  exact pow_le_pow_left₀ (by norm_num) (by norm_num) n

/-- **A decimal is read as the nearest double.** -/
theorem isNearest_toFloat (h : ∀ c ∈ w.digits, c.isDigit = true) :
    IsNearest w.toFloat w.value := by
  have hnonneg : 0 ≤ w.value := mul_nonneg (Nat.cast_nonneg _) (zpow_pos (by norm_num) _).le
  rw [toFloat]
  change IsNearest (if digitsValue w.digits = 0 then _ else if 400 < w.leading then _
    else if w.leading < -400 then _ else _) _
  split
  · rename_i hzero
    rw [value, hzero, Nat.cast_zero, zero_mul]
    exact isNearest_zero le_rfl (two_zpow_pos _)
  rename_i hne
  split
  · rename_i hgreat
    refine isNearest_infinity ?_
    calc overflow ≤ 10 ^ (400 : ℤ) :=
          (zpow_le_zpow_right₀ one_le_two (by norm_num)).trans (two_zpow_le 400)
      _ ≤ 10 ^ (w.leading - 1) := zpow_le_zpow_right₀ (by norm_num) (by omega)
      _ ≤ w.value := le_value h hne
  split
  · rename_i hsmall
    refine isNearest_zero hnonneg ?_
    calc w.value < 10 ^ w.leading := value_lt h
      _ ≤ 10 ^ (-400 : ℤ) := zpow_le_zpow_right₀ (by norm_num) (by omega)
      _ ≤ 2 ^ (-(3 * (400 : ℕ)) : ℤ) := by
          rw [zpow_neg, zpow_neg]
          exact inv_anti₀ (two_zpow_pos _) (two_zpow_le 400)
      _ ≤ 2 ^ (-1075 : ℤ) := zpow_le_zpow_right₀ one_le_two (by norm_num)
  · have hlength := length_le_log2 h hne
    have hleading : w.leading =
      w.exponent + ((w.digits.dropWhile (· = '0')).length : ℕ) := rfl
    have hpos := Nat.pos_of_ne_zero hne
    split
    · exact isNearest_ofScientific hpos (by simp; omega) (by omega) (by omega)
    · exact isNearest_ofScientific hpos (by simp; omega) (by omega) (by omega)

end Written

end BenchReport.Decimal
