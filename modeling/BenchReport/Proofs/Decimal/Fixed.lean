import Mathlib
import BenchReport.Decimal.Layout
import BenchReport.Proofs.Binary64.BitOrder
import BenchReport.Proofs.Decimal.Reading

/-!
# Doubles with a fixed number of decimals

A finite double is taken apart into a sign and a quotient of two whole numbers, and nothing is
lost of it (`BenchReport.Decimal.ofFloat_of_isFinite`): the quotient is rounded as the number
is. What is laid out is therefore one whole number, of which the last digits stand behind the
point (`BenchReport.Decimal.fixedChars_eq`).

Zeros are put in front of a number that is too short to have a digit before the point. With
these a number of any length is its digits before the last ones and then the last ones
(`BenchReport.Decimal.replicate_append_digitChars`), which is shown by taking off one digit
after the other.
-/

namespace BenchReport.Decimal

open Binary64 (value place magnitude roundEven overflow)

/-! ### Taking a double apart -/

section Parts

variable {x : Float}

/-- The number that a magnitude is. -/
def Magnitude.value (m : Magnitude) : ℚ := m.significand * 2 ^ m.exponent

theorem Magnitude.quotient_snd_pos (m : Magnitude) : 0 < m.quotient.2 := by
  rw [quotient]
  split
  · exact Nat.one_pos
  · exact Nat.two_pow_pos _

theorem Magnitude.quotient_eq (m : Magnitude) : (m.quotient.1 : ℚ) / m.quotient.2 = m.value := by
  rw [quotient, value]
  split
  · rename_i h
    rw [Binary64.zpow_eq_pow_toNat 2 h, Nat.cast_one, div_one, Nat.pow_eq, Nat.cast_mul,
      Nat.cast_pow, Nat.cast_ofNat]
  · rename_i h
    rw [Binary64.zpow_eq_inv_pow_toNat 2 (not_le.mp h), Nat.pow_eq, Nat.cast_pow, Nat.cast_ofNat,
      div_eq_mul_inv]

/-- The sign bit decides the sign and the others decide the number. -/
theorem abs_value_eq_magnitude (hx : x.isFinite = true) :
    |value x| = magnitude (x.toBits.toNat % 2 ^ 63) := by
  have hbits : x.toBits.toNat < 2 ^ 64 := x.toBits.toNat_lt
  rw [← Binary64.place_of_isFinite hx,
    Binary64.place_eq_magnitude (Binary64.isNaN_of_isFinite hx)]
  split
  · rename_i h
    rw [Nat.mod_eq_of_lt h, abs_of_nonneg (Binary64.magnitude_nonneg _)]
  · have hlower : x.toBits.toNat % 2 ^ 63 = x.toBits.toNat - 2 ^ 63 := by omega
    rw [hlower, abs_neg, abs_of_nonneg (Binary64.magnitude_nonneg _)]

/-- The greatest exponent is that of no finite number. -/
theorem field_ne_of_isFinite (hx : x.isFinite = true) :
    x.toBits.toNat / 2 ^ 52 % 2048 ≠ 2047 := by
  intro hfield
  have hlt := Binary64.abs_value_lt_overflow hx
  have hexponent : x.toBits.toNat % 2 ^ 63 / 2 ^ 52 = 2047 := by omega
  rw [abs_value_eq_magnitude hx, magnitude, hexponent, if_neg (by norm_num)] at hlt
  have hle : overflow ≤
      (2 ^ 52 + x.toBits.toNat % 2 ^ 63 % 2 ^ 52 : ℕ) * 2 ^ ((2047 : ℕ) - 1075 : ℤ) := by
    have hpow : (2 : ℚ) ^ 52 * 2 ^ (972 : ℤ) = overflow := Binary64.two_pow_mul_zpow 52 972
    rw [← hpow]
    refine mul_le_mul ?_ (by norm_num) (Binary64.two_zpow_pos _).le (by positivity)
    exact_mod_cast Nat.le_add_right _ _
  exact hlt.not_ge hle

/-- **A finite double is a sign and a magnitude**, and nothing is lost of it. -/
theorem ofFloat_of_isFinite (hx : x.isFinite = true) :
    ∃ m : Magnitude, Binary.ofFloat x = .finite (decide (2 ^ 63 ≤ x.toBits.toNat)) m ∧
      m.value = |value x| := by
  have hbits : x.toBits.toNat < 2 ^ 64 := x.toBits.toNat_lt
  have hfield := field_ne_of_isFinite hx
  have hexponent : x.toBits.toNat % 2 ^ 63 / 2 ^ 52 = x.toBits.toNat / 2 ^ 52 % 2048 := by omega
  have hmantissa : x.toBits.toNat % 2 ^ 63 % 2 ^ 52 = x.toBits.toNat % 2 ^ 52 := by omega
  have hsign : decide (x.toBits.toNat / 0x8000000000000000 = 1) =
      decide (2 ^ 63 ≤ x.toBits.toNat) := by
    rw [decide_eq_decide]
    omega
  have hleading : leadingBit = 2 ^ 52 := rfl
  rw [abs_value_eq_magnitude hx, magnitude, hexponent, hmantissa, Binary.ofFloat, Binary.ofBits]
  simp only [hleading, hsign, if_neg hfield]
  split
  · exact ⟨_, rfl, rfl⟩
  · rename_i hne
    have hscale : leastExponent + ((x.toBits.toNat / 2 ^ 52 % 2048 - 1 : ℕ) : ℤ) =
        (x.toBits.toNat / 2 ^ 52 % 2048 : ℕ) - 1075 := by
      rw [leastExponent]
      omega
    refine ⟨_, rfl, ?_⟩
    rw [Magnitude.value, hscale]

end Parts

/-! ### Rounding to whole numbers -/

/-- **A quotient is rounded to the nearest whole number.** -/
theorem roundHalfEven_eq (n : ℕ) {d : ℕ} (hd : 0 < d) : roundHalfEven n d = roundEven (n / d) := by
  have hfloor : ⌊(n : ℚ) / d⌋₊ = n / d := Nat.floor_div_eq_div n d
  have hpos : (0 : ℚ) < d := mod_cast hd
  have hparts : (n : ℚ) / d = (n / d : ℕ) + (n % d : ℕ) / d := by
    rw [div_eq_iff hpos.ne', add_mul, div_mul_cancel₀ _ hpos.ne']
    exact_mod_cast (Nat.div_add_mod' n d).symm
  have htwo : (1 : ℚ) / 2 * d = d / 2 := by ring
  rw [roundHalfEven]
  rcases lt_trichotomy (2 * (n % d)) d with hlt | heq | hgt
  · have hhalf : (n : ℚ) / d < (n / d : ℕ) + 1 / 2 := by
      rw [hparts, add_lt_add_iff_left, div_lt_iff₀ hpos, htwo, lt_div_iff₀' two_pos]
      exact_mod_cast hlt
    simp [hlt, Binary64.roundEven_of_lt hfloor hhalf]
  · have hhalf : (n : ℚ) / d = (n / d : ℕ) + 1 / 2 := by
      rw [hparts, add_right_inj, div_eq_iff hpos.ne', htwo, eq_div_iff two_ne_zero, mul_comm]
      exact_mod_cast heq
    rw [Binary64.roundEven_of_eq hfloor hhalf]
    rcases Nat.mod_two_eq_zero_or_one (n / d) with heven | hodd
    · simp [heq, heven]
    · simp [heq, hodd]
  · have hhalf : ((n / d : ℕ) : ℚ) + 1 / 2 < n / d := by
      rw [hparts, add_lt_add_iff_left, lt_div_iff₀ hpos, htwo, div_lt_iff₀' two_pos]
      exact_mod_cast hgt
    simp [hgt.not_gt, hgt.ne', Binary64.roundEven_of_gt hfloor hhalf]

/-! ### Last digits -/

/-- The last digits of a number, as many as there are places. -/
def lastDigits : ℕ → ℕ → List Char
  | 0, _ => []
  | places + 1, n => lastDigits places (n / 10) ++ [Nat.digitChar (n % 10)]

theorem length_lastDigits (places n : ℕ) : (lastDigits places n).length = places := by
  induction places generalizing n with
  | zero => rfl
  | succ places ih => rw [lastDigits, List.length_append, ih, List.length_singleton]

theorem isDigit_of_mem_lastDigits {places n : ℕ} :
    ∀ c ∈ lastDigits places n, c.isDigit = true := by
  induction places generalizing n with
  | zero => simp [lastDigits]
  | succ places ih =>
    intro c hc
    rcases List.mem_append.mp hc with hc | hc
    · exact ih c hc
    · rw [List.mem_singleton.mp hc, Nat.isDigit_digitChar]
      exact decide_eq_true (Nat.mod_lt n (by norm_num))

/-- **The last digits of a number spell what is left of it.** -/
theorem spelled_lastDigits (places n : ℕ) :
    Text.spelled (lastDigits places n) = n % 10 ^ places := by
  induction places generalizing n with
  | zero => rw [pow_zero, Nat.mod_one]; rfl
  | succ places ih =>
    have hlast : Text.spelled [Nat.digitChar (n % 10)] = n % 10 := by
      rw [Text.spelled, Nat.ofDigitChars_cons_digitChar_of_lt_ten (Nat.mod_lt n (by norm_num)),
        Nat.ofDigitChars_nil, Nat.mul_zero, Nat.zero_add]
    rw [lastDigits, Text.spelled_append, ih, hlast, Nat.pow_succ', Nat.mod_mul,
      List.length_singleton, pow_one, Nat.add_comm]

/-- The last digits of a multiple of a power of ten are zeros. -/
theorem lastDigits_mul_pow (places n : ℕ) :
    lastDigits places (n * 10 ^ places) = List.replicate places '0' := by
  induction places with
  | zero => rfl
  | succ places ih =>
    have hshift : n * 10 ^ (places + 1) = 10 * (n * 10 ^ places) := by ring
    rw [lastDigits, hshift, Nat.mul_div_cancel_left _ (by norm_num), Nat.mul_mod_right, ih,
      List.replicate_succ']
    rfl

/-! ### The point -/

/-- **A number is the digits before its last ones, and the last ones**, if it is long enough or
made so with zeros. -/
theorem replicate_append_digitChars (places n : ℕ) :
    List.replicate (places + 1 - (digitChars n).length) '0' ++ digitChars n =
      digitChars (n / 10 ^ places) ++ lastDigits places n := by
  induction places generalizing n with
  | zero =>
    have hpos : 0 < (digitChars n).length := Nat.length_toDigits_pos
    have hnone : 0 + 1 - (digitChars n).length = 0 := by omega
    rw [hnone, pow_zero, Nat.div_one, lastDigits, List.append_nil]
    rfl
  | succ places ih =>
    have hstep := ih (n / 10)
    rw [Nat.div_div_eq_div_mul, ← Nat.pow_succ'] at hstep
    rw [lastDigits, ← List.append_assoc, ← hstep]
    rcases Nat.lt_or_ge n 10 with hlt | hge
    · -- there is one more zero, and it is the digit of what is left of the number
      have hdigits : digitChars n = [Nat.digitChar n] := Nat.toDigits_of_lt_base hlt
      have hzero : digitChars 0 = ['0'] := Nat.toDigits_zero 10
      rw [Nat.div_eq_of_lt hlt, Nat.mod_eq_of_lt hlt, hdigits, hzero, List.length_singleton,
        List.length_singleton, Nat.add_sub_cancel, Nat.add_sub_cancel, List.replicate_succ']
    · have hdigits : digitChars n = digitChars (n / 10) ++ [Nat.digitChar (n % 10)] :=
        Nat.toDigits_of_base_le (by norm_num) hge
      rw [hdigits, List.length_append, List.length_singleton, Nat.add_sub_add_right,
        List.append_assoc]

/-- **The point stands before the last digits.** -/
theorem withPoint_digitChars (n : ℕ) {places : ℕ} (hplaces : 0 < places) :
    withPoint (digitChars n) places =
      digitChars (n / 10 ^ places) ++ '.' :: lastDigits places n := by
  have hlength : (digitChars (n / 10 ^ places) ++ lastDigits places n).length - places =
      (digitChars (n / 10 ^ places)).length := by
    rw [List.length_append, length_lastDigits, Nat.add_sub_cancel]
  rw [withPoint]
  simp only [replicate_append_digitChars, hlength, if_neg hplaces.ne', List.take_left,
    List.drop_left]

/-! ### Fixed decimals -/

/-- A minus if the sign bit is set. -/
def signText (x : Float) : List Char := if x.toBits.toNat < 2 ^ 63 then [] else ['-']

/-- A number in units of the last of its decimals, to the nearest one. -/
def lastUnits (places : ℕ) (x : Float) : ℕ := roundEven (|value x| * 10 ^ places)

/-- **A double with a fixed number of decimals** is its sign, and the units of the last decimal
with a point before the last digits. -/
theorem fixedChars_eq {x : Float} (hx : x.isFinite = true) {places : ℕ} (hplaces : 0 < places) :
    fixedChars places x =
      signText x ++ (digitChars (lastUnits places x / 10 ^ places) ++
        '.' :: lastDigits places (lastUnits places x)) := by
  obtain ⟨m, hparts, hvalue⟩ := ofFloat_of_isFinite hx
  have hsign : signChars (decide (2 ^ 63 ≤ x.toBits.toNat)) = signText x := by
    rw [signChars, signText]
    by_cases h : x.toBits.toNat < 2 ^ 63
    · rw [if_pos h, decide_eq_false h.not_ge]
      rfl
    · rw [if_neg h, decide_eq_true (not_lt.mp h)]
      rfl
  have hunits : roundHalfEven (m.quotient.1 * Nat.pow 10 places) m.quotient.2 =
      lastUnits places x := by
    have hscale : ((m.quotient.1 * Nat.pow 10 places : ℕ) : ℚ) / m.quotient.2 =
        m.quotient.1 / m.quotient.2 * 10 ^ places := by
      rw [Nat.pow_eq, Nat.cast_mul, Nat.cast_pow, Nat.cast_ofNat, mul_div_right_comm]
    rw [roundHalfEven_eq _ m.quotient_snd_pos, hscale, m.quotient_eq, hvalue, lastUnits]
  rw [fixedChars, hparts]
  simp only
  rw [hsign, hunits, withPoint_digitChars _ hplaces]

end BenchReport.Decimal
