import Mathlib
import BenchReport.BoxPlot
import BenchReport.Proofs.Binary64.Infinity

/-!
# The order of bits is that of numbers

Doubles are sorted by their bits and compared as numbers. These orders differ for the two zeros,
and where no number is involved, but a number that comes first by its bits is never the greater
one (`BenchReport.Binary64.place_le_of_floatLe`).

The lower 63 bits of a double are read as a number that grows with them, carry for carry
(`BenchReport.Binary64.magnitude_mono`): a mantissa that overflows leaves its digits zero and
makes the exponent greater by one, which is the next double. The infinities fit in, since their
bits are read as the bound from which on numbers are too great
(`BenchReport.Binary64.place_eq_magnitude`).
-/

namespace BenchReport.Binary64

open Float.Model Float.Model.UnpackedFloat

/-! ### Magnitudes -/

/-- What the lower 63 bits of a double say: twelve digits before the mantissa count the
exponent, and where they are zero the mantissa has no digit of its own before it. -/
def magnitude (b : ℕ) : ℚ :=
  if b / 2 ^ 52 = 0 then (b % 2 ^ 52 : ℕ) * 2 ^ (-1074 : ℤ)
  else (2 ^ 52 + b % 2 ^ 52 : ℕ) * 2 ^ ((b / 2 ^ 52 : ℕ) - 1075 : ℤ)

theorem magnitude_nonneg (b : ℕ) : 0 ≤ magnitude b := by
  rw [magnitude]
  split <;> positivity

/-- **The next bits say a number that is no less.** -/
theorem magnitude_le_succ (b : ℕ) : magnitude b ≤ magnitude (b + 1) := by
  have hlt : b % 2 ^ 52 < 2 ^ 52 := Nat.mod_lt _ (Nat.two_pow_pos 52)
  by_cases hcarry : b % 2 ^ 52 = 2 ^ 52 - 1
  · have hdiv : (b + 1) / 2 ^ 52 = b / 2 ^ 52 + 1 := by omega
    have hmod : (b + 1) % 2 ^ 52 = 0 := by omega
    rw [magnitude, magnitude, hdiv, hmod, if_neg (Nat.succ_ne_zero _), hcarry]
    split
    · rename_i hzero
      rw [hzero]
      norm_num
    · rw [add_zero, Nat.cast_add_one, add_sub_right_comm, zpow_add_one₀ two_ne_zero, ← mul_assoc,
        mul_right_comm]
      refine mul_le_mul_of_nonneg_right ?_ (two_zpow_pos _).le
      norm_num
  · have hdiv : (b + 1) / 2 ^ 52 = b / 2 ^ 52 := by omega
    have hmod : (b + 1) % 2 ^ 52 = b % 2 ^ 52 + 1 := by omega
    rw [magnitude, magnitude, hdiv, hmod]
    split
    · exact mul_le_mul_of_nonneg_right (mod_cast Nat.le_succ _) (two_zpow_pos _).le
    · exact mul_le_mul_of_nonneg_right (mod_cast Nat.le_succ _) (two_zpow_pos _).le

theorem magnitude_mono : Monotone magnitude := monotone_nat_of_le_succ magnitude_le_succ

/-! ### Bits of a double -/

section Bits

variable {x y : Float}

theorem toNat_unpackMantissa (b : BitVec 64) :
    (@unpackMantissa .binary64 b).toNat = b.toNat % 2 ^ 52 := by
  change (BitVec.cast _ (BitVec.extractLsb _ _ _)).toNat = _
  rw [BitVec.toNat_cast, BitVec.extractLsb_toNat]
  rfl

theorem toNat_unpackExponent (b : BitVec 64) :
    (@unpackExponent .binary64 b).toNat = b.toNat / 2 ^ 52 % 2 ^ 11 := by
  change (BitVec.cast _ (BitVec.extractLsb _ _ _)).toNat = _
  rw [BitVec.toNat_cast, BitVec.extractLsb_toNat, Nat.shiftRight_eq_div_pow]
  rfl

theorem toNat_unpackSign (b : BitVec 64) :
    (@unpackSign .binary64 b).toNat = b.toNat / 2 ^ 63 := by
  change (BitVec.cast _ (BitVec.extractLsb _ _ _)).toNat = _
  rw [BitVec.toNat_cast, BitVec.extractLsb_toNat, Nat.shiftRight_eq_div_pow]
  have := b.isLt
  change b.toNat / 2 ^ 63 % 2 = _
  omega

/-- **An unpacked number lies where the bits say.** -/
theorem unpackedPlace_unpack (b : BitVec 64)
    (h : (UnpackedFloat.unpack .binary64 b).isNaN = false) :
    unpackedPlace (UnpackedFloat.unpack .binary64 b) =
      signed (Sign.ofBitVec (@unpackSign .binary64 b)) (magnitude (b.toNat % 2 ^ 63)) := by
  have hexponent := toNat_unpackExponent b
  have hdiv : b.toNat % 2 ^ 63 / 2 ^ 52 = b.toNat / 2 ^ 52 % 2 ^ 11 := by omega
  have hmod : b.toNat % 2 ^ 63 % 2 ^ 52 = b.toNat % 2 ^ 52 := by omega
  rw [magnitude, hdiv, hmod, ← toNat_unpackMantissa, ← hexponent]
  rw [UnpackedFloat.unpack] at h ⊢
  by_cases hlast : @unpackExponent .binary64 b = -1#11
  · by_cases hzero : @unpackMantissa .binary64 b = 0#52
    · -- the bits of an infinity are those of the first number that is too great
      have hlength : (-1#11).toNat = 2047 := rfl
      have hbound : ((2 ^ 52 + 0 : ℕ) : ℚ) * 2 ^ ((2047 : ℕ) - 1075 : ℤ) = overflow := by
        rw [add_zero, Nat.cast_pow]
        exact two_pow_mul_zpow 52 972
      rw [if_pos hlast, if_pos hzero, hlast, hzero, hlength, if_neg (by norm_num),
        BitVec.toNat_zero, hbound, unpackedPlace]
    · simp only [if_pos hlast, if_neg hzero] at h
      cases h
  · rw [if_neg hlast]
    by_cases hfirst : @unpackExponent .binary64 b = 0#11
    · rw [if_pos hfirst, if_pos (by rw [hfirst]; rfl)]
      by_cases hzero : @unpackMantissa .binary64 b = 0#52
      · rw [dif_pos hzero, hzero, BitVec.toNat_zero, Nat.cast_zero, zero_mul, signed_zero]
        rfl
      · rw [dif_neg hzero, hfirst]
        rfl
    · have hne : (@unpackExponent .binary64 b).toNat ≠ 0 := fun h =>
        hfirst (BitVec.eq_of_toNat_eq h)
      rw [if_neg hfirst, if_neg hne, unpackedPlace, unpackedValue, toNat_one_append]
      · rfl
      · rintro s ⟨⟩

/-- **A double lies where its bits say.** -/
theorem place_eq_magnitude (h : x.isNaN = false) :
    place x = if x.toBits.toNat < 2 ^ 63 then magnitude x.toBits.toNat
      else -magnitude (x.toBits.toNat - 2 ^ 63) := by
  have hbits : x.toBits.toNat < 2 ^ 64 := x.toBits.toNat_lt
  have hsign := toNat_unpackSign x.toBits.toBitVec
  have hunsigned : place x = signed (Sign.ofBitVec (@unpackSign .binary64 x.toBits.toBitVec))
      (magnitude (x.toBits.toNat % 2 ^ 63)) := unpackedPlace_unpack x.toBits.toBitVec h
  rw [hunsigned, Sign.ofBitVec]
  by_cases hpositive : x.toBits.toNat < 2 ^ 63
  · have hzero : @unpackSign .binary64 x.toBits.toBitVec = 0#1 := by
      refine BitVec.eq_of_toNat_eq (hsign.trans ?_)
      exact Nat.div_eq_of_lt hpositive
    rw [if_pos hzero, if_pos hpositive, Nat.mod_eq_of_lt hpositive]
    rfl
  · have hone : @unpackSign .binary64 x.toBits.toBitVec ≠ 0#1 := by
      intro hzero
      rw [hzero] at hsign
      change 0 = x.toBits.toNat / 2 ^ 63 at hsign
      omega
    have hlower : x.toBits.toNat % 2 ^ 63 = x.toBits.toNat - 2 ^ 63 := by omega
    rw [if_neg hone, if_neg hpositive, hlower]
    rfl

theorem floatRank_eq (x : Float) : floatRank x =
    if x.toBits.toNat < 2 ^ 63 then x.toBits.toNat + 2 ^ 63 else 2 ^ 64 - 1 - x.toBits.toNat :=
  rfl

/-- **Numbers that are in the order of bits are in order.** -/
theorem place_le_of_floatLe (hx : x.isNaN = false) (hy : y.isNaN = false)
    (h : floatLe x y = true) : place x ≤ place y := by
  have hx64 : x.toBits.toNat < 2 ^ 64 := x.toBits.toNat_lt
  have hy64 : y.toBits.toNat < 2 ^ 64 := y.toBits.toNat_lt
  have hrank : floatRank x ≤ floatRank y := of_decide_eq_true h
  rw [floatRank_eq, floatRank_eq] at hrank
  rw [place_eq_magnitude hx, place_eq_magnitude hy]
  split at hrank <;> split at hrank
  · rename_i hxp hyp
    rw [if_pos hxp, if_pos hyp]
    exact magnitude_mono (by omega)
  · -- a positive double does not come before a negative one
    omega
  · rename_i hxn hyp
    rw [if_neg hxn, if_pos hyp]
    exact (neg_nonpos.mpr (magnitude_nonneg _)).trans (magnitude_nonneg _)
  · rename_i hxn hyn
    rw [if_neg hxn, if_neg hyn]
    exact neg_le_neg (magnitude_mono (by omega))

end Bits

end BenchReport.Binary64
