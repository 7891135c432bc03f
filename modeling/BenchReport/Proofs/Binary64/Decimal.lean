import Mathlib
import BenchReport.Proofs.Binary64.BitOrder
import BenchReport.Proofs.Binary64.Whole

/-!
# Scaling by powers of ten

A whole number that is scaled by a power of ten is a fraction or a number of many digits, and
one double is nearest to it (`BenchReport.Binary64.isNearest_ofScientific`). There are two ways
to that double, and neither rounds twice.

* A number of at most 53 digits is a double, and so is a power of ten up to `10 ^ 22`
  (`BenchReport.Binary64.isPowerOfTen_get`): of these the product or the quotient is rounded.
* Any other is scaled by the exact power, outside the doubles, and then rounded
  (`BenchReport.Binary64.holds_ofScientific`).

What is said of the result is a little more than that the number is rounded to it. A number
that is not negative is read as a double without a sign: that is what tells the two zeros
apart, so that the number determines the double (`BenchReport.Binary64.IsNearest.unique`).
-/

namespace BenchReport.Binary64

open Float.Model Float.Model.UnpackedFloat

/-! ### Doubles without a sign -/

/-- **Whether a double is what a number that is not negative is read as**: the number is
rounded to it, and it has no sign. -/
structure IsNearest (x : Float) (z : ℚ) : Prop where
  /-- The number is rounded to the double. -/
  roundsTo : RoundsTo x z
  /-- The sign bit is not set. -/
  unsigned : x.toBits.toNat < 2 ^ 63

section IsNearest

variable {x y : Float} {f : UnpackedFloat} {z : ℚ}

theorem toNat_toBits_lt_of_place_pos (h : x.isNaN = false) (hpos : 0 < place x) :
    x.toBits.toNat < 2 ^ 63 := by
  rw [place_eq_magnitude h] at hpos
  split at hpos
  · assumption
  · have hneg := magnitude_nonneg (x.toBits.toNat - 2 ^ 63)
    linarith

/-- What is rounded to a positive number has no sign. -/
theorem RoundsTo.isNearest (h : RoundsTo x z) (hz : 0 < rounded z) : IsNearest x z := by
  refine ⟨h, ?_⟩
  rcases lt_or_ge |rounded z| overflow with hlt | hle
  · obtain ⟨hfinite, hvalue⟩ := h.finite hlt
    refine toNat_toBits_lt_of_place_pos (isNaN_of_isFinite hfinite) ?_
    rw [place_of_isFinite hfinite, hvalue]
    exact hz
  · have hpos : 0 < z := by
      by_contra hneg
      have := rounded_mono (not_lt.mp hneg)
      rw [rounded_zero] at this
      linarith
    have hinfinite := h.infinite hle
    rw [signOf, if_neg hpos.not_gt] at hinfinite
    refine toNat_toBits_lt_of_place_pos (isNaN_of_infinity hinfinite) ?_
    rw [place_of_infinity hinfinite]
    exact overflow_pos

/-- **What is packed without a sign** is what the number is read as. -/
theorem Holds.isNearest (hz : 0 ≤ z) (h : Holds f .positive (nearest z)) :
    IsNearest (.ofModel (.pack f)) z := by
  have hround : RoundsTo (.ofModel (.pack f)) z := roundsTo_pack hz h
  rcases (nearest_nonneg z).eq_or_lt with hzero | hpos
  · refine ⟨hround, ?_⟩
    generalize nearest z = v at h hzero
    cases h with
    | zero => decide
    | @finite _ m e hm hcanonical =>
      exact absurd hzero (mul_pos (mod_cast hm) (two_zpow_pos e)).ne
  · exact hround.isNearest (by rwa [rounded_of_nonneg hz])

/-- A double that is zero and has no sign is the positive zero. -/
theorem eq_zero_of_value_eq (hx : x.isFinite = true) (hvalue : value x = 0)
    (hunsigned : x.toBits.toNat < 2 ^ 63) : x = 0.0 := by
  obtain ⟨s, v, hv, -, hsigned⟩ := exists_holds hx
  have hzero : v = 0 := by
    rw [← abs_signed s hv.nonneg, ← hsigned, hvalue, abs_zero]
  cases hunpack : x.toModel.unpack with
  | zero s =>
    cases s with
    | positive => exact eq_of_unpack_eq hunpack
    | negative =>
      obtain rfl : x = -0.0 := eq_of_unpack_eq hunpack
      exact absurd hunsigned (by decide)
  | finite s m e hm =>
    rw [hunpack] at hv
    cases hv with
    | finite => exact absurd hzero (mul_pos (mod_cast hm) (two_zpow_pos e)).ne'
  | infinity | notANumber =>
    rw [hunpack] at hv
    cases hv

/-- **A number is read as one double only.** -/
theorem IsNearest.unique (hx : IsNearest x z) (hy : IsNearest y z) : x = y := by
  rcases lt_or_ge |rounded z| overflow with hlt | hle
  · obtain ⟨hxfinite, hxvalue⟩ := hx.roundsTo.finite hlt
    obtain ⟨hyfinite, hyvalue⟩ := hy.roundsTo.finite hlt
    by_cases hzero : rounded z = 0
    · rw [eq_zero_of_value_eq hxfinite (hxvalue.trans hzero) hx.unsigned,
        eq_zero_of_value_eq hyfinite (hyvalue.trans hzero) hy.unsigned]
    · exact eq_of_value_eq hxfinite hyfinite (hxvalue ▸ hzero) (hxvalue.trans hyvalue.symm)
  · exact eq_of_unpack_eq ((hx.roundsTo.infinite hle).trans (hy.roundsTo.infinite hle).symm)

end IsNearest

/-! ### Numbers that are too small or too great -/

section Extremes

variable {z : ℚ}

/-- A number below half of the least double is nearest to zero. -/
theorem nearest_eq_zero (hz : 0 < z) (hlt : z < 2 ^ (-1075 : ℤ)) : nearest z = 0 := by
  have hlog : Int.log 2 z < -1075 := by
    rw [← Int.lt_zpow_iff_log_lt one_lt_two hz]
    exact_mod_cast hlt
  have hquantum : quantum z = -1074 := max_eq_right (by omega)
  have hhalf : z / 2 ^ (-1074 : ℤ) < (0 : ℕ) + 1 / 2 := by
    rw [Nat.cast_zero, zero_add, div_lt_iff₀ (two_zpow_pos _)]
    calc z < 2 ^ (-1075 : ℤ) := hlt
      _ = 2 ^ (-1 : ℤ) * 2 ^ (-1074 : ℤ) := by rw [← zpow_add₀ two_ne_zero]; rfl
      _ = 1 / 2 * 2 ^ (-1074 : ℤ) := by norm_num
  have hfloor : ⌊z / 2 ^ (-1074 : ℤ)⌋₊ = 0 := Nat.floor_eq_zero.mpr (by linarith)
  rw [nearest, hquantum, roundEven_of_lt hfloor hhalf, Nat.cast_zero, zero_mul]

/-- **A number below half of the least double is read as zero.** -/
theorem isNearest_zero (hz : 0 ≤ z) (hlt : z < 2 ^ (-1075 : ℤ)) : IsNearest 0.0 z := by
  have hnearest : nearest z = 0 := by
    rcases hz.eq_or_lt with rfl | hpos
    · exact nearest_zero
    · exact nearest_eq_zero hpos hlt
  have hzero : Holds (.zero .positive) .positive (nearest z) := hnearest ▸ .zero .positive
  exact hzero.isNearest hz

/-- **A number beyond the doubles is read as infinity.** -/
theorem isNearest_infinity (h : overflow ≤ z) : IsNearest (1.0 / 0.0) z := by
  have hz : 0 < z := overflow_pos.trans_le h
  have hbound : OnGrid overflow := onGrid_two_zpow (by norm_num)
  have hnearest : overflow ≤ rounded z := by
    calc overflow = rounded overflow := (rounded_eq_self (by rwa [abs_of_pos overflow_pos])).symm
      _ ≤ rounded z := rounded_mono h
  have habs : overflow ≤ |rounded z| := hnearest.trans (le_abs_self _)
  have hround : RoundsTo (1.0 / 0.0) z := by
    refine ⟨fun hlt => absurd hlt habs.not_gt, fun _ => ?_⟩
    rw [signOf, if_neg hz.not_gt]
    rfl
  exact hround.isNearest (overflow_pos.trans_le hnearest)

/-- A number that is not below the least double is not read as zero. -/
theorem nearest_pos (h : 2 ^ (-1074 : ℤ) ≤ z) : 0 < nearest z := by
  calc (0 : ℚ) < 2 ^ (-1074 : ℤ) := two_zpow_pos _
    _ = nearest (2 ^ (-1074 : ℤ)) := (nearest_eq_self (onGrid_two_zpow le_rfl)).symm
    _ ≤ nearest z := nearest_mono (two_zpow_pos _).le h

end Extremes

/-! ### Powers of ten -/

/-- An exponent that is not negative is a natural number. -/
theorem zpow_eq_pow_toNat (a : ℚ) {e : ℤ} (he : 0 ≤ e) : a ^ e = a ^ e.toNat := by
  rw [← zpow_natCast, Int.toNat_of_nonneg he]

/-- A negative exponent scales down by a natural number of places. -/
theorem zpow_eq_inv_pow_toNat (a : ℚ) {e : ℤ} (he : e < 0) : a ^ e = (a ^ (-e).toNat)⁻¹ := by
  rw [← zpow_eq_pow_toNat a (by omega), zpow_neg, inv_inv]

section PowersOfTen

variable {e : ℕ}

/-- A double that is a power of ten, said of its bits in whole numbers. -/
def IsPowerOfTen (p : Float) (e : ℕ) : Prop :=
  p.isFinite = true ∧ p.toBits.toNat < 2 ^ 63 ∧ p.toBits.toNat / 2 ^ 52 ≠ 0 ∧
    (2 ^ 52 + p.toBits.toNat % 2 ^ 52) * 2 ^ (p.toBits.toNat / 2 ^ 52) = 10 ^ e * 2 ^ 1075

instance (p : Float) (e : ℕ) : Decidable (IsPowerOfTen p e) :=
  inferInstanceAs (Decidable (_ ∧ _ ∧ _ ∧ _))

theorem IsPowerOfTen.value_eq {p : Float} (h : IsPowerOfTen p e) : value p = 10 ^ e := by
  obtain ⟨hfinite, hunsigned, hnormal, hbits⟩ := h
  rw [← place_of_isFinite hfinite, place_eq_magnitude (isNaN_of_isFinite hfinite),
    if_pos hunsigned, magnitude, if_neg hnormal, zpow_sub₀ two_ne_zero, zpow_natCast,
    ← mul_div_assoc, div_eq_iff (two_zpow_pos _).ne', zpow_ofNat]
  have hcast := congrArg (Nat.cast : ℕ → ℚ) hbits
  simpa only [Nat.cast_mul, Nat.cast_pow, Nat.cast_ofNat] using hcast

/-- **The powers of ten that are doubles** are what they should be. -/
theorem isPowerOfTen_get (he : e < Float.exactlyRepresentablePowersOfTen.size) :
    IsPowerOfTen Float.exactlyRepresentablePowersOfTen[e] e := by
  have hall : ∀ i : Fin 23,
      IsPowerOfTen (getElem Float.exactlyRepresentablePowersOfTen i.val i.isLt) i := by
    clear he
    decide +kernel
  exact hall ⟨e, he⟩

end PowersOfTen

/-! ### Scaled numbers -/

section Scaled

variable {m : ℕ} {e : ℤ}

/-- **A whole number that is scaled by the exact power of ten is rounded once.** -/
theorem holds_ofScientific (hm : 0 < m) (hhigh : e ≤ 2048) (hlow : -(2048 + (m.log2 : ℤ)) ≤ e) :
    Holds (UnpackedFloat.ofScientific .binary64 m e) .positive (nearest (m * 10 ^ e)) := by
  have hbits : (2 : ℤ) ^ Format.binary64.exponentBits = 2048 := rfl
  rw [UnpackedFloat.ofScientific, dif_neg hm.ne', if_neg (by omega), if_neg (by omega)]
  split
  · rename_i he
    -- the mantissa is padded so that no digit of the product is missing
    have hproduct : ((m <<< 53 * 10 ^ e.toNat : ℕ) : ℚ) * 2 ^ (-53 + 0 : ℤ) = m * 10 ^ e := by
      rw [Nat.shiftLeft_eq, zpow_eq_pow_toNat 10 he]
      push_cast
      norm_num
      ring
    have hone : (2 : ℚ) ^ (0 : ℤ) ≤ m * 10 ^ e := by
      rw [zpow_zero]
      exact one_le_mul_of_one_le_of_one_le (mod_cast hm) (one_le_zpow₀ (by norm_num) he)
    have hquantum := le_quantum hone
    rw [← hproduct] at hquantum
    have hpos : 0 < m <<< 53 * 10 ^ e.toNat := by
      rw [Nat.shiftLeft_eq]
      positivity
    have hround := holds_roundWithAccuracy_exact (e := -53 + 0) .positive hpos (by omega)
    rwa [hproduct] at hround
  · rename_i he
    have hpos : 0 < 10 ^ (-e).toNat := Nat.pow_pos (by norm_num)
    have hquotient :
        (m : ℚ) * 2 ^ (0 : ℤ) / ((10 ^ (-e).toNat : ℕ) * 2 ^ (0 : ℤ)) = m * 10 ^ e := by
      rw [zpow_eq_inv_pow_toNat 10 (not_le.mp he), zpow_zero, mul_one, mul_one, div_eq_mul_inv]
      push_cast
      rfl
    obtain ⟨hexponent, hstands⟩ := stands_divCore hm hpos 0 0
    rw [hquotient] at hexponent hstands
    refine holds_roundWithAccuracy .positive ?_ hstands hexponent
    positivity

/-- A word of at most 53 digits is made a double without loss. -/
theorem value_toFloat_of_lt (h : m < 2 ^ 53) :
    m.toUInt64.toFloat.isFinite = true ∧ value m.toUInt64.toFloat = m := by
  have hword : m.toUInt64.toNat = m := UInt64.toNat_ofNat_of_lt' (h.trans (by decide))
  have hself : rounded (m : ℚ) = m := by
    refine rounded_eq_self ?_
    rw [abs_of_nonneg (Nat.cast_nonneg m)]
    exact onGrid_natCast h
  have hround := roundsTo_toFloat m.toUInt64
  rw [hword] at hround
  have hlt : |rounded (m : ℚ)| < overflow := by
    rw [hself, abs_of_nonneg (Nat.cast_nonneg m)]
    calc (m : ℚ) < 2 ^ (53 : ℤ) := by exact_mod_cast h
      _ ≤ overflow := zpow_le_zpow_right₀ one_le_two (by norm_num)
  exact ⟨(hround.finite hlt).1, (hround.finite hlt).2.trans hself⟩

/-- A number and a power that are doubles both are multiplied at once. -/
theorem roundsTo_mul_power (h : m < 2 ^ 53) {n : ℕ}
    (hn : n < Float.exactlyRepresentablePowersOfTen.size) :
    RoundsTo (m.toUInt64.toFloat * Float.exactlyRepresentablePowersOfTen[n])
      (m * 10 ^ (n : ℤ)) := by
  obtain ⟨hfinite, hvalue⟩ := value_toFloat_of_lt h
  have hpower := isPowerOfTen_get hn
  have hround := roundsTo_mul hfinite hpower.1
  rwa [hvalue, hpower.value_eq, ← zpow_natCast] at hround

/-- A number and a power that are doubles both are divided at once. -/
theorem roundsTo_div_power (h : m < 2 ^ 53) {n : ℕ}
    (hn : n < Float.exactlyRepresentablePowersOfTen.size) :
    RoundsTo (m.toUInt64.toFloat / Float.exactlyRepresentablePowersOfTen[n])
      (m * 10 ^ (-n : ℤ)) := by
  obtain ⟨hfinite, hvalue⟩ := value_toFloat_of_lt h
  have hpower := isPowerOfTen_get hn
  have hround := roundsTo_div hfinite hpower.1 (by rw [hpower.value_eq]; positivity)
  rwa [hvalue, hpower.value_eq, ← zpow_natCast, div_eq_mul_inv, ← zpow_neg] at hround

/-- What is scaled down by one of these powers is not read as zero. -/
theorem nearest_scaled_pos (hm : 0 < m) (he : -22 ≤ e) : 0 < nearest (m * 10 ^ e) := by
  refine nearest_pos ?_
  calc (2 : ℚ) ^ (-1074 : ℤ) ≤ 2 ^ (-80 : ℤ) := zpow_le_zpow_right₀ one_le_two (by norm_num)
    _ ≤ 10 ^ (-22 : ℤ) := by norm_num
    _ ≤ 10 ^ e := zpow_le_zpow_right₀ (by norm_num) he
    _ ≤ m * 10 ^ e := le_mul_of_one_le_left (by positivity) (mod_cast hm)

/-- **A whole number that is scaled by a power of ten is read as the nearest double.** -/
theorem isNearest_ofScientific (hm : 0 < m) {n : ℕ} {negative : Bool}
    (he : e = if negative then -(n : ℤ) else n) (hhigh : e ≤ 2048)
    (hlow : -(2048 + (m.log2 : ℤ)) ≤ e) :
    IsNearest (Float.ofScientific m negative n) (m * 10 ^ e) := by
  have hz : (0 : ℚ) ≤ m * 10 ^ e := by positivity
  rw [Float.ofScientific]
  split
  · -- both numbers are doubles, so what is rounded is the exact result
    rename_i h
    have hn := Nat.lt_succ_of_le h.2
    refine RoundsTo.isNearest ?_ ?_
    · subst he
      cases negative with
      | true => exact roundsTo_div_power h.1 hn
      | false => exact roundsTo_mul_power h.1 hn
    · rw [rounded_of_nonneg hz]
      refine nearest_scaled_pos hm ?_
      rw [he]
      split <;> omega
  · have hscale : (if negative = true then Int.negOfNat n else Int.ofNat n) = e := by
      rw [he, Int.negOfNat_eq]
      rfl
    have hholds := (holds_ofScientific hm hhigh hlow).isNearest hz
    rw [← hscale] at hholds ⊢
    exact hholds

end Scaled

end BenchReport.Binary64
