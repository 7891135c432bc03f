import Mathlib
import BenchReport.Group.Basic
import BenchReport.Proofs.Binary64.Arithmetic

/-!
# Counts and whole parts

A count is made a double to be divided by or to be shared out, and a double is made a count to
say which sample is meant. On the first way a count is rounded if it has more than 53 digits
(`BenchReport.Binary64.value_sizeFloat`), on the second way the fraction is lost and nothing else
(`BenchReport.Binary64.toNat_toUInt64`).

Rounding a large count moves it, but it makes no fraction of it: a multiple of a power of two is
still one when it has been rounded (`BenchReport.Binary64.exists_rounded_mul_zpow`). So what is
said about quarters of a count holds of every count and not only of those that are exact.
-/

namespace BenchReport.Binary64

open Float.Model Float.Model.UnpackedFloat

/-! ### Multiples of a power of two -/

/-- **A rounded multiple of a power of two is a multiple of it**: what is cut off stands before
the digit of the power, or nothing is cut off. -/
theorem exists_rounded_mul_zpow (n : ℕ) (e : ℤ) :
    ∃ m : ℕ, rounded (n * 2 ^ e) = m * 2 ^ e := by
  have hz : (0 : ℚ) ≤ n * 2 ^ e := by positivity
  rw [rounded_of_nonneg hz]
  rcases le_total (quantum (n * 2 ^ e)) e with hle | hle
  · obtain ⟨m, hm⟩ := exists_mul_zpow_eq n hle
    have hdiv : (n : ℚ) * 2 ^ e / 2 ^ quantum (n * 2 ^ e) = m := by
      rw [div_eq_iff (two_zpow_pos _).ne']
      exact hm
    exact ⟨n, by rw [nearest, hdiv, roundEven_natCast, ← hm]⟩
  · exact exists_mul_zpow_eq _ hle

theorem onGrid_mul_zpow {m : ℕ} {e : ℤ} (hm : m < 2 ^ 53) (he : -1074 ≤ e) :
    OnGrid (m * 2 ^ e) := ⟨m, e, hm, he, rfl⟩

theorem onGrid_natCast {n : ℕ} (h : n < 2 ^ 53) : OnGrid n :=
  ⟨n, 0, h, by norm_num, by rw [zpow_zero, mul_one]⟩

theorem onGrid_two_zpow {e : ℤ} (he : -1074 ≤ e) : OnGrid (2 ^ e) :=
  ⟨1, e, by norm_num, he, by rw [Nat.cast_one, one_mul]⟩

/-- The whole part of a double is a double. -/
theorem OnGrid.floor {v : ℚ} (h : OnGrid v) : OnGrid (⌊v⌋₊ : ℚ) := by
  rcases lt_or_ge v (2 ^ 53) with hlt | hge
  · refine onGrid_natCast (Nat.floor_lt' (by norm_num) |>.mpr ?_)
    push_cast
    exact hlt
  · have hlarge : (2 : ℚ) ^ (52 + (0 : ℤ)) ≤ v := le_trans (by norm_num) hge
    obtain ⟨n, hn⟩ := h.exists_eq_mul hlarge
    rw [zpow_zero, mul_one] at hn
    rwa [hn, Nat.floor_natCast, ← hn]

/-! ### Whole parts -/

section Whole

variable {x : Float}

/-- A positive number that is rounded towards zero is rounded down. -/
theorem roundToInt_positive (m : ℕ) (e : ℤ) :
    roundToInt .positive m e = (⌊(m : ℚ) * 2 ^ e⌋₊ : ℤ) := by
  obtain ⟨hexponent, hvalue⟩ := decreaseExponent_eq m e 0
  rw [roundToInt]
  generalize decreaseExponent m e 0 = moved at *
  obtain ⟨m', e'⟩ := moved
  obtain rfl : e' = min e 0 := hexponent
  obtain ⟨-, hstands⟩ := shiftToExponent_of_le (stands_mul_zpow m' (min e 0)) (min_le_right e 0)
  rw [hvalue, zpow_zero, div_one] at hstands
  rw [hstands.floor]
  rfl

theorem toNat_ofNatClamp {n : ℕ} (h : n < UInt64.size) : (UInt64.ofNatClamp n).toNat = n := by
  rw [UInt64.ofNatClamp, dif_pos h]
  rfl

/-- **A double that is made a count loses its fraction.** -/
theorem toNat_toUInt64 (hx : x.isFinite = true) (hnonneg : 0 ≤ value x) (hlt : value x < 2 ^ 64) :
    x.toUInt64.toNat = ⌊value x⌋₊ := by
  have hfloor : ⌊value x⌋₊ < 2 ^ 64 := (Nat.floor_lt hnonneg).mpr (mod_cast hlt)
  have hint : x.toModel.unpack.toInt 0 (UInt64.size - 1) = ⌊value x⌋₊ := by
    obtain ⟨s, v, hv, -, hvalue⟩ := exists_holds hx
    rw [hvalue] at hnonneg ⊢
    generalize x.toModel.unpack = f at hv
    cases hv with
    | zero =>
      rw [signed_zero, Nat.floor_zero]
      rfl
    | @finite _ m e hm h =>
      cases s with
      | positive => exact roundToInt_positive m e
      | negative =>
        have hpos : (0 : ℚ) < m * 2 ^ e := mul_pos (mod_cast hm) (two_zpow_pos e)
        exact absurd hnonneg (not_le.mpr (neg_lt_zero.mpr hpos))
  change (UInt64.ofNatClamp (x.toModel.unpack.toInt 0 (UInt64.size - 1)).toNat).toNat = _
  rw [hint, Int.toNat_natCast, toNat_ofNatClamp hfloor]

end Whole

/-! ### Counts -/

/-- **A count that is made a double is rounded**, if it is no more than a word holds. -/
theorem value_sizeFloat (n : ℕ) : (Group.sizeFloat n).isFinite = true ∧
    value (Group.sizeFloat n) = rounded (n % 2 ^ 64 : ℕ) := by
  have hword : n.toUInt64.toNat = n % 2 ^ 64 := UInt64.toNat_ofNat'
  have hround := roundsTo_toFloat n.toUInt64
  rw [hword] at hround
  refine hround.finite ?_
  have hlt : ((n % 2 ^ 64 : ℕ) : ℚ) ≤ 2 ^ (64 : ℤ) := by
    exact_mod_cast (Nat.mod_lt n (by norm_num)).le
  have hbound : rounded (2 ^ (64 : ℤ)) = 2 ^ (64 : ℤ) :=
    rounded_eq_self (by rw [abs_of_pos (two_zpow_pos _)]; exact onGrid_two_zpow (by norm_num))
  rw [abs_of_nonneg (rounded_nonneg (Nat.cast_nonneg _))]
  calc rounded (n % 2 ^ 64 : ℕ) ≤ rounded (2 ^ (64 : ℤ)) := rounded_mono hlt
    _ = 2 ^ (64 : ℤ) := hbound
    _ < overflow := zpow_lt_zpow_right₀ one_lt_two (by norm_num)

end BenchReport.Binary64
