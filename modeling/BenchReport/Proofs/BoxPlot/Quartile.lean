import Mathlib
import BenchReport.Proofs.Binary64.BitOrder
import BenchReport.Proofs.Binary64.Interpolation
import BenchReport.Proofs.Binary64.Whole
import BenchReport.Proofs.BoxPlot

/-!
# Quartiles lie among the samples

A quartile is interpolated at a **rank**, which is a share of the number of the last sample. Both
are rounded, so that with very many samples a rank is not where it should be. Still it is a number
of quarters (`BenchReport.BoxPlot.IsQuarters.exists_rank_eq`), and it is not above the last sample
(`BenchReport.BoxPlot.IsQuarters.rank_le`). Hence there are samples on both sides of it, and the
share of the way from one to the other is exact and no more than three quarters
(`BenchReport.BoxPlot.IsQuarters.value_share`): it is what interpolation asks for
(`BenchReport.BoxPlot.IsQuarters.ends`).

Percentiles ascend (`BenchReport.BoxPlot.IsQuarters.percentile_mono`). Two of them lie between the
same samples, and then the greater share leads farther, or the second way does not begin before
the first one has ended.
-/

namespace BenchReport.BoxPlot

open Binary64

/-! ### Ranks -/

/-- The rank of a percentile among `n` samples, which begins at zero. -/
def rank (p : Float) (n : ℕ) : Float := p * Group.sizeFloat (n - 1)

/-- The last sample that is not above a rank. -/
def below (p : Float) (n : ℕ) : ℕ := (rank p n).toUInt64.toNat

/-- How far above this sample the rank is. -/
def share (p : Float) (n : ℕ) : Float := rank p n - Group.sizeFloat (below p n)

/-- The first sample that is not below a rank. -/
def above (p : Float) (n : ℕ) : ℕ := if share p n == 0 then below p n else below p n + 1

/-- Whether a share is a number of quarters, less than four. -/
structure IsQuarters (p : Float) : Prop where
  isFinite : p.isFinite = true
  quarters : ∃ c : ℕ, value p = c * 2 ^ (-2 : ℤ)
  most : value p ≤ 3 / 4

theorem value_quarters : value 0.25 = 1 / 4 ∧ value 0.5 = 1 / 2 ∧ value 0.75 = 3 / 4 :=
  ⟨(value_of_unpack (2 ^ 52) (-54) rfl).trans (by norm_num),
    (value_of_unpack (2 ^ 52) (-53) rfl).trans (by norm_num),
    (value_of_unpack (3 * 2 ^ 51) (-53) rfl).trans (by norm_num)⟩

theorem isQuarters_one : IsQuarters 0.25 := by
  refine ⟨rfl, ⟨1, ?_⟩, ?_⟩ <;> rw [value_quarters.1] <;> norm_num

theorem isQuarters_two : IsQuarters 0.5 := by
  refine ⟨rfl, ⟨2, ?_⟩, ?_⟩ <;> rw [value_quarters.2.1] <;> norm_num

theorem isQuarters_three : IsQuarters 0.75 := by
  refine ⟨rfl, ⟨3, ?_⟩, ?_⟩ <;> rw [value_quarters.2.2]
  norm_num

section Rank

variable {p p' : Float} (n : ℕ)

theorem IsQuarters.nonneg (hp : IsQuarters p) : 0 ≤ value p := by
  obtain ⟨c, hc⟩ := hp.quarters
  rw [hc]
  positivity

theorem IsQuarters.value_rank (hp : IsQuarters p) : (rank p n).isFinite = true ∧
    value (rank p n) = rounded (value p * rounded ((n - 1) % 2 ^ 64 : ℕ)) := by
  obtain ⟨hfinite, hvalue⟩ := value_sizeFloat (n - 1)
  rw [← hvalue]
  refine (roundsTo_mul hp.isFinite hfinite).of_abs_le hfinite ?_
  rw [abs_mul, abs_of_nonneg hp.nonneg]
  exact mul_le_of_le_one_left (abs_nonneg _) (hp.most.trans (by norm_num))

theorem IsQuarters.rank_nonneg (hp : IsQuarters p) : 0 ≤ value (rank p n) := by
  rw [(hp.value_rank n).2]
  exact rounded_nonneg (mul_nonneg hp.nonneg (rounded_nonneg (Nat.cast_nonneg _)))

/-- **No rank is above the last sample.** -/
theorem IsQuarters.rank_le (hp : IsQuarters p) :
    value (rank p n) ≤ ((n - 1) % 2 ^ 64 : ℕ) := by
  have hmultiple : IsMultiple ((n - 1) % 2 ^ 64 : ℕ) := by
    obtain ⟨m, hm⟩ := exists_mul_zpow_eq ((n - 1) % 2 ^ 64) (show (-1074 : ℤ) ≤ 0 by norm_num)
    exact ⟨m, by rw [← hm, zpow_zero, mul_one]⟩
  rw [(hp.value_rank n).2]
  exact rounded_mul_rounded_le hmultiple hp.most

/-- **Every rank is a number of quarters**, even where counts are rounded. -/
theorem IsQuarters.exists_rank_eq (hp : IsQuarters p) :
    ∃ m : ℕ, value (rank p n) = m * 2 ^ (-2 : ℤ) := by
  obtain ⟨c, hc⟩ := hp.quarters
  obtain ⟨k, hk⟩ := exists_rounded_mul_zpow ((n - 1) % 2 ^ 64) 0
  rw [zpow_zero, mul_one, mul_one] at hk
  obtain ⟨m, hm⟩ := exists_rounded_mul_zpow (c * k) (-2)
  refine ⟨m, ?_⟩
  rw [(hp.value_rank n).2, hk, hc, ← hm]
  congr 1
  push_cast
  ring

theorem IsQuarters.below_eq (hp : IsQuarters p) : below p n = ⌊value (rank p n)⌋₊ := by
  have hword : (n - 1) % 2 ^ 64 < 2 ^ 64 := Nat.mod_lt _ (by norm_num)
  refine toNat_toUInt64 (hp.value_rank n).1 (hp.rank_nonneg n) ((hp.rank_le n).trans_lt ?_)
  exact_mod_cast hword

/-- A number of quarters has a number of quarters left above its whole part. -/
theorem sub_floor_eq (m : ℕ) :
    (m : ℚ) * 2 ^ (-2 : ℤ) - ⌊(m : ℚ) * 2 ^ (-2 : ℤ)⌋₊ = (m % 4 : ℕ) * 2 ^ (-2 : ℤ) := by
  have hquarter : (2 : ℚ) ^ (-2 : ℤ) = 1 / 4 := by norm_num
  have hfloor : ⌊(m : ℚ) / 4⌋₊ = m / 4 := Nat.floor_div_eq_div m 4
  have hdivision : (m : ℚ) = 4 * (m / 4 : ℕ) + (m % 4 : ℕ) := by
    exact_mod_cast (Nat.div_add_mod m 4).symm
  rw [hquarter, mul_one_div, mul_one_div, hfloor]
  linarith

/-- **The share above a sample is exact.** -/
theorem IsQuarters.value_share (hp : IsQuarters p) : (share p n).isFinite = true ∧
    value (share p n) = value (rank p n) - ⌊value (rank p n)⌋₊ := by
  obtain ⟨hfinite, -⟩ := hp.value_rank n
  have hnonneg := hp.rank_nonneg n
  have hfloor : (⌊value (rank p n)⌋₊ : ℚ) ≤ value (rank p n) := Nat.floor_le hnonneg
  -- the whole part is a double, and so is what is left
  have hwhole : value (Group.sizeFloat (below p n)) = ⌊value (rank p n)⌋₊ := by
    have hword : below p n % 2 ^ 64 = below p n := Nat.mod_eq_of_lt (rank p n).toUInt64.toNat_lt
    have hgrid := (abs_of_nonneg hnonneg ▸ onGrid_value hfinite).floor
    rw [(value_sizeFloat _).2, hword, hp.below_eq, rounded_eq_self]
    rwa [abs_of_nonneg (Nat.cast_nonneg _)]
  have hround := roundsTo_sub hfinite (value_sizeFloat (below p n)).1
  rw [hwhole] at hround
  have hself : rounded (value (rank p n) - ⌊value (rank p n)⌋₊) =
      value (rank p n) - ⌊value (rank p n)⌋₊ := by
    obtain ⟨m, hm⟩ := hp.exists_rank_eq n
    refine rounded_eq_self ?_
    rw [abs_of_nonneg (sub_nonneg.mpr hfloor), hm, sub_floor_eq]
    exact onGrid_mul_zpow (by omega) (by norm_num)
  rw [← hself]
  refine hround.of_abs_le hfinite ?_
  rw [abs_of_nonneg (sub_nonneg.mpr hfloor), abs_of_nonneg hnonneg]
  exact sub_le_self _ (Nat.cast_nonneg _)

theorem IsQuarters.share_nonneg (hp : IsQuarters p) : 0 ≤ value (share p n) := by
  rw [(hp.value_share n).2]
  exact sub_nonneg.mpr (Nat.floor_le (hp.rank_nonneg n))

theorem IsQuarters.share_le (hp : IsQuarters p) : value (share p n) ≤ 3 / 4 := by
  obtain ⟨m, hm⟩ := hp.exists_rank_eq n
  have hmost : ((m % 4 : ℕ) : ℚ) ≤ 3 := by
    have : m % 4 ≤ 3 := by omega
    exact_mod_cast this
  have hquarter : (2 : ℚ) ^ (-2 : ℤ) = 1 / 4 := by norm_num
  rw [(hp.value_share n).2, hm, sub_floor_eq, hquarter]
  linarith

theorem IsQuarters.share_beq_zero_iff (hp : IsQuarters p) :
    (share p n == 0) = true ↔ value (share p n) = 0 := by
  obtain ⟨hfinite, -⟩ := hp.value_share n
  have hzero : place 0 = 0 := rfl
  rw [beq_iff_place_eq (isNaN_of_isFinite hfinite) rfl, place_of_isFinite hfinite, hzero]

theorem IsQuarters.above_of_share_eq_zero (hp : IsQuarters p) (h : value (share p n) = 0) :
    above p n = below p n :=
  if_pos ((hp.share_beq_zero_iff n).mpr h)

theorem IsQuarters.above_of_share_ne_zero (hp : IsQuarters p) (h : value (share p n) ≠ 0) :
    above p n = below p n + 1 :=
  if_neg fun hzero => h ((hp.share_beq_zero_iff n).mp hzero)

theorem IsQuarters.above_eq (hp : IsQuarters p) : above p n = ⌈value (rank p n)⌉₊ := by
  have hshare := (hp.value_share n).2
  by_cases hzero : value (share p n) = 0
  · have hwhole : value (rank p n) = ⌊value (rank p n)⌋₊ := by linarith
    rw [hp.above_of_share_eq_zero n hzero, hp.below_eq]
    conv_rhs => rw [hwhole, Nat.ceil_natCast]
  · have hlt : (⌊value (rank p n)⌋₊ : ℚ) < value (rank p n) := by
      have := (hp.share_nonneg n).lt_of_ne' hzero
      linarith
    rw [hp.above_of_share_ne_zero n hzero, hp.below_eq]
    exact le_antisymm (Nat.lt_ceil.mpr hlt) (Nat.ceil_le_floor_add_one _)

/-- **The samples around a rank are samples.** -/
theorem IsQuarters.above_le (hp : IsQuarters p) : above p n ≤ n - 1 := by
  rw [hp.above_eq]
  exact (Nat.ceil_le.mpr (hp.rank_le n)).trans (Nat.mod_le _ _)

theorem IsQuarters.below_le_above (hp : IsQuarters p) : below p n ≤ above p n := by
  rw [hp.above_eq, hp.below_eq]
  exact Nat.floor_le_ceil _

/-- **Ranks ascend with the percentile.** -/
theorem IsQuarters.rank_mono (hp : IsQuarters p) (hp' : IsQuarters p')
    (hle : value p ≤ value p') : value (rank p n) ≤ value (rank p' n) := by
  rw [(hp.value_rank n).2, (hp'.value_rank n).2]
  exact rounded_mono (mul_le_mul_of_nonneg_right hle (rounded_nonneg (Nat.cast_nonneg _)))

end Rank

/-! ### Samples in order -/

/-- A sample by its number, which begins at zero. -/
def sampleAt (samples : List Float) (i : ℕ) : Float := samples.toArray.getD i 0

/-- Whether samples are numbers in ascending order, of which there is at least one. -/
structure Ascending (samples : List Float) : Prop where
  ne_nil : samples ≠ []
  isNaN : ∀ x ∈ samples, x.isNaN = false
  pairwise : samples.Pairwise fun x y => floatLe x y = true

section Samples

variable {samples : List Float} {p p' : Float} {i j : ℕ}

theorem sampleAt_eq_getElem (h : i < samples.length) : sampleAt samples i = samples[i] := by
  rw [sampleAt, Array.getD_eq_getD_getElem?, List.getElem?_toArray, List.getElem?_eq_getElem h,
    Option.getD_some]

theorem Ascending.length_pos (h : Ascending samples) : 0 < samples.length :=
  List.length_pos_iff.mpr h.ne_nil

theorem Ascending.isNaN_sampleAt (h : Ascending samples) (hi : i ≤ samples.length - 1) :
    (sampleAt samples i).isNaN = false := by
  have := h.length_pos
  rw [sampleAt_eq_getElem (by omega)]
  exact h.isNaN _ (List.getElem_mem _)

theorem Ascending.place_mono (h : Ascending samples) (hij : i ≤ j)
    (hj : j ≤ samples.length - 1) :
    place (sampleAt samples i) ≤ place (sampleAt samples j) := by
  have hpos := h.length_pos
  rcases hij.eq_or_lt with rfl | hlt
  · exact le_rfl
  · refine place_le_of_floatLe (h.isNaN_sampleAt (by omega)) (h.isNaN_sampleAt hj) ?_
    rw [sampleAt_eq_getElem (by omega), sampleAt_eq_getElem (by omega)]
    exact List.pairwise_iff_getElem.mp h.pairwise i j (by omega) (by omega) hlt

/-! ### Percentiles -/

/-- **A percentile is interpolated between the samples around its rank.** -/
theorem percentile_eq (samples : List Float) (p : Float) : percentile samples.toArray p =
    interpolate (sampleAt samples (below p samples.length))
      (sampleAt samples (above p samples.length)) (share p samples.length) :=
  rfl

theorem IsQuarters.ends (hp : IsQuarters p) (h : Ascending samples) :
    Ends (sampleAt samples (below p samples.length)) (sampleAt samples (above p samples.length))
      (share p samples.length) where
  low_isNaN := h.isNaN_sampleAt ((hp.below_le_above _).trans (hp.above_le _))
  high_isNaN := h.isNaN_sampleAt (hp.above_le _)
  le := h.place_mono (hp.below_le_above _) (hp.above_le _)
  share_isFinite := (hp.value_share _).1
  nonneg := hp.share_nonneg _
  most := hp.share_le _
  same hzero := by rw [hp.above_of_share_eq_zero _ hzero]

/-- Whether a percentile can be interpolated between the samples around its rank. -/
def IsInterpolable (samples : List Float) (p : Float) : Prop :=
  Interpolable (sampleAt samples (below p samples.length))
    (sampleAt samples (above p samples.length))

instance (samples : List Float) (p : Float) : Decidable (IsInterpolable samples p) :=
  inferInstanceAs (Decidable (Interpolable _ _))

/-- **Percentiles ascend**, if they can be interpolated. -/
theorem IsQuarters.percentile_mono (hp : IsQuarters p) (hp' : IsQuarters p')
    (h : Ascending samples) (hle : value p ≤ value p') (hway : IsInterpolable samples p)
    (hway' : IsInterpolable samples p') :
    place (percentile samples.toArray p) ≤ place (percentile samples.toArray p') := by
  have hrank := hp.rank_mono samples.length hp' hle
  have hright := ((hp.ends h).interpolate_mem hway).2
  have hleft := ((hp'.ends h).interpolate_mem hway').1
  rw [percentile_eq, percentile_eq]
  rcases (Nat.floor_mono hrank).eq_or_lt with heq | hlt
  · -- both ways begin at the same sample
    have hbelow : below p samples.length = below p' samples.length := by
      rw [hp.below_eq, hp'.below_eq, heq]
    have hshares : value (share p samples.length) ≤ value (share p' samples.length) := by
      rw [(hp.value_share _).2, (hp'.value_share _).2, heq]
      linarith
    by_cases hzero : value (share p samples.length) = 0
    · rw [hp.above_of_share_eq_zero _ hzero] at hright ⊢
      rw [hbelow] at hright ⊢
      exact hright.trans hleft
    · have hpos := (hp.share_nonneg samples.length).lt_of_ne' hzero
      have habove : above p samples.length = above p' samples.length := by
        rw [hp.above_of_share_ne_zero _ hzero,
          hp'.above_of_share_ne_zero _ (hpos.trans_le hshares).ne', hbelow]
      have hends := hp.ends h
      rw [hbelow, habove] at hends ⊢
      exact hends.interpolate_mono (hp'.ends h) hway'.1 hshares
  · -- the second way does not begin before the first one has ended
    have hbetween : above p samples.length ≤ below p' samples.length := by
      rw [hp.above_eq, hp'.below_eq]
      exact (Nat.ceil_le_floor_add_one _).trans hlt
    exact hright.trans ((h.place_mono hbetween
      ((hp'.below_le_above _).trans (hp'.above_le _))).trans hleft)

end Samples

end BenchReport.BoxPlot
