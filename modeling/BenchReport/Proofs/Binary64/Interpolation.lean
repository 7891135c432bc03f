import Mathlib
import BenchReport.Proofs.Binary64.Infinity

/-!
# Interpolation between doubles

A double is interpolated between two others by adding a share of their difference to the first
one, which rounds three times. That the result lies between the two is not plain: the difference
may be rounded up, and if the share were close to one, the second double could be passed. With a
share of no more than three quarters it is not (`BenchReport.Binary64.rounded_mul_rounded_le`).
For a difference with more digits than the least ones, the quarter that is left out is more than
what rounding adds, and one with fewer digits is not rounded at all.

This is said of finite doubles whose difference is finite. Other numbers have a way between them
too, and the result lies on it exactly if the first is finite and the difference is, unless the
second is infinite (`BenchReport.Binary64.Ends.interpolate_mem_iff`). From an infinity no way
leads anywhere: the result is no number (`BenchReport.Binary64.Ends.isNaN_interpolate`).
-/

namespace BenchReport.Binary64

open Float.Model Float.Model.UnpackedFloat

/-! ### A share of a rounded difference -/

/-- Whether a number is a multiple of the least positive double. -/
def IsMultiple (d : ℚ) : Prop := ∃ n : ℕ, d = n * 2 ^ (-1074 : ℤ)

theorem IsMultiple.nonneg {d : ℚ} (h : IsMultiple d) : 0 ≤ d := by
  obtain ⟨n, rfl⟩ := h
  positivity

/-- A multiple with few digits is not rounded at all. -/
theorem IsMultiple.rounded_eq {d : ℚ} (h : IsMultiple d) (hleast : quantum d = -1074) :
    rounded d = d := by
  obtain ⟨n, hn⟩ := id h
  have hdiv : d / 2 ^ quantum d = n := by
    rw [hleast, hn, mul_div_cancel_right₀ _ (two_zpow_pos _).ne']
  rw [rounded_of_nonneg h.nonneg, nearest, hdiv, roundEven_natCast, hleast, ← hn]

/-- A number of many digits lies above a mantissa of its unit, and it is rounded to no more than
the next one. -/
theorem exists_mantissa {d : ℚ} (hpos : 0 < d) (hmany : quantum d ≠ -1074) :
    ∃ n : ℕ, 2 ^ 52 ≤ n ∧ n < 2 ^ 53 ∧ n * 2 ^ quantum d ≤ d ∧
      rounded d ≤ (n + 1) * 2 ^ quantum d := by
  have hunit : (0 : ℚ) < 2 ^ quantum d := two_zpow_pos _
  have hnonneg : 0 ≤ d / 2 ^ quantum d := div_nonneg hpos.le hunit.le
  refine ⟨⌊d / 2 ^ quantum d⌋₊, Nat.le_floor ?_, (Nat.floor_lt hnonneg).mpr ?_,
    (le_div_iff₀ hunit).mp (Nat.floor_le hnonneg), ?_⟩
  · exact_mod_cast le_div_quantum hpos hmany
  · exact_mod_cast div_quantum_lt d
  · rw [rounded_of_nonneg hpos.le, nearest]
    exact mul_le_mul_of_nonneg_right (mod_cast roundEven_le_floor_add_one _) hunit.le

/-- **A share of a rounded difference is no more than the difference**, even rounded again, as
long as it is no more than three quarters. -/
theorem rounded_mul_rounded_le {d t : ℚ} (hd : IsMultiple d) (ht : t ≤ 3 / 4) :
    rounded (t * rounded d) ≤ d := by
  rcases hd.nonneg.eq_or_lt with rfl | hpos
  · simp
  by_cases hleast : quantum d = -1074
  · have hself := hd.rounded_eq hleast
    have hle : t * d ≤ d := by nlinarith
    rw [hself]
    exact (rounded_mono hle).trans_eq hself
  · -- rounding adds less than a unit, and the quarter that is left out is more than that
    obtain ⟨n, hmany, hlt, hbelow, hup⟩ := exists_mantissa hpos hleast
    have hunit : (0 : ℚ) < 2 ^ quantum d := two_zpow_pos _
    have hgrid : OnGrid |(n : ℚ) * 2 ^ quantum d| := by
      rw [abs_of_nonneg (by positivity)]
      exact ⟨_, _, hlt, le_max_right .., rfl⟩
    have hquarter : 3 / 4 * ((n : ℚ) + 1) ≤ n := by
      have hmany' : (2 : ℚ) ^ 52 ≤ n := mod_cast hmany
      linarith
    have hshare : t * rounded d ≤ n * 2 ^ quantum d :=
      calc t * rounded d ≤ 3 / 4 * rounded d :=
            mul_le_mul_of_nonneg_right ht (rounded_nonneg hpos.le)
        _ ≤ 3 / 4 * ((n + 1) * 2 ^ quantum d) := by linarith
        _ = 3 / 4 * (n + 1) * 2 ^ quantum d := (mul_assoc ..).symm
        _ ≤ n * 2 ^ quantum d := mul_le_mul_of_nonneg_right hquarter hunit.le
    calc rounded (t * rounded d) ≤ rounded (n * 2 ^ quantum d) := rounded_mono hshare
      _ = n * 2 ^ quantum d := rounded_eq_self hgrid
      _ ≤ d := hbelow

/-- The value of a finite double is a whole number of the least positive ones. -/
theorem exists_value_eq {x : Float} (h : x.isFinite = true) :
    ∃ n : ℤ, value x = n * 2 ^ (-1074 : ℤ) := by
  obtain ⟨m, e, -, he, hm⟩ := onGrid_value h
  obtain ⟨n, hn⟩ := exists_mul_zpow_eq m he
  rcases abs_choice (value x) with habs | habs
  · exact ⟨n, by rw [← habs, hm, hn, Int.cast_natCast]⟩
  · refine ⟨-n, ?_⟩
    rw [Int.cast_neg, Int.cast_natCast, neg_mul, ← hn, ← hm, habs, neg_neg]

theorem isMultiple_sub {x y : Float} (hx : x.isFinite = true) (hy : y.isFinite = true)
    (hle : value x ≤ value y) : IsMultiple (value y - value x) := by
  obtain ⟨m, hm⟩ := exists_value_eq hx
  obtain ⟨n, hn⟩ := exists_value_eq hy
  rw [hm, hn, mul_le_mul_iff_left₀ (two_zpow_pos _), Int.cast_le] at hle
  refine ⟨(n - m).toNat, ?_⟩
  have hcast : (((n - m).toNat : ℤ) : ℚ) = n - m := by
    rw [Int.toNat_of_nonneg (by omega), Int.cast_sub]
  rw [hm, hn, ← sub_mul, ← Int.cast_natCast, hcast]

/-! ### Interpolation -/

/-- A double that lies at a share of the way from one double to another. -/
def interpolate (low high share : Float) : Float := low + (high - low) * share

section Finite

variable {low high share share' : Float}

/-- **A share of a finite difference**, rounded twice. -/
theorem value_sub_mul (hlow : low.isFinite = true) (hhigh : high.isFinite = true)
    (hdiff : (high - low).isFinite = true) (hshare : share.isFinite = true)
    (hnonneg : 0 ≤ value share) (hmost : value share ≤ 3 / 4) :
    ((high - low) * share).isFinite = true ∧ value ((high - low) * share) =
      rounded (value share * rounded (value high - value low)) := by
  have hvalue := (roundsTo_sub hhigh hlow).value_eq hdiff
  rw [← hvalue, mul_comm (value share)]
  refine (roundsTo_mul hdiff hshare).of_abs_le hdiff ?_
  rw [abs_mul, abs_of_nonneg hnonneg]
  exact mul_le_of_le_one_right (abs_nonneg _) (by linarith)

/-- **Between finite doubles whose difference is finite, interpolation stays between them.** -/
theorem interpolate_mem (hlow : low.isFinite = true) (hhigh : high.isFinite = true)
    (hdiff : (high - low).isFinite = true) (hshare : share.isFinite = true)
    (hle : value low ≤ value high) (hnonneg : 0 ≤ value share) (hmost : value share ≤ 3 / 4) :
    (interpolate low high share).isFinite = true ∧
      value low ≤ value (interpolate low high share) ∧
      value (interpolate low high share) ≤ value high := by
  obtain ⟨hfinite, hvalue⟩ := value_sub_mul hlow hhigh hdiff hshare hnonneg hmost
  refine (roundsTo_add hlow hfinite).of_mem hlow hhigh ?_ ?_
  · rw [hvalue]
    have := rounded_nonneg (mul_nonneg hnonneg (rounded_nonneg (sub_nonneg.mpr hle)))
    linarith
  · have := rounded_mul_rounded_le (isMultiple_sub hlow hhigh hle) hmost
    rw [hvalue]
    linarith

/-- **The greater the share, the greater the result.** -/
theorem interpolate_mono (hlow : low.isFinite = true) (hhigh : high.isFinite = true)
    (hdiff : (high - low).isFinite = true) (hshare : share.isFinite = true)
    (hshare' : share'.isFinite = true) (hle : value low ≤ value high) (hnonneg : 0 ≤ value share)
    (hmost : value share' ≤ 3 / 4) (hshares : value share ≤ value share') :
    value (interpolate low high share) ≤ value (interpolate low high share') := by
  have hmost₀ := hshares.trans hmost
  have hnonneg' := hnonneg.trans hshares
  obtain ⟨hfinite, hvalue⟩ := value_sub_mul hlow hhigh hdiff hshare hnonneg hmost₀
  obtain ⟨hfinite', hvalue'⟩ := value_sub_mul hlow hhigh hdiff hshare' hnonneg' hmost
  obtain ⟨hresult, -⟩ := interpolate_mem hlow hhigh hdiff hshare hle hnonneg hmost₀
  obtain ⟨hresult', -⟩ := interpolate_mem hlow hhigh hdiff hshare' hle hnonneg' hmost
  have hterms : value ((high - low) * share) ≤ value ((high - low) * share') := by
    rw [hvalue, hvalue']
    exact rounded_mono (mul_le_mul_of_nonneg_right hshares
      (rounded_nonneg (sub_nonneg.mpr hle)))
  have hsum := (roundsTo_add hlow hfinite).value_eq hresult
  have hsum' := (roundsTo_add hlow hfinite').value_eq hresult'
  calc value (interpolate low high share) = rounded (value low + value ((high - low) * share)) :=
        hsum
    _ ≤ rounded (value low + value ((high - low) * share')) := rounded_mono (by linarith)
    _ = value (interpolate low high share') := hsum'.symm

end Finite

/-! ### Infinities among the ends -/

section Infinite

variable {low high share : Float} {s : Sign}

/-- From an infinity there is no way that leads to a number. -/
theorem interpolate_isNaN (hlow : low.toModel.unpack = .infinity s) (hshare : share.isFinite = true)
    (hnonneg : 0 ≤ value share) : (interpolate low high share).isNaN = true := by
  by_contra hnumber
  rw [Bool.not_eq_true, interpolate] at hnumber
  -- then the share of the difference is a number, and so is the difference
  have hterm := (isNaN_of_add hnumber).2
  have hdiff : (high + -low).isNaN = false := by
    rw [← sub_eq_add_neg]
    cases h : (high - low).isNaN with
    | false => rfl
    | true => rw [isNaN_mul_of_isNaN (.inl h)] at hterm; cases hterm
  have hneg : (-low).toModel.unpack = .infinity (-s) := by
    rw [neg_unpack, hlow]
    rfl
  have hopposite := add_infinity_second hneg hdiff
  rw [← sub_eq_add_neg] at hopposite
  rcases hnonneg.eq_or_lt with hzero | hpos
  · rw [isNaN_mul_zero hopposite hshare hzero.symm] at hterm
    cases hterm
  · have hshared := mul_infinity_left hopposite hshare hpos
    rw [add_infinity_neg hlow hshared] at hnumber
    cases hnumber

/-- Past every bound interpolation ends at the infinity. -/
theorem interpolate_infinity (hlow : low.isFinite = true)
    (hdiff : (high - low).toModel.unpack = .infinity s) (hshare : share.isFinite = true)
    (hpos : 0 < value share) : (interpolate low high share).toModel.unpack = .infinity s :=
  add_infinity_right hlow (mul_infinity_left hdiff hshare hpos)

end Infinite

/-! ### Any two numbers -/

/-- **What interpolation is given**: two numbers in order, and a share of no more than three
quarters that is zero only where there is no way to go. -/
structure Ends (low high share : Float) : Prop where
  low_isNaN : low.isNaN = false
  high_isNaN : high.isNaN = false
  le : place low ≤ place high
  share_isFinite : share.isFinite = true
  nonneg : 0 ≤ value share
  most : value share ≤ 3 / 4
  same : value share = 0 → high = low

/-- **Whether there is a way to interpolate on**: it begins at a finite double, and if it ends at
one, then the difference is finite too. -/
def Interpolable (low high : Float) : Prop :=
  low.isFinite = true ∧ (high.isFinite = true → (high - low).isFinite = true)

instance (low high : Float) : Decidable (Interpolable low high) :=
  inferInstanceAs (Decidable (_ ∧ _))

section Ends

variable {low high share share' : Float}

/-- **A way from a finite double is of finite length, or it leads past every bound.** -/
theorem Ends.sub_cases (h : Ends low high share) (hlow : low.isFinite = true) :
    high.isFinite = true ∧ (high - low).isFinite = true ∨
      (high - low).toModel.unpack = .infinity .positive ∧ 0 < value share := by
  have hnumber := isNaN_sub_of_isFinite h.high_isNaN hlow
  obtain hfinite | ⟨s, hs⟩ := finite_or_infinity hnumber
  · exact .inl ⟨(isFinite_of_sub hfinite).1, hfinite⟩
  · obtain rfl := eq_positive_of_lt hs
      ((neg_lt_zero.mpr overflow_pos).trans_le (place_sub_nonneg hnumber h.le))
    refine .inr ⟨hs, h.nonneg.lt_of_ne fun hzero => ?_⟩
    -- there is no way to go from a double to itself
    obtain rfl := h.same hzero.symm
    have hself := roundsTo_sub hlow hlow
    rw [sub_self] at hself
    have hfinite := (hself.finite (by simpa using overflow_pos)).1
    rw [isFinite_of_infinity hs] at hfinite
    cases hfinite

theorem Ends.interpolate_of_infinity (h : Ends low high share) (hlow : low.isFinite = false) :
    (interpolate low high share).isNaN = true := by
  obtain hfinite | ⟨s, hs⟩ := finite_or_infinity h.low_isNaN
  · rw [hlow] at hfinite
    cases hfinite
  · exact interpolate_isNaN hs h.share_isFinite h.nonneg

/-- **Interpolation leads to a number exactly if it begins at a finite double.** -/
theorem Ends.isNaN_interpolate (h : Ends low high share) :
    (interpolate low high share).isNaN = !low.isFinite := by
  cases hlow : low.isFinite with
  | false => exact h.interpolate_of_infinity hlow
  | true =>
    obtain ⟨hhigh, hdiff⟩ | ⟨hdiff, hpos⟩ := h.sub_cases hlow
    · have hle := h.le
      rw [place_of_isFinite hlow, place_of_isFinite hhigh] at hle
      exact isNaN_of_isFinite
        (interpolate_mem hlow hhigh hdiff h.share_isFinite hle h.nonneg h.most).1
    · exact isNaN_of_infinity (interpolate_infinity hlow hdiff h.share_isFinite hpos)

/-- What is interpolated between two doubles lies between them, if there is a way. -/
theorem Ends.interpolate_mem (h : Ends low high share) (hway : Interpolable low high) :
    place low ≤ place (interpolate low high share) ∧
      place (interpolate low high share) ≤ place high := by
  obtain ⟨hlow, hlength⟩ := hway
  have hle := h.le
  obtain ⟨hhigh, hdiff⟩ | ⟨hdiff, hpos⟩ := h.sub_cases hlow
  · rw [place_of_isFinite hlow, place_of_isFinite hhigh] at hle ⊢
    obtain ⟨hfinite, hleft, hright⟩ :=
      Binary64.interpolate_mem hlow hhigh hdiff h.share_isFinite hle h.nonneg h.most
    rw [place_of_isFinite hfinite]
    exact ⟨hleft, hright⟩
  · have hinfinity := interpolate_infinity hlow hdiff h.share_isFinite hpos
    obtain hhigh | ⟨s, hs⟩ := finite_or_infinity h.high_isNaN
    · have hfinite := hlength hhigh
      rw [isFinite_of_infinity hdiff] at hfinite
      cases hfinite
    · -- the way leads to an infinity, which is its end
      obtain rfl := eq_positive_of_lt hs ((lt_place_of_isFinite hlow).trans_le hle)
      rw [place_of_infinity hinfinity, ← place_of_infinity hs]
      exact ⟨hle, le_rfl⟩

/-- **What is interpolated between two doubles lies between them exactly if there is a way.** -/
theorem Ends.interpolate_mem_iff (h : Ends low high share) :
    low ≤ interpolate low high share ∧ interpolate low high share ≤ high ↔
      Interpolable low high := by
  constructor
  · rintro ⟨hleft, hright⟩
    have hlow : low.isFinite = true := by
      by_contra hinfinite
      have hnan := h.interpolate_of_infinity (Bool.not_eq_true _ ▸ hinfinite)
      exact not_le_of_isNaN (.inr hnan) hleft
    refine ⟨hlow, fun hhigh => ?_⟩
    obtain ⟨-, hdiff⟩ | ⟨hdiff, hpos⟩ := h.sub_cases hlow
    · exact hdiff
    · have hinfinity := interpolate_infinity hlow hdiff h.share_isFinite hpos
      rw [le_iff_place_le (isNaN_of_infinity hinfinity) h.high_isNaN,
        place_of_infinity hinfinity] at hright
      exact absurd (place_lt_of_isFinite hhigh) hright.not_gt
  · intro hway
    have hnumber : (interpolate low high share).isNaN = false := by
      rw [h.isNaN_interpolate, hway.1]
      rfl
    rw [le_iff_place_le h.low_isNaN hnumber, le_iff_place_le hnumber h.high_isNaN]
    exact h.interpolate_mem hway

/-- **The greater the share, the farther the way.** -/
theorem Ends.interpolate_mono (h : Ends low high share) (h' : Ends low high share')
    (hlow : low.isFinite = true) (hshares : value share ≤ value share') :
    place (interpolate low high share) ≤ place (interpolate low high share') := by
  obtain ⟨hhigh, hdiff⟩ | ⟨hdiff, hpos⟩ := h.sub_cases hlow
  · have hle := h.le
    rw [place_of_isFinite hlow, place_of_isFinite hhigh] at hle
    obtain ⟨hfinite, -⟩ :=
      Binary64.interpolate_mem hlow hhigh hdiff h.share_isFinite hle h.nonneg h.most
    obtain ⟨hfinite', -⟩ :=
      Binary64.interpolate_mem hlow hhigh hdiff h'.share_isFinite hle h'.nonneg h'.most
    rw [place_of_isFinite hfinite, place_of_isFinite hfinite']
    exact Binary64.interpolate_mono hlow hhigh hdiff h.share_isFinite h'.share_isFinite hle
      h.nonneg h'.most hshares
  · rw [place_of_infinity (interpolate_infinity hlow hdiff h.share_isFinite hpos),
      place_of_infinity (interpolate_infinity hlow hdiff h'.share_isFinite (hpos.trans_le hshares))]

end Ends

end BenchReport.Binary64
