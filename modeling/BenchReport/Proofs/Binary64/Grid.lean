import Mathlib

/-!
# The grid of doubles

A double has 53 binary digits and no digit below `2 ^ -1074`, so the doubles around a
positive number are multiples of a power of two, its **quantum**: `2 ^ -52` of the greatest
power of two below it, but never less than `2 ^ -1074`. The result of an operation is the
multiple nearest to the exact result, and of two that are equally near the even one
(`BenchReport.Binary64.rounded`).

Three facts carry everything that is said about rounded results: rounding leaves a double as
it is (`BenchReport.Binary64.rounded_eq_self`), it keeps the order
(`BenchReport.Binary64.rounded_mono`), and it does not look at the sign
(`BenchReport.Binary64.rounded_neg`). Nothing here bounds the exponent from above: a result
that is too great is dealt with where doubles are packed.
-/

namespace BenchReport.Binary64

/-! ### Nearest integers -/

/-- The natural number nearest to a number that is not negative, of two the even one. -/
def roundEven (x : ℚ) : ℕ :=
  if x < ⌊x⌋₊ + 1 / 2 then ⌊x⌋₊
  else if x = ⌊x⌋₊ + 1 / 2 then ⌊x⌋₊ + ⌊x⌋₊ % 2
  else ⌊x⌋₊ + 1

section RoundEven

variable {x y : ℚ} {n : ℕ}

theorem roundEven_of_lt (hn : ⌊x⌋₊ = n) (h : x < n + 1 / 2) : roundEven x = n := by
  rw [roundEven, hn, if_pos h]

theorem roundEven_of_eq (hn : ⌊x⌋₊ = n) (h : x = n + 1 / 2) : roundEven x = n + n % 2 := by
  rw [roundEven, hn, if_neg h.not_lt, if_pos h]

theorem roundEven_of_gt (hn : ⌊x⌋₊ = n) (h : n + 1 / 2 < x) : roundEven x = n + 1 := by
  rw [roundEven, hn, if_neg h.not_gt, if_neg h.ne']

theorem floor_le_roundEven (x : ℚ) : ⌊x⌋₊ ≤ roundEven x := by
  rw [roundEven]
  split_ifs <;> omega

theorem roundEven_le_floor_add_one (x : ℚ) : roundEven x ≤ ⌊x⌋₊ + 1 := by
  rw [roundEven]
  split_ifs <;> omega

@[simp] theorem roundEven_natCast (n : ℕ) : roundEven n = n :=
  roundEven_of_lt (Nat.floor_natCast n) (by linarith)

/-- **Rounding to integers keeps the order.** -/
theorem roundEven_mono (h : x ≤ y) : roundEven x ≤ roundEven y := by
  rcases (Nat.floor_mono h).lt_or_eq with hlt | heq
  · calc roundEven x ≤ ⌊x⌋₊ + 1 := roundEven_le_floor_add_one x
      _ ≤ ⌊y⌋₊ := hlt
      _ ≤ roundEven y := floor_le_roundEven y
  · -- between two neighbours only the side of the half matters
    rcases lt_trichotomy x (⌊x⌋₊ + 1 / 2) with hx | hx | hx
    · rw [roundEven_of_lt rfl hx, heq]
      exact floor_le_roundEven y
    · rcases h.lt_or_eq with hlt | rfl
      · rw [roundEven_of_eq rfl hx, roundEven_of_gt heq.symm (hx ▸ hlt)]
        omega
      · rfl
    · rw [roundEven_of_gt rfl hx, roundEven_of_gt heq.symm (hx.trans_le h)]

end RoundEven

/-! ### Quanta -/

/-- The exponent of the quantum of a positive number. -/
def quantum (z : ℚ) : ℤ := max (Int.log 2 z - 52) (-1074)

section Quantum

variable {z w : ℚ}

theorem quantum_mono (hz : 0 < z) (h : z ≤ w) : quantum z ≤ quantum w :=
  max_le_max (Int.sub_le_sub_right (Int.log_mono_right hz h) 52) le_rfl

theorem two_zpow_pos (e : ℤ) : (0 : ℚ) < 2 ^ e := zpow_pos two_pos e

theorem two_pow_mul_zpow (n : ℕ) (e : ℤ) : (2 : ℚ) ^ n * 2 ^ e = 2 ^ (n + e) := by
  rw [zpow_add₀ two_ne_zero, zpow_natCast]

theorem mul_zpow_lt_of_lt {m n : ℕ} (h : m < 2 ^ n) (e : ℤ) : (m : ℚ) * 2 ^ e < 2 ^ (n + e) := by
  rw [← two_pow_mul_zpow]
  exact mul_lt_mul_of_pos_right (mod_cast h) (two_zpow_pos e)

theorem mul_zpow_le_of_le {m n : ℕ} (h : m ≤ 2 ^ n) (e : ℤ) : (m : ℚ) * 2 ^ e ≤ 2 ^ (n + e) := by
  rw [← two_pow_mul_zpow]
  exact mul_le_mul_of_nonneg_right (mod_cast h) (two_zpow_pos e).le

theorem le_mul_zpow_of_le {m n : ℕ} (h : 2 ^ n ≤ m) (e : ℤ) : 2 ^ (n + e) ≤ (m : ℚ) * 2 ^ e := by
  rw [← two_pow_mul_zpow]
  exact mul_le_mul_of_nonneg_right (mod_cast h) (two_zpow_pos e).le

/-- A number has at most 53 digits before the end of its quantum. -/
theorem div_quantum_lt (z : ℚ) : z / 2 ^ quantum z < 2 ^ 53 := by
  have hlog : z < 2 ^ (Int.log 2 z + 1) := mod_cast Int.lt_zpow_succ_log_self one_lt_two z
  rw [div_lt_iff₀ (two_zpow_pos _)]
  calc z < 2 ^ (Int.log 2 z + 1) := hlog
    _ ≤ 2 ^ (53 + quantum z) := zpow_le_zpow_right₀ one_le_two (by
      have : Int.log 2 z - 52 ≤ quantum z := le_max_left ..
      omega)
    _ = 2 ^ 53 * 2 ^ quantum z := (two_pow_mul_zpow 53 _).symm

/-- Above the least quantum a number has 53 digits before the end of its quantum. -/
theorem le_div_quantum (hz : 0 < z) (h : quantum z ≠ -1074) : 2 ^ 52 ≤ z / 2 ^ quantum z := by
  have hlog : (2 : ℚ) ^ Int.log 2 z ≤ z := mod_cast Int.zpow_log_le_self one_lt_two hz
  have hquantum : quantum z = Int.log 2 z - 52 := by
    rw [quantum] at h ⊢
    omega
  rw [le_div_iff₀ (two_zpow_pos _)]
  calc (2 : ℚ) ^ 52 * 2 ^ quantum z = 2 ^ (52 + quantum z) := two_pow_mul_zpow 52 _
    _ = 2 ^ Int.log 2 z := by rw [hquantum, add_sub_cancel]
    _ ≤ z := hlog

theorem roundEven_div_quantum_le (z : ℚ) : roundEven (z / 2 ^ quantum z) ≤ 2 ^ 53 := by
  have h : z / 2 ^ quantum z ≤ (2 ^ 53 : ℕ) := by
    push_cast
    exact (div_quantum_lt z).le
  simpa only [roundEven_natCast] using roundEven_mono h

theorem le_roundEven_div_quantum (hz : 0 < z) (h : quantum z ≠ -1074) :
    2 ^ 52 ≤ roundEven (z / 2 ^ quantum z) := by
  have hle : ((2 ^ 52 : ℕ) : ℚ) ≤ z / 2 ^ quantum z := by
    push_cast
    exact le_div_quantum hz h
  simpa only [roundEven_natCast] using roundEven_mono hle

end Quantum

/-! ### Nearest doubles -/

/-- The multiple of its quantum that is nearest to a number that is not negative. -/
def nearest (z : ℚ) : ℚ := roundEven (z / 2 ^ quantum z) * 2 ^ quantum z

/-- **The nearest double**, the exponent not bounded from above. -/
def rounded (z : ℚ) : ℚ := if z < 0 then -nearest (-z) else nearest z

/-- The magnitude of a double: at most 53 digits, and none below `2 ^ -1074`. -/
def OnGrid (v : ℚ) : Prop := ∃ (m : ℕ) (e : ℤ), m < 2 ^ 53 ∧ -1074 ≤ e ∧ v = m * 2 ^ e

section Nearest

variable {z w : ℚ}

@[simp] theorem nearest_zero : nearest 0 = 0 := by simp [nearest, roundEven]

theorem nearest_nonneg (z : ℚ) : 0 ≤ nearest z :=
  mul_nonneg (Nat.cast_nonneg _) (two_zpow_pos _).le

/-- A multiple of a power of two is one of every lower power. -/
theorem exists_mul_zpow_eq (m : ℕ) {k e : ℤ} (h : k ≤ e) :
    ∃ n : ℕ, (m : ℚ) * 2 ^ e = n * 2 ^ k := by
  refine ⟨m * 2 ^ (e - k).toNat, ?_⟩
  push_cast
  rw [mul_assoc, two_pow_mul_zpow, Int.toNat_of_nonneg (by omega), sub_add_cancel]

/-- A double is a multiple of its quantum. -/
theorem OnGrid.exists_eq_mul_quantum {v : ℚ} (h : OnGrid v) : ∃ n : ℕ, v = n * 2 ^ quantum v := by
  obtain ⟨m, e, hm, he, rfl⟩ := h
  rcases Nat.eq_zero_or_pos m with rfl | hpos
  · exact ⟨0, by simp⟩
  · have hv : (0 : ℚ) < m * 2 ^ e := mul_pos (mod_cast hpos) (two_zpow_pos e)
    have hlog : Int.log 2 ((m : ℚ) * 2 ^ e) < 53 + e := by
      rw [← Int.lt_zpow_iff_log_lt one_lt_two hv]
      exact_mod_cast mul_zpow_lt_of_lt hm e
    exact exists_mul_zpow_eq m (max_le (by omega) he)

/-- A double that is not below 53 digits of a unit is a multiple of the unit. -/
theorem OnGrid.exists_eq_mul {v : ℚ} (h : OnGrid v) {k : ℤ} (hle : 2 ^ (52 + k) ≤ v) :
    ∃ n : ℕ, v = n * 2 ^ k := by
  obtain ⟨m, e, hm, -, rfl⟩ := h
  have hke : k ≤ e := by
    by_contra hlt
    refine hle.not_gt ?_
    calc (m : ℚ) * 2 ^ e < 2 ^ (53 + e) := mul_zpow_lt_of_lt hm e
      _ ≤ 2 ^ (52 + k) := zpow_le_zpow_right₀ one_le_two (by omega)
  exact exists_mul_zpow_eq m hke

/-- Such a double that is greater than a multiple of the unit is so by a unit. -/
theorem OnGrid.add_le_of_lt {v : ℚ} (h : OnGrid v) {k : ℤ} (hle : 2 ^ (52 + k) ≤ v) {m : ℕ}
    (hlt : m * 2 ^ k < v) : m * 2 ^ k + 2 ^ k ≤ v := by
  obtain ⟨n, rfl⟩ := h.exists_eq_mul hle
  have hmn : m < n := by exact_mod_cast (mul_lt_mul_iff_left₀ (two_zpow_pos k)).mp hlt
  rw [← add_one_mul]
  exact mul_le_mul_of_nonneg_right (mod_cast hmn) (two_zpow_pos k).le

/-- Such a double that is less than a multiple of the unit is so by a unit. -/
theorem OnGrid.le_sub_of_lt {v : ℚ} (h : OnGrid v) {k : ℤ} (hle : 2 ^ (52 + k) ≤ v) {m : ℕ}
    (hlt : v < m * 2 ^ k) : v ≤ m * 2 ^ k - 2 ^ k := by
  obtain ⟨n, rfl⟩ := h.exists_eq_mul hle
  have hnm : n < m := by exact_mod_cast (mul_lt_mul_iff_left₀ (two_zpow_pos k)).mp hlt
  rw [le_sub_iff_add_le, ← add_one_mul]
  exact mul_le_mul_of_nonneg_right (mod_cast hnm) (two_zpow_pos k).le

/-- **A double is the nearest to itself.** -/
theorem nearest_eq_self (h : OnGrid z) : nearest z = z := by
  obtain ⟨n, hn⟩ := h.exists_eq_mul_quantum
  have hdiv : z / 2 ^ quantum z = n := by
    rw [div_eq_iff (two_zpow_pos _).ne', ← hn]
  rw [nearest, hdiv, roundEven_natCast, ← hn]

/-- **The nearest double grows with the number.** -/
theorem nearest_mono (hz : 0 ≤ z) (h : z ≤ w) : nearest z ≤ nearest w := by
  rcases hz.eq_or_lt with rfl | hz
  · rw [nearest_zero]
    exact nearest_nonneg w
  rcases (quantum_mono hz h).lt_or_eq with hlt | heq
  · -- the least number with the quantum of `w` lies between the two
    have hw : quantum w ≠ -1074 := by
      have : -1074 ≤ quantum z := le_max_right ..
      omega
    have hlow : (2 : ℚ) ^ (52 + quantum w) ≤ nearest w :=
      le_mul_zpow_of_le (le_roundEven_div_quantum (hz.trans_le h) hw) _
    have hhigh : nearest z ≤ 2 ^ (53 + quantum z) :=
      mul_zpow_le_of_le (roundEven_div_quantum_le z) _
    calc nearest z ≤ 2 ^ (53 + quantum z) := hhigh
      _ ≤ 2 ^ (52 + quantum w) := zpow_le_zpow_right₀ one_le_two (by omega)
      _ ≤ nearest w := hlow
  · rw [nearest, nearest, heq]
    have hround := roundEven_mono (div_le_div_of_nonneg_right h (two_zpow_pos (quantum w)).le)
    exact mul_le_mul_of_nonneg_right (mod_cast hround) (two_zpow_pos _).le

end Nearest

section Rounded

variable {z w : ℚ}

theorem rounded_of_nonneg (hz : 0 ≤ z) : rounded z = nearest z := if_neg hz.not_gt

theorem rounded_nonneg (hz : 0 ≤ z) : 0 ≤ rounded z := by
  rw [rounded_of_nonneg hz]
  exact nearest_nonneg z

@[simp] theorem rounded_zero : rounded 0 = 0 := by rw [rounded_of_nonneg le_rfl, nearest_zero]

/-- **Rounding does not look at the sign.** -/
@[simp] theorem rounded_neg (z : ℚ) : rounded (-z) = -rounded z := by
  rcases lt_trichotomy z 0 with hz | rfl | hz
  · rw [rounded_of_nonneg (by linarith), rounded, if_pos hz, neg_neg]
  · rw [neg_zero, rounded_zero, neg_zero]
  · rw [rounded, if_pos (by linarith), neg_neg, rounded_of_nonneg hz.le]

theorem abs_rounded (z : ℚ) : |rounded z| = nearest |z| := by
  rcases le_total 0 z with hz | hz
  · rw [abs_of_nonneg hz, abs_of_nonneg (rounded_nonneg hz), rounded_of_nonneg hz]
  · have h := rounded_nonneg (neg_nonneg.mpr hz)
    rw [rounded_neg] at h
    rw [abs_of_nonpos hz, abs_of_nonpos (by linarith), ← rounded_neg,
      rounded_of_nonneg (neg_nonneg.mpr hz)]

/-- **Rounding keeps the order.** -/
theorem rounded_mono (h : z ≤ w) : rounded z ≤ rounded w := by
  rcases le_total 0 z with hz | hz
  · rw [rounded_of_nonneg hz, rounded_of_nonneg (hz.trans h)]
    exact nearest_mono hz h
  · have hneg : ∀ v : ℚ, v ≤ 0 → rounded v = -nearest (-v) := by
      intro v hv
      rw [← rounded_of_nonneg (neg_nonneg.mpr hv), rounded_neg, neg_neg]
    rcases le_total 0 w with hw | hw
    · have hw' := rounded_nonneg hw
      have hz' := nearest_nonneg (-z)
      rw [hneg z hz]
      linarith
    · rw [hneg z hz, hneg w hw]
      exact neg_le_neg (nearest_mono (neg_nonneg.mpr hw) (neg_le_neg h))

/-- **A double is left as it is.** -/
theorem rounded_eq_self (h : OnGrid |z|) : rounded z = z := by
  rcases le_total 0 z with hz | hz
  · rw [rounded_of_nonneg hz, nearest_eq_self (abs_of_nonneg hz ▸ h)]
  · rw [abs_of_nonpos hz] at h
    have hself := rounded_of_nonneg (neg_nonneg.mpr hz)
    rw [nearest_eq_self h, rounded_neg] at hself
    linarith

end Rounded

end BenchReport.Binary64
