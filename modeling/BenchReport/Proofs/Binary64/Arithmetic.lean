import Mathlib
import BenchReport.Proofs.Binary64.Pack

/-!
# Arithmetic of doubles

A finite double has a value (`BenchReport.Binary64.value`), and an operation on finite
doubles gives the double nearest to the exact result, or an infinity where that is too great
(`BenchReport.Binary64.RoundsTo`). Each operation has one lemma that says so; what holds of
rounded values then holds of the results.

| operation | exact result | lemma |
|---|---|---|
| `x * y` | `value x * value y` | `BenchReport.Binary64.roundsTo_mul` |
| `x / y` | `value x / value y` | `BenchReport.Binary64.roundsTo_div` |
| `x + y` | `value x + value y` | `BenchReport.Binary64.roundsTo_add` |
| `x - y` | `value x - value y` | `BenchReport.Binary64.roundsTo_sub` |
| `n.toFloat` | `n` | `BenchReport.Binary64.roundsTo_toFloat` |

Finite doubles are compared by their values (`BenchReport.Binary64.le_iff`).
-/

namespace BenchReport.Binary64

open Float.Model Float.Model.UnpackedFloat

/-! ### Values -/

/-- A magnitude with a sign. -/
def signed : Sign → ℚ → ℚ
  | .negative, v => -v
  | .positive, v => v

/-- The value of an unpacked number. What is not finite is given none of its own. -/
def unpackedValue : UnpackedFloat → ℚ
  | .finite s m e _ => signed s (m * 2 ^ e)
  | _ => 0

/-- The value of a double. -/
def value (x : Float) : ℚ := unpackedValue x.toModel.unpack

/-- The sign of a number, zero counted as positive. -/
def signOf (z : ℚ) : Sign := if z < 0 then .negative else .positive

/-- **Whether a double is what a number is rounded to**: the nearest double, or an infinity
where that would be too great. -/
structure RoundsTo (x : Float) (z : ℚ) : Prop where
  /-- Below the bound the nearest double is met. -/
  finite : |rounded z| < overflow → x.isFinite = true ∧ value x = rounded z
  /-- From the bound on there is an infinity. -/
  infinite : overflow ≤ |rounded z| → x.toModel.unpack = .infinity (signOf z)

section Values

variable {f : UnpackedFloat} {s : Sign} {v z : ℚ}

@[simp] theorem signed_zero (s : Sign) : signed s 0 = 0 := by cases s <;> simp [signed]

theorem abs_signed (s : Sign) (hv : 0 ≤ v) : |signed s v| = v := by
  cases s
  · exact (abs_neg v).trans (abs_of_nonneg hv)
  · exact abs_of_nonneg hv

theorem rounded_signed (s : Sign) (hv : 0 ≤ v) : rounded (signed s v) = signed s (nearest v) := by
  cases s
  · exact (rounded_neg v).trans (congrArg Neg.neg (rounded_of_nonneg hv))
  · exact rounded_of_nonneg hv

theorem signOf_signed (s : Sign) (hv : 0 < v) : signOf (signed s v) = s := by
  cases s
  · exact if_pos (neg_lt_zero.mpr hv)
  · exact if_neg hv.not_gt

theorem Holds.nonneg (h : Holds f s v) : 0 ≤ v := by
  cases h with
  | zero => exact le_rfl
  | finite => positivity

theorem Holds.unpackedValue_eq (h : Holds f s v) : unpackedValue f = signed s v := by
  cases h with
  | zero => exact (signed_zero s).symm
  | finite => rfl

theorem Holds.isFinite (h : Holds f s v) : f.isFinite = true := by
  cases h <;> rfl

/-- **A finite double is a magnitude with a sign**, in canonical form and below the bound. -/
theorem exists_holds {x : Float} (h : x.isFinite = true) :
    ∃ s v, Holds x.toModel.unpack s v ∧ v < overflow ∧ value x = signed s v := by
  rcases unpack_cases x.toModel with ⟨s, v, hv, hlt⟩ | ⟨s, hs⟩ | hnone
  · exact ⟨s, v, hv, hlt, hv.unpackedValue_eq⟩
  · change x.toModel.unpack.isFinite = true at h
    rw [hs] at h
    cases h
  · change x.toModel.unpack.isFinite = true at h
    rw [hnone] at h
    cases h

/-- The value of a positive double whose mantissa and exponent are known. -/
theorem value_of_unpack {x : Float} (m : ℕ) (e : ℤ) {hm : 0 < m}
    (h : x.toModel.unpack = .finite .positive m e hm) : value x = m * 2 ^ e := by
  rw [value, h]
  rfl

theorem value_one : value 1 = 1 :=
  (value_of_unpack (2 ^ 52) (-52) rfl).trans (by norm_num)

theorem onGrid_value {x : Float} (h : x.isFinite = true) : OnGrid |value x| := by
  obtain ⟨s, v, hv, -, hvalue⟩ := exists_holds h
  rw [hvalue, abs_signed s hv.nonneg]
  exact hv.onGrid

theorem abs_value_lt_overflow {x : Float} (h : x.isFinite = true) : |value x| < overflow := by
  obtain ⟨s, v, hv, hlt, hvalue⟩ := exists_holds h
  rwa [hvalue, abs_signed s hv.nonneg]

/-- The value of a finite double is a double. -/
theorem rounded_value {x : Float} (h : x.isFinite = true) : rounded (value x) = value x :=
  rounded_eq_self (onGrid_value h)

/-- **What is packed is what was rounded**, or an infinity. -/
theorem roundsTo_pack (hz : 0 ≤ z) (h : Holds f s (nearest z)) :
    RoundsTo (.ofModel (.pack f)) (signed s z) := by
  have hrounded := rounded_signed s hz
  constructor
  · intro hlt
    rw [hrounded, abs_signed s (nearest_nonneg z)] at hlt
    have hunpack := unpack_pack_of_lt h hlt
    constructor
    · change (Float.Model.pack f).unpack.isFinite = true
      rw [hunpack]
      exact h.isFinite
    · change unpackedValue (Float.Model.pack f).unpack = _
      rw [hunpack, h.unpackedValue_eq, hrounded]
  · intro hle
    rw [hrounded, abs_signed s (nearest_nonneg z)] at hle
    have hpos : 0 < z := by
      refine hz.lt_of_ne fun hzero => ?_
      rw [← hzero, nearest_zero] at hle
      exact absurd hle overflow_pos.not_ge
    rw [signOf_signed s hpos]
    exact unpack_pack_of_le h hle

/-- A double is rounded to itself. -/
theorem roundsTo_of_holds (h : Holds f s v) : RoundsTo (.ofModel (.pack f)) (signed s v) :=
  roundsTo_pack h.nonneg (by rwa [nearest_eq_self h.onGrid])

theorem roundsTo_zero (s : Sign) : RoundsTo (.ofModel (.pack (.zero s))) 0 := by
  have h := roundsTo_of_holds (.zero s)
  rwa [signed_zero] at h

/-- Between finite doubles nothing is too great. -/
theorem RoundsTo.of_abs_le {x c : Float} (h : RoundsTo x z) (hc : c.isFinite = true)
    (hle : |z| ≤ |value c|) : x.isFinite = true ∧ value x = rounded z := by
  refine h.finite ?_
  calc |rounded z| = nearest |z| := abs_rounded z
    _ ≤ nearest |value c| := nearest_mono (abs_nonneg z) hle
    _ = |rounded (value c)| := (abs_rounded _).symm
    _ = |value c| := by rw [rounded_value hc]
    _ < overflow := abs_value_lt_overflow hc

end Values

/-! ### Rounding exact results -/

section Exact

variable {m : ℕ} {e : ℤ} {z : ℚ}

/-- A number from a power of two on has at least the quantum of the power. -/
theorem le_quantum {k : ℤ} (h : 2 ^ k ≤ z) : max (k - 52) (-1074) ≤ quantum z := by
  have hz : 0 < z := (two_zpow_pos k).trans_le h
  have hlog : k ≤ Int.log 2 z := by
    rw [← Int.zpow_le_iff_le_log one_lt_two hz]
    exact_mod_cast h
  exact max_le_max (Int.sub_le_sub_right hlog 52) le_rfl

theorem stands_mul_zpow (m : ℕ) (e : ℤ) :
    Stands (.ofMantissaAndAccuracy m .exact) (m * 2 ^ e / 2 ^ e) := by
  rw [mul_div_cancel_right₀ _ (two_zpow_pos e).ne']
  exact stands_exact m

/-- An exact mantissa is rounded to the nearest double. -/
theorem holds_roundWithAccuracy_exact (s : Sign) (hm : 0 < m) (he : e ≤ quantum (m * 2 ^ e)) :
    Holds (roundWithAccuracy .binary64 s m e .exact) s (nearest (m * 2 ^ e)) :=
  holds_roundWithAccuracy s (mul_pos (mod_cast hm) (two_zpow_pos e)) (stands_mul_zpow m e) he

/-- A mantissa is moved to a smaller exponent without loss. -/
theorem decreaseExponent_eq (m : ℕ) (e t : ℤ) :
    (decreaseExponent m e t).2 = min e t ∧
      ((decreaseExponent m e t).1 : ℚ) * 2 ^ min e t = m * 2 ^ e := by
  have hexponent : e - ((e - t).toNat : ℤ) = min e t := by omega
  refine ⟨hexponent, ?_⟩
  rw [decreaseExponent]
  push_cast [Nat.shiftLeft_eq]
  rw [mul_assoc, two_pow_mul_zpow]
  congr 2
  omega

/-- **A number of any exponent is rounded to the nearest double.** -/
theorem holds_round (s : Sign) (hm : 0 < m) (e : ℤ) :
    Holds (UnpackedFloat.round .binary64 s m e) s (nearest (m * 2 ^ e)) := by
  have hz : (0 : ℚ) < m * 2 ^ e := mul_pos (mod_cast hm) (two_zpow_pos e)
  have htarget : Format.binary64.targetExponent (totalExponent m e) = quantum (m * 2 ^ e) := by
    rw [targetExponent_eq, quantum, log_eq_of_stands hz hm (stands_mul_zpow m e)]
  obtain ⟨hexponent, hvalue⟩ := decreaseExponent_eq m e (quantum (m * 2 ^ e))
  rw [UnpackedFloat.round, htarget]
  generalize decreaseExponent m e (quantum (m * 2 ^ e)) = moved at *
  obtain ⟨m', e'⟩ := moved
  obtain rfl : e' = min e (quantum (m * 2 ^ e)) := hexponent
  have hm' : 0 < m' := by
    refine Nat.pos_of_ne_zero fun hzero => hz.ne ?_
    rw [← hvalue]
    simp [hzero]
  have hround := holds_roundWithAccuracy_exact (e := min e (quantum (m * 2 ^ e))) s hm'
    (by rw [hvalue]; exact min_le_right ..)
  rwa [hvalue] at hround

/-- **A signed mantissa is rounded to the nearest double**, zero to zero. -/
theorem roundsTo_normalize (m e : ℤ) (zeroSign : Sign) :
    RoundsTo (.ofModel (.pack (normalize .binary64 m e zeroSign))) (m * 2 ^ e) := by
  rw [UnpackedFloat.normalize]
  rcases lt_trichotomy m 0 with hm | rfl | hm
  · rw [compare_lt_iff_lt.mpr hm]
    have hround := holds_round .negative (m := (-m).toNat) (by omega) e
    have hcast : (((-m).toNat : ℤ) : ℚ) = -m := by
      rw [Int.toNat_of_nonneg (by omega)]
      push_cast
      rfl
    have hpack := roundsTo_pack (mul_nonneg (Nat.cast_nonneg _) (two_zpow_pos e).le) hround
    rw [signed, ← neg_mul, ← Int.cast_natCast, hcast, neg_neg] at hpack
    exact hpack
  · rw [compare_eq_iff_eq.mpr rfl, Int.cast_zero, zero_mul]
    exact roundsTo_zero zeroSign
  · rw [compare_gt_iff_gt.mpr hm]
    have hround := holds_round .positive (m := m.toNat) (by omega) e
    have hcast : ((m.toNat : ℤ) : ℚ) = m := by rw [Int.toNat_of_nonneg hm.le]
    have hpack := roundsTo_pack (mul_nonneg (Nat.cast_nonneg _) (two_zpow_pos e).le) hround
    rw [signed, ← Int.cast_natCast, hcast] at hpack
    exact hpack

end Exact

/-! ### Operations -/

section Operations

variable {x y : Float}

theorem signed_neg (s : Sign) (v : ℚ) : signed (-s) v = -signed s v := by
  cases s
  · exact (neg_neg v).symm
  · rfl

theorem signed_mul (s t : Sign) (v w : ℚ) : signed (s * t) (v * w) = signed s v * signed t w := by
  cases s <;> cases t
  · exact (neg_mul_neg v w).symm
  · exact (neg_mul v w).symm
  · exact (mul_neg v w).symm
  · rfl

theorem signed_div (s t : Sign) (v w : ℚ) : signed (s / t) (v / w) = signed s v / signed t w := by
  cases s <;> cases t
  · exact (neg_div_neg_eq v w).symm
  · exact (neg_div w v).symm
  · exact (div_neg v).symm
  · rfl

/-- The product of two canonical numbers has enough digits. -/
theorem add_le_quantum_mul {m m' : ℕ} {e e' : ℤ} (h : Canonical m e) (h' : Canonical m' e')
    (hm : 0 < m) (hm' : 0 < m') : e + e' ≤ quantum ((m * m' : ℕ) * 2 ^ (e + e')) := by
  by_cases hnormal : 2 ^ 52 ≤ m * m'
  · have := le_quantum (le_mul_zpow_of_le hnormal (e + e'))
    omega
  · -- neither factor is a normal number, so both exponents are the least
    have he : e = -1074 := h.normal.resolve_left fun hle =>
      hnormal (hle.trans (Nat.le_mul_of_pos_right m hm'))
    have he' : e' = -1074 := h'.normal.resolve_left fun hle =>
      hnormal (hle.trans (Nat.le_mul_of_pos_left m' hm))
    have hleast : -1074 ≤ quantum ((m * m' : ℕ) * 2 ^ (e + e')) := le_max_right ..
    omega

/-- **A product is rounded.** -/
theorem roundsTo_mul (hx : x.isFinite = true) (hy : y.isFinite = true) :
    RoundsTo (x * y) (value x * value y) := by
  obtain ⟨s, v, hv, -, hvalue⟩ := exists_holds hx
  obtain ⟨t, w, hw, -, hvalue'⟩ := exists_holds hy
  change RoundsTo (.ofModel (.pack (mul .binary64 x.toModel.unpack y.toModel.unpack))) _
  rw [hvalue, hvalue', ← signed_mul]
  refine roundsTo_pack (mul_nonneg hv.nonneg hw.nonneg) ?_
  generalize x.toModel.unpack = f at hv
  generalize y.toModel.unpack = g at hw
  cases hv with
  | zero =>
    rw [zero_mul, nearest_zero]
    cases hw <;> exact .zero _
  | @finite _ m e hm h =>
    cases hw with
    | zero =>
      rw [mul_zero, nearest_zero]
      exact .zero _
    | @finite _ m' e' hm' h' =>
      have hproduct : (m : ℚ) * 2 ^ e * (m' * 2 ^ e') = (m * m' : ℕ) * 2 ^ (e + e') := by
        rw [zpow_add₀ two_ne_zero]
        push_cast
        ring
      rw [hproduct]
      exact holds_roundWithAccuracy_exact (s * t) (Nat.mul_pos hm hm')
        (add_le_quantum_mul h h' hm hm')

/-- The quotient of two numbers is not far below that of the powers of two with which they
begin. -/
theorem zpow_le_div {m m' : ℕ} (hm : 0 < m) (hm' : 0 < m') (e e' : ℤ) :
    (2 : ℚ) ^ ((m.log2 : ℤ) + e - (m'.log2 + 1 + e')) ≤ m * 2 ^ e / (m' * 2 ^ e') := by
  have hself : 2 ^ m.log2 ≤ m := Nat.log2_self_le hm.ne'
  have hnext : m' ≤ 2 ^ (m'.log2 + 1) := Nat.lt_log2_self.le
  rw [zpow_sub₀ two_ne_zero]
  refine div_le_div₀ (by positivity) ?_ (mul_pos (mod_cast hm') (two_zpow_pos e')) ?_
  · exact le_mul_zpow_of_le hself e
  · exact_mod_cast mul_zpow_le_of_le hnext e'

/-- **A division has enough digits**, and its rest shows what is left. -/
theorem stands_divCore {m m' : ℕ} (hm : 0 < m) (hm' : 0 < m') (e e' : ℤ) :
    let core := divCore .binary64 m e m' e'
    core.2.1 ≤ quantum (m * 2 ^ e / (m' * 2 ^ e')) ∧
      Stands (.ofMantissaAndAccuracy core.1 core.2.2)
        (m * 2 ^ e / (m' * 2 ^ e') / 2 ^ core.2.1) := by
  have hwanted : Format.binary64.targetExponent (totalExponent m e - totalExponent m' e') =
      max ((m.log2 : ℤ) + e - (m'.log2 + 1 + e') - 52) (-1074) := by
    simp only [Format.targetExponent, totalExponent, Format.mantissaBits, Format.minExponent]
    norm_num
    omega
  rw [divCore, hwanted]
  generalize hshift : min (e - e') (max ((m.log2 : ℤ) + e - (m'.log2 + 1 + e') - 52) (-1074)) = t
  simp only [Nat.shiftLeft_eq]
  generalize hmoved : m * 2 ^ (e - e' - t).toNat = moved
  refine ⟨?_, ?_⟩
  · have := le_quantum (zpow_le_div hm hm' e e')
    omega
  · have hquotient : (m : ℚ) * 2 ^ e / (m' * 2 ^ e') / 2 ^ t = moved / m' := by
      have hexponent : (e - e' - t).toNat = e - e' - t := by omega
      rw [← hmoved]
      push_cast
      rw [← zpow_natCast, hexponent, zpow_sub₀ two_ne_zero, zpow_sub₀ two_ne_zero]
      field_simp
    have hdivision : (moved : ℚ) / m' = (moved / m' : ℕ) + ((moved % m' : ℕ) : ℚ) / m' := by
      have hne : (m' : ℚ) ≠ 0 := mod_cast hm'.ne'
      rw [div_eq_iff hne, add_mul, div_mul_cancel₀ _ hne]
      exact_mod_cast (Nat.div_add_mod' moved m').symm
    rw [hquotient, hdivision]
    exact stands_accuracyOfFraction _ (Nat.mod_lt _ hm')

/-- **A quotient is rounded.** -/
theorem roundsTo_div (hx : x.isFinite = true) (hy : y.isFinite = true) (hne : value y ≠ 0) :
    RoundsTo (x / y) (value x / value y) := by
  obtain ⟨s, v, hv, -, hvalue⟩ := exists_holds hx
  obtain ⟨t, w, hw, -, hvalue'⟩ := exists_holds hy
  change RoundsTo (.ofModel (.pack (div .binary64 x.toModel.unpack y.toModel.unpack))) _
  rw [hvalue'] at hne
  rw [hvalue, hvalue', ← signed_div]
  refine roundsTo_pack (div_nonneg hv.nonneg hw.nonneg) ?_
  generalize x.toModel.unpack = f at hv
  generalize y.toModel.unpack = g at hw
  cases hw with
  | zero => exact absurd (signed_zero t) hne
  | @finite _ m' e' hm' h' =>
    cases hv with
    | zero =>
      rw [zero_div, nearest_zero]
      exact .zero _
    | @finite _ m e hm h =>
      obtain ⟨hexponent, hstands⟩ := stands_divCore hm hm' e e'
      have hz : (0 : ℚ) < m * 2 ^ e / (m' * 2 ^ e') := by
        have hpos : (0 : ℚ) < m := mod_cast hm
        have hpos' : (0 : ℚ) < m' := mod_cast hm'
        positivity
      exact holds_roundWithAccuracy (s / t) hz hstands hexponent

/-- A signed mantissa moved to a smaller exponent keeps its value. -/
theorem apply_decreaseExponent (s : Sign) (m : ℕ) {e t : ℤ} (h : t ≤ e) :
    ((s.apply (decreaseExponent m e t).1 : ℤ) : ℚ) * 2 ^ t = signed s (m * 2 ^ e) := by
  have hvalue := (decreaseExponent_eq m e t).2
  rw [min_eq_right h] at hvalue
  cases s
  · change ((-((decreaseExponent m e t).1 : ℤ) : ℤ) : ℚ) * 2 ^ t = -(m * 2 ^ e)
    rw [← hvalue]
    push_cast
    ring
  · exact hvalue

/-- The sum of unpacked numbers is rounded. -/
theorem Holds.roundsTo_add {f g : UnpackedFloat} {s t : Sign} {v w : ℚ} (hf : Holds f s v)
    (hg : Holds g t w) :
    RoundsTo (.ofModel (.pack (add .binary64 f g))) (signed s v + signed t w) := by
  cases hf with
  | zero =>
    rw [signed_zero, zero_add]
    cases hg with
    | zero =>
      rw [signed_zero]
      cases s <;> cases t <;> exact roundsTo_zero _
    | finite _ hm h => exact roundsTo_of_holds (.finite t hm h)
  | @finite _ m e hm h =>
    cases hg with
    | zero =>
      rw [signed_zero, add_zero]
      exact roundsTo_of_holds (.finite s hm h)
    | @finite _ m' e' hm' h' =>
      rw [← apply_decreaseExponent s m (min_le_left e e'),
        ← apply_decreaseExponent t m' (min_le_right e e'), ← add_mul, ← Int.cast_add]
      exact roundsTo_normalize _ _ _

theorem Holds.neg {g : UnpackedFloat} {t : Sign} {w : ℚ} (h : Holds g t w) :
    Holds g.neg (-t) w := by
  cases h with
  | zero => exact .zero _
  | finite _ hm h => exact .finite _ hm h

/-- Taking a number away is adding it with the other sign. -/
theorem Holds.sub_eq {f g : UnpackedFloat} {s t : Sign} {v w : ℚ} (hf : Holds f s v)
    (hg : Holds g t w) : sub .binary64 f g = add .binary64 f g.neg := by
  cases hf with
  | zero => cases hg <;> rfl
  | finite =>
    cases hg with
    | zero => rfl
    | finite =>
      have happly : ∀ n : ℕ, (-t).apply n = -t.apply n := fun n => by
        cases t <;> simp [Sign.apply]
      simp only [UnpackedFloat.sub, UnpackedFloat.add, UnpackedFloat.neg, happly,
        Int.sub_eq_add_neg]

/-- **A sum is rounded.** -/
theorem roundsTo_add (hx : x.isFinite = true) (hy : y.isFinite = true) :
    RoundsTo (x + y) (value x + value y) := by
  obtain ⟨s, v, hv, -, hvalue⟩ := exists_holds hx
  obtain ⟨t, w, hw, -, hvalue'⟩ := exists_holds hy
  rw [hvalue, hvalue']
  exact hv.roundsTo_add hw

/-- **A difference is rounded.** -/
theorem roundsTo_sub (hx : x.isFinite = true) (hy : y.isFinite = true) :
    RoundsTo (x - y) (value x - value y) := by
  obtain ⟨s, v, hv, -, hvalue⟩ := exists_holds hx
  obtain ⟨t, w, hw, -, hvalue'⟩ := exists_holds hy
  have hsum := hv.roundsTo_add hw.neg
  rw [← hv.sub_eq hw, signed_neg] at hsum
  rw [hvalue, hvalue', sub_eq_add_neg]
  exact hsum

/-- **A word is rounded.** -/
theorem roundsTo_toFloat (n : UInt64) : RoundsTo n.toFloat n.toNat := by
  have h := roundsTo_normalize n.toNat 0 .positive
  rw [zpow_zero, mul_one, Int.cast_natCast] at h
  exact h

end Operations

/-! ### Comparison -/

section Compare

variable {f g : UnpackedFloat} {s t : Sign} {v w : ℚ}

/-- Of two canonical numbers the one with the greater exponent is greater. -/
theorem Canonical.mul_zpow_lt {m m' : ℕ} {e e' : ℤ} (h : Canonical m e) (h' : Canonical m' e')
    (hlt : e < e') : (m : ℚ) * 2 ^ e < m' * 2 ^ e' := by
  have hleast := h.le
  have hm' : 2 ^ 52 ≤ m' := h'.normal.resolve_right (by omega)
  calc (m : ℚ) * 2 ^ e < 2 ^ (53 + e) := mul_zpow_lt_of_lt h.lt e
    _ ≤ 2 ^ (52 + e') := zpow_le_zpow_right₀ one_le_two (by omega)
    _ ≤ m' * 2 ^ e' := le_mul_zpow_of_le hm' e'

/-- Canonical numbers are compared by their exponents, then by their mantissas. -/
theorem Canonical.compare_eq {m m' : ℕ} {e e' : ℤ} (h : Canonical m e) (h' : Canonical m' e') :
    (compare e e').then (compare m m') = compare ((m : ℚ) * 2 ^ e) (m' * 2 ^ e') := by
  rcases lt_trichotomy e e' with he | rfl | he
  · rw [compare_lt_iff_lt.mpr he, compare_lt_iff_lt.mpr (h.mul_zpow_lt h' he)]
    rfl
  · rw [compare_eq_iff_eq.mpr rfl]
    have hscaled : ∀ n n' : ℕ, n < n' ↔ (n : ℚ) * 2 ^ e < n' * 2 ^ e := fun n n' => by
      rw [mul_lt_mul_iff_left₀ (two_zpow_pos e), Nat.cast_lt]
    exact compare_congr (hscaled m m') (hscaled m' m)
  · rw [compare_gt_iff_gt.mpr he, compare_gt_iff_gt.mpr (h'.mul_zpow_lt h he)]
    rfl

theorem swap_compare_eq (v w : ℚ) : (compare v w).swap = compare (-v) (-w) := by
  rw [← Std.OrientedOrd.eq_swap]
  exact compare_congr neg_lt_neg_iff.symm neg_lt_neg_iff.symm

/-- **Unpacked numbers are compared by their values.** -/
theorem Holds.compare_eq (hf : Holds f s v) (hg : Holds g t w) :
    f.compare g = some (compare (signed s v) (signed t w)) := by
  have hpos : ∀ {m : ℕ} (e : ℤ), 0 < m → (0 : ℚ) < m * 2 ^ e := fun e hm =>
    mul_pos (mod_cast hm) (two_zpow_pos e)
  cases hf with
  | zero =>
    rw [signed_zero]
    cases hg with
    | zero => rw [signed_zero, compare_eq_iff_eq.mpr rfl]; rfl
    | @finite _ m e hm h =>
      cases t
      · exact congrArg some (compare_gt_iff_gt.mpr (neg_lt_zero.mpr (hpos e hm))).symm
      · exact congrArg some (compare_lt_iff_lt.mpr (hpos e hm)).symm
  | @finite _ m e hm h =>
    cases hg with
    | zero =>
      rw [signed_zero]
      cases s
      · exact congrArg some (compare_lt_iff_lt.mpr (neg_lt_zero.mpr (hpos e hm))).symm
      · exact congrArg some (compare_gt_iff_gt.mpr (hpos e hm)).symm
    | @finite _ m' e' hm' h' =>
      have hv := hpos e hm
      have hw := hpos e' hm'
      cases s <;> cases t
      · change some ((compare e e').then (compare m m')).swap = _
        rw [h.compare_eq h', swap_compare_eq]
        rfl
      · exact congrArg some (compare_lt_iff_lt.mpr ((neg_lt_zero.mpr hv).trans hw)).symm
      · exact congrArg some (compare_gt_iff_gt.mpr ((neg_lt_zero.mpr hw).trans hv)).symm
      · exact congrArg some (h.compare_eq h')

variable {x y : Float}

theorem compare_unpack (hx : x.isFinite = true) (hy : y.isFinite = true) :
    x.toModel.unpack.compare y.toModel.unpack = some (compare (value x) (value y)) := by
  obtain ⟨s, v, hv, -, hvalue⟩ := exists_holds hx
  obtain ⟨t, w, hw, -, hvalue'⟩ := exists_holds hy
  rw [hvalue, hvalue', hv.compare_eq hw]

/-- **Finite doubles are compared by their values.** -/
theorem le_iff (hx : x.isFinite = true) (hy : y.isFinite = true) : x ≤ y ↔ value x ≤ value y := by
  have hle : x ≤ y ↔ (x.toModel.unpack.compare y.toModel.unpack).any (·.isLE) = true :=
    decide_eq_true_iff
  rw [hle, compare_unpack hx hy]
  exact Ordering.ne_gt_iff_isLE.symm.trans compare_le_iff_le

theorem lt_iff (hx : x.isFinite = true) (hy : y.isFinite = true) : x < y ↔ value x < value y := by
  have hlt : x < y ↔ (x.toModel.unpack.compare y.toModel.unpack == some .lt) = true :=
    decide_eq_true_iff
  rw [hlt, compare_unpack hx hy, beq_iff_eq, Option.some.injEq]
  exact compare_lt_iff_lt

/-- Compared the other way round, the order is the other one. -/
theorem compare_swap (f g : UnpackedFloat) : g.compare f = (f.compare g).map Ordering.swap := by
  have hthen : ∀ (e e' : ℤ) (m m' : ℕ), ((compare e e').then (compare m m')).swap =
      (compare e' e).then (compare m' m) := fun e e' m m' => by
    rw [Ordering.swap_then, Int.compare_swap, Nat.compare_swap]
  cases f with
  | notANumber => cases g <;> rfl
  | infinity s =>
    cases s <;> cases g with
    | infinity t => cases t <;> rfl
    | _ => rfl
  | zero s =>
    cases g with
    | infinity t | finite t => cases t <;> rfl
    | _ => rfl
  | finite s m e hm =>
    cases s <;> cases g with
    | infinity t => cases t <;> rfl
    | finite t m' e' hm' =>
      -- of one sign, the exponents and the mantissas are compared
      cases t <;> first | rfl | exact congrArg some (by simp [hthen])
    | _ => rfl

/-- What is less is not at least as great, infinities and all. -/
theorem not_le_of_lt (h : x < y) : ¬y ≤ x := by
  intro hle
  have hlt : (x.toModel.unpack.compare y.toModel.unpack == some .lt) = true := of_decide_eq_true h
  have hle' : (y.toModel.unpack.compare x.toModel.unpack).any (·.isLE) = true :=
    of_decide_eq_true hle
  rw [compare_swap, beq_iff_eq.mp hlt] at hle'
  cases hle'

/-- Nothing is at most what is no number. -/
theorem not_le_of_unpack_eq (hy : y.toModel.unpack = .notANumber) : ¬x ≤ y := by
  intro h
  have hle : (x.toModel.unpack.compare y.toModel.unpack).any (·.isLE) = true := of_decide_eq_true h
  rw [hy, compare_swap] at hle
  cases hle

end Compare

end BenchReport.Binary64
