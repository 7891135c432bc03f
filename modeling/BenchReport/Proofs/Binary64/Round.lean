import Mathlib
import BenchReport.Proofs.Binary64.Grid

/-!
# Rounding a mantissa

The model of doubles rounds by shifting: a mantissa is shifted right until its exponent is
that of the result, and two bits keep what a rounding has to know of the digits that fall
off. This module says what the two bits mean (`BenchReport.Binary64.Stands`), that they keep
their meaning in a shift (`BenchReport.Binary64.Stands.shiftRight`), and that a mantissa is
therefore rounded to the nearest double of the number that it stands for
(`BenchReport.Binary64.holds_roundWithAccuracy`).

What rounding gives is in canonical form, that is, its exponent is that of its quantum: this
is the form in which doubles are compared and packed.
-/

namespace BenchReport.Binary64

open Float.Model Float.Model.UnpackedFloat

/-! ### What the two bits mean -/

/-- Whether a mantissa with its two bits stands for a number: it is the whole part, the first
bit says whether the half is reached, and the second whether neither the whole part nor the
half is met. -/
structure Stands (em : ExtendedMantissa) (x : ℚ) : Prop where
  /-- The number is not below the mantissa. -/
  le : (em.mantissa : ℚ) ≤ x
  /-- It is below the next one. -/
  lt : x < em.mantissa + 1
  /-- The first bit is that of the half. -/
  roundBit : em.roundBit = true ↔ em.mantissa + 1 / 2 ≤ x
  /-- The second is that of what is left. -/
  stickyBit : em.stickyBit = true ↔ x ≠ em.mantissa ∧ x ≠ em.mantissa + 1 / 2

section Stands

variable {em : ExtendedMantissa} {x : ℚ}

theorem Stands.floor (h : Stands em x) : ⌊x⌋₊ = em.mantissa := by
  rw [Nat.floor_eq_iff ((Nat.cast_nonneg _).trans h.le)]
  exact ⟨h.le, h.lt⟩

/-- Together the two bits say whether anything is left. -/
theorem Stands.or_bits (h : Stands em x) :
    (em.roundBit || em.stickyBit) = true ↔ x ≠ em.mantissa := by
  rw [Bool.or_eq_true, h.roundBit, h.stickyBit]
  constructor
  · rintro (hhalf | ⟨hne, -⟩)
    · intro heq
      linarith
    · exact hne
  · intro hne
    rcases le_or_gt ((em.mantissa : ℚ) + 1 / 2) x with hhalf | hhalf
    · exact .inl hhalf
    · exact .inr ⟨hne, hhalf.ne⟩

/-- **A shift halves the number.** -/
theorem Stands.shiftRightOne (h : Stands em x) : Stands em.shiftRightOne (x / 2) := by
  have hbits := h.or_bits
  have hle := h.le
  have hlt := h.lt
  obtain ⟨k, hk | hk⟩ := Nat.even_or_odd' em.mantissa
  · have hdiv : em.mantissa / 2 = k := by omega
    have hmod : em.mantissa % 2 = 0 := by omega
    rw [hk] at hle hlt hbits
    push_cast at hle hlt hbits
    refine ⟨?_, ?_, ?_, ?_⟩ <;> simp only [ExtendedMantissa.shiftRightOne, hdiv, hmod, hbits]
    · linarith
    · linarith
    · exact iff_of_false (by simp) (by intro hhalf; linarith)
    · constructor
      · intro hne
        exact ⟨fun heq => hne (by linarith), fun heq => absurd hlt (by linarith)⟩
      · rintro ⟨hne, -⟩ heq
        exact hne (by linarith)
  · have hdiv : em.mantissa / 2 = k := by omega
    have hmod : em.mantissa % 2 = 1 := by omega
    rw [hk] at hle hlt hbits
    push_cast at hle hlt hbits
    refine ⟨?_, ?_, ?_, ?_⟩ <;> simp only [ExtendedMantissa.shiftRightOne, hdiv, hmod, hbits]
    · linarith
    · linarith
    · exact iff_of_true (by simp) (by linarith)
    · constructor
      · intro hne
        exact ⟨fun heq => absurd hle (by linarith), fun heq => hne (by linarith)⟩
      · rintro ⟨-, hne⟩ heq
        exact hne (by linarith)

theorem Stands.shiftRight (h : Stands em x) (n : ℕ) : Stands (em >>> n) (x / 2 ^ n) := by
  induction n with
  | zero =>
    rw [pow_zero, div_one]
    exact h
  | succ n ih =>
    have hstep := ih.shiftRightOne
    rwa [div_div, ← pow_succ] at hstep

/-- **A mantissa is rounded to the nearest integer of the number that it stands for.** -/
theorem Stands.roundedMantissa (h : Stands em x) : em.roundedMantissa = roundEven x := by
  have hfloor := h.floor
  obtain ⟨m, roundBit, stickyBit⟩ := em
  have hround : roundBit = true ↔ (m : ℚ) + 1 / 2 ≤ x := h.roundBit
  have hsticky : stickyBit = true ↔ x ≠ m ∧ x ≠ m + 1 / 2 := h.stickyBit
  rcases lt_trichotomy x (m + 1 / 2) with hx | hx | hx
  · obtain rfl : roundBit = false := Bool.eq_false_iff.mpr fun h => hx.not_ge (hround.mp h)
    rw [roundEven_of_lt hfloor hx]
    cases stickyBit <;> rfl
  · obtain rfl : roundBit = true := hround.mpr hx.ge
    obtain rfl : stickyBit = false := Bool.eq_false_iff.mpr fun h => (hsticky.mp h).2 hx
    rw [roundEven_of_eq hfloor hx]
    rfl
  · obtain rfl : roundBit = true := hround.mpr hx.le
    obtain rfl : stickyBit = true := hsticky.mpr ⟨by linarith, hx.ne'⟩
    rw [roundEven_of_gt hfloor hx]
    rfl

theorem stands_exact (m : ℕ) : Stands (.ofMantissaAndAccuracy m .exact) m := by
  refine ⟨le_rfl, by simp [ExtendedMantissa.ofMantissaAndAccuracy], ?_, ?_⟩ <;>
    simp [ExtendedMantissa.ofMantissaAndAccuracy]

@[simp] theorem mantissa_ofMantissaAndAccuracy (m : ℕ) (acc : Accuracy) :
    (ExtendedMantissa.ofMantissaAndAccuracy m acc).mantissa = m := by
  rw [ExtendedMantissa.ofMantissaAndAccuracy.eq_def]
  split <;> rfl

/-- Of two pairs in the same order the comparisons are the same. -/
theorem compare_congr {α β : Type} [LinearOrder α] [LinearOrder β] {a b : α} {c d : β}
    (hlt : a < b ↔ c < d) (hgt : b < a ↔ d < c) : compare a b = compare c d := by
  rcases lt_trichotomy a b with h | h | h
  · rw [compare_lt_iff_lt.mpr h, compare_lt_iff_lt.mpr (hlt.mp h)]
  · have hcd : c = d := le_antisymm (not_lt.mp fun hdc => (hgt.mpr hdc).ne h.symm)
      (not_lt.mp fun hcd => (hlt.mpr hcd).ne h)
    rw [compare_eq_iff_eq.mpr h, compare_eq_iff_eq.mpr hcd]
  · rw [compare_gt_iff_gt.mpr h, compare_gt_iff_gt.mpr (hgt.mp h)]

/-- What is left of a number is on one side of the half or on the other, or it is the half. -/
theorem stands_inexact (m : ℕ) {part : ℚ} (hpos : 0 < part) (hlt : part < 1) :
    Stands (.ofMantissaAndAccuracy m (.inexact (compare part (1 / 2)))) (m + part) := by
  have hle : (m : ℚ) ≤ m + part := by linarith
  have hlt' : m + part < (m : ℚ) + 1 := by linarith
  have hne : (m : ℚ) + part ≠ m := by linarith
  rcases lt_trichotomy part (1 / 2) with hpart | hpart | hpart
  · rw [compare_lt_iff_lt.mpr hpart]
    have hhalf : (m : ℚ) + part < m + 1 / 2 := by linarith
    exact ⟨hle, hlt', iff_of_false Bool.false_ne_true hhalf.not_ge,
      iff_of_true rfl ⟨hne, hhalf.ne⟩⟩
  · rw [compare_eq_iff_eq.mpr hpart]
    have hhalf : (m : ℚ) + part = m + 1 / 2 := by rw [hpart]
    exact ⟨hle, hlt', iff_of_true rfl hhalf.ge, iff_of_false Bool.false_ne_true fun h => h.2 hhalf⟩
  · rw [compare_gt_iff_gt.mpr hpart]
    have hhalf : (m : ℚ) + 1 / 2 < m + part := by linarith
    exact ⟨hle, hlt', iff_of_true rfl hhalf.le, iff_of_true rfl ⟨hne, hhalf.ne'⟩⟩

/-- **The bits of a quotient.** The rest of a division says on which side of the half the
quotient is. -/
theorem stands_accuracyOfFraction (m : ℕ) {num den : ℕ} (h : num < den) :
    Stands (.ofMantissaAndAccuracy m (accuracyOfFraction num den)) (m + num / den) := by
  have hden : (0 : ℚ) < den := mod_cast Nat.zero_lt_of_lt h
  rw [accuracyOfFraction]
  split
  · rename_i hzero
    rw [hzero, Nat.cast_zero, zero_div, add_zero]
    exact stands_exact m
  · rename_i hzero
    have hside : compare (2 * num) den = compare ((num : ℚ) / den) (1 / 2) := by
      refine compare_congr ?_ ?_
      · rw [div_lt_div_iff₀ hden two_pos, one_mul, mul_comm (num : ℚ)]
        norm_cast
      · rw [div_lt_div_iff₀ two_pos hden, one_mul, mul_comm (num : ℚ)]
        norm_cast
    rw [hside]
    exact stands_inexact m (div_pos (mod_cast Nat.pos_of_ne_zero hzero) hden)
      ((div_lt_one hden).mpr (mod_cast h))

end Stands

/-! ### Shifting to an exponent -/

/-- **A mantissa shifted to a greater exponent** stands for the same number. -/
theorem shiftToExponent_of_le {m : ℕ} {e t : ℤ} {acc : Accuracy} {z : ℚ}
    (h : Stands (.ofMantissaAndAccuracy m acc) (z / 2 ^ e)) (het : e ≤ t) :
    (shiftToExponent m e acc t).2 = t ∧ Stands (shiftToExponent m e acc t).1 (z / 2 ^ t) := by
  have hshift : e + ((t - e).toNat : ℤ) = t := by omega
  refine ⟨hshift, ?_⟩
  have hstands := h.shiftRight (t - e).toNat
  rwa [div_div, ← zpow_natCast, ← zpow_add₀ two_ne_zero, hshift] at hstands

/-- The exponent that the format wants. -/
theorem targetExponent_eq (m : ℕ) (e : ℤ) :
    Format.binary64.targetExponent (totalExponent m e) = max (m.log2 + e - 52) (-1074) := by
  simp only [Format.targetExponent, totalExponent, Format.mantissaBits, Format.minExponent]
  norm_num
  omega

section Target

variable {m : ℕ} {e : ℤ} {acc : Accuracy} {z : ℚ}

/-- A mantissa that is not zero shows where the number begins. -/
theorem log_eq_of_stands (hz : 0 < z) (hm : 0 < m)
    (h : Stands (.ofMantissaAndAccuracy m acc) (z / 2 ^ e)) : Int.log 2 z = m.log2 + e := by
  have hle := h.le
  have hlt := h.lt
  rw [mantissa_ofMantissaAndAccuracy, le_div_iff₀ (two_zpow_pos e)] at hle
  rw [mantissa_ofMantissaAndAccuracy, div_lt_iff₀ (two_zpow_pos e)] at hlt
  refine le_antisymm (Int.lt_add_one_iff.mp ?_) ?_
  · rw [← Int.lt_zpow_iff_log_lt one_lt_two hz]
    have hnext : m + 1 ≤ 2 ^ (m.log2 + 1) := Nat.lt_log2_self
    calc z < (m + 1 : ℕ) * 2 ^ e := mod_cast hlt
      _ ≤ 2 ^ (((m.log2 + 1 : ℕ) : ℤ) + e) := mul_zpow_le_of_le hnext e
      _ = ((2 : ℕ) : ℚ) ^ ((m.log2 : ℤ) + e + 1) := by
        push_cast
        congr 1
        ring
  · rw [← Int.zpow_le_iff_le_log one_lt_two hz]
    have hself : 2 ^ m.log2 ≤ m := Nat.log2_self_le hm.ne'
    calc ((2 : ℕ) : ℚ) ^ ((m.log2 : ℤ) + e) ≤ m * 2 ^ e := le_mul_zpow_of_le hself e
      _ ≤ z := hle

/-- **The format wants the exponent of the quantum**, if the mantissa has enough digits to
show it. -/
theorem targetExponent_eq_quantum (hz : 0 < z)
    (h : Stands (.ofMantissaAndAccuracy m acc) (z / 2 ^ e)) (he : e ≤ quantum z) :
    Format.binary64.targetExponent (totalExponent m e) = quantum z := by
  rw [targetExponent_eq]
  rcases Nat.eq_zero_or_pos m with rfl | hm
  · -- no digit is left, so the quantum is the least
    have hlog : Int.log 2 z < e := by
      have hlt := h.lt
      rw [mantissa_ofMantissaAndAccuracy, div_lt_iff₀ (two_zpow_pos e)] at hlt
      rw [← Int.lt_zpow_iff_log_lt one_lt_two hz]
      simpa using hlt
    rw [quantum] at he ⊢
    simp only [Nat.log2_zero]
    omega
  · rw [quantum, log_eq_of_stands hz hm h]

end Target

/-! ### Canonical form -/

/-- Whether a mantissa and an exponent are in canonical form: the mantissa has 53 digits, or
the exponent is the least and it has fewer. -/
structure Canonical (m : ℕ) (e : ℤ) : Prop where
  /-- The mantissa has at most 53 digits. -/
  lt : m < 2 ^ 53
  /-- The exponent is at least the least. -/
  le : -1074 ≤ e
  /-- Fewer digits come with the least exponent. -/
  normal : 2 ^ 52 ≤ m ∨ e = -1074

/-- Whether an unpacked number is a magnitude with a sign, in canonical form. -/
inductive Holds : UnpackedFloat → Sign → ℚ → Prop where
  /-- Either zero is. -/
  | zero (s : Sign) : Holds (.zero s) s 0
  /-- A finite number is if its mantissa and its exponent are in canonical form. -/
  | finite (s : Sign) {m : ℕ} {e : ℤ} (hm : 0 < m) (h : Canonical m e) :
    Holds (.finite s m e hm) s (m * 2 ^ e)

theorem Canonical.onGrid {m : ℕ} {e : ℤ} (h : Canonical m e) : OnGrid (m * 2 ^ e) :=
  ⟨m, e, h.lt, h.le, rfl⟩

theorem Holds.onGrid {f : UnpackedFloat} {s : Sign} {v : ℚ} (h : Holds f s v) : OnGrid v := by
  cases h with
  | zero => exact ⟨0, 0, by norm_num, by norm_num, by simp⟩
  | finite _ _ h => exact h.onGrid

/-- A mantissa that is not too long stays as it is when it is shifted once more. -/
theorem shiftToTargetExponent_of_lt {m : ℕ} {e : ℤ} (hm : m < 2 ^ 53) (he : -1074 ≤ e) :
    shiftToTargetExponent .binary64 m e .exact = (⟨m, false, false⟩, e) := by
  have hlog : m.log2 ≤ 52 := by
    rcases eq_or_ne m 0 with rfl | hne
    · simp
    · exact Nat.lt_succ_iff.mp ((Nat.log2_lt hne).mpr hm)
  have hshift : (max ((m.log2 : ℤ) + e - 52) (-1074) - e).toNat = 0 := by omega
  rw [shiftToTargetExponent, targetExponent_eq, shiftToExponent, hshift]
  simp only [Nat.cast_zero, add_zero]
  rfl

/-- A carry makes a mantissa too long by a digit, and that digit is zero. -/
theorem shiftToTargetExponent_carry {e : ℤ} (he : -1074 ≤ e) :
    shiftToTargetExponent .binary64 (2 ^ 53) e .exact = (⟨2 ^ 52, false, false⟩, e + 1) := by
  have hshift : (max (((2 ^ 53 : ℕ).log2 : ℤ) + e - 52) (-1074) - e).toNat = 1 := by
    rw [Nat.log2_two_pow]
    omega
  rw [shiftToTargetExponent, targetExponent_eq, shiftToExponent, hshift]
  rfl

/-- **A mantissa is rounded to the nearest double of the number that it stands for**, in
canonical form. -/
theorem holds_roundWithAccuracy (s : Sign) {m : ℕ} {e : ℤ} {acc : Accuracy} {z : ℚ} (hz : 0 < z)
    (h : Stands (.ofMantissaAndAccuracy m acc) (z / 2 ^ e)) (he : e ≤ quantum z) :
    Holds (roundWithAccuracy .binary64 s m e acc) s (nearest z) := by
  obtain ⟨hexponent, hstands⟩ := shiftToExponent_of_le h he
  have hround := hstands.roundedMantissa
  have hleast : -1074 ≤ quantum z := le_max_right ..
  rw [roundWithAccuracy, shiftToTargetExponent, targetExponent_eq_quantum hz h he]
  generalize shiftToExponent m e acc (quantum z) = shifted at *
  obtain ⟨em, e'⟩ := shifted
  obtain rfl : e' = quantum z := hexponent
  simp only at hround ⊢
  rw [hround, nearest]
  rcases (roundEven_div_quantum_le z).lt_or_eq with hlt | heq
  · rw [shiftToTargetExponent_of_lt hlt hleast]
    by_cases hzero : roundEven (z / 2 ^ quantum z) = 0
    · rw [dif_pos hzero, hzero, Nat.cast_zero, zero_mul]
      exact .zero s
    · rw [dif_neg hzero]
      exact .finite s _ ⟨hlt, hleast, or_iff_not_imp_right.mpr (le_roundEven_div_quantum hz)⟩
  · -- the carry moves the number to the next exponent and leaves it as it is
    rw [heq, shiftToTargetExponent_carry hleast, dif_neg (by norm_num)]
    have hcarry : ((2 ^ 53 : ℕ) : ℚ) * 2 ^ quantum z = (2 ^ 52 : ℕ) * 2 ^ (quantum z + 1) := by
      rw [zpow_add_one₀ two_ne_zero]
      push_cast
      ring
    rw [hcarry]
    exact .finite s _ ⟨by norm_num, by omega, .inl le_rfl⟩

end BenchReport.Binary64
