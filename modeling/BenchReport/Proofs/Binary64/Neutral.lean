import Mathlib
import BenchReport.Proofs.Binary64.Arithmetic

/-!
# Adding to zero and dividing by one

The two operations that an average of one number does leave the number as it was. For a sum
that is read off its definition, with one exception: the negative zero added to the positive
one is the positive one (`BenchReport.Binary64.zero_add_eq`). A quotient is rounded, and what
is rounded here is a double already, so that it keeps its value. But a finite double other
than zero is known by its value (`BenchReport.Binary64.eq_of_value_eq`), because it is in
canonical form; what is not finite, and zero, are divided by their signs alone
(`BenchReport.Binary64.div_one_eq`).
-/

namespace BenchReport.Binary64

open Float.Model Float.Model.UnpackedFloat

/-! ### Doubles with one value -/

/-- Canonical numbers of one magnitude are the same. -/
theorem Canonical.eq_of_mul_zpow_eq {m m' : ℕ} {e e' : ℤ} (h : Canonical m e) (h' : Canonical m' e')
    (heq : (m : ℚ) * 2 ^ e = m' * 2 ^ e') : m = m' ∧ e = e' := by
  rcases lt_trichotomy e e' with he | rfl | he
  · exact absurd heq (h.mul_zpow_lt h' he).ne
  · exact ⟨Nat.cast_inj.mp (mul_right_cancel₀ (two_zpow_pos e).ne' heq), rfl⟩
  · exact absurd heq (h'.mul_zpow_lt h he).ne'

/-- **A number in canonical form is known by its sign and its magnitude.** -/
theorem Holds.unique {f g : UnpackedFloat} {s : Sign} {v w : ℚ} (hf : Holds f s v)
    (hg : Holds g s w) (h : v = w) : f = g := by
  have hpos : ∀ {m : ℕ} (e : ℤ), 0 < m → (0 : ℚ) < m * 2 ^ e := fun e hm =>
    mul_pos (mod_cast hm) (two_zpow_pos e)
  cases hf with
  | zero =>
    cases hg with
    | zero => rfl
    | finite s hm _ => exact absurd h (hpos _ hm).ne
  | finite s hm hcanonical =>
    cases hg with
    | zero => exact absurd h (hpos _ hm).ne'
    | finite _ hm' hcanonical' =>
      obtain ⟨rfl, rfl⟩ := hcanonical.eq_of_mul_zpow_eq hcanonical' h
      rfl

section Unpacked

variable {x y : Float}

/-- Doubles that are unpacked alike are the same. -/
theorem eq_of_unpack_eq (h : x.toModel.unpack = y.toModel.unpack) : x = y := by
  calc x = .ofModel (.pack x.toModel.unpack) := (Float.ofBits_toBits x).symm
    _ = .ofModel (.pack y.toModel.unpack) := by rw [h]
    _ = y := Float.ofBits_toBits y

/-- **A finite double that is not zero is known by its value.** -/
theorem eq_of_value_eq (hx : x.isFinite = true) (hy : y.isFinite = true) (hne : value x ≠ 0)
    (h : value x = value y) : x = y := by
  obtain ⟨s, v, hv, -, hvalue⟩ := exists_holds hx
  obtain ⟨t, w, hw, -, hvalue'⟩ := exists_holds hy
  have hsigned : signed s v = signed t w := hvalue.symm.trans (h.trans hvalue')
  have hmagnitude : v = w := by rw [← abs_signed s hv.nonneg, hsigned, abs_signed t hw.nonneg]
  have hvpos : 0 < v := hv.nonneg.lt_of_ne fun hzero => hne (by rw [hvalue, ← hzero, signed_zero])
  have hsign : s = t := by
    rw [← signOf_signed s hvpos, hsigned, signOf_signed t (hmagnitude ▸ hvpos)]
  subst hsign
  exact eq_of_unpack_eq (hv.unique hw hmagnitude)

end Unpacked

/-! ### Zero and one -/

/-- **Adding to zero changes nothing** but the sign of a zero. -/
theorem zero_add_eq (x : Float) : 0.0 + x = if x = -0.0 then 0.0 else x := by
  split
  · rename_i h
    subst h
    rfl
  · rename_i hne
    have hadd : add .binary64 (.zero .positive) x.toModel.unpack = x.toModel.unpack := by
      cases hx : x.toModel.unpack with
      | zero s =>
        -- the sum of two zeros is negative only if both are
        cases s with
        | negative => exact absurd (eq_of_unpack_eq hx) hne
        | positive => rfl
      | _ => rfl
    change Float.ofModel (.pack (add .binary64 (.zero .positive) x.toModel.unpack)) = x
    rw [hadd]
    exact Float.ofBits_toBits x

/-- A quotient that is unpacked as the dividend is the dividend. -/
theorem div_eq_of_unpack {x y : Float}
    (h : div .binary64 x.toModel.unpack y.toModel.unpack = x.toModel.unpack) : x / y = x := by
  change Float.ofModel (.pack (div .binary64 x.toModel.unpack y.toModel.unpack)) = x
  rw [h]
  exact Float.ofBits_toBits x

/-- **Dividing by one changes nothing**, not even what is no number. -/
theorem div_one_eq (x : Float) : x / 1.0 = x := by
  have hone : (1.0 : Float).toModel.unpack = .finite .positive (2 ^ 52) (-52) (by decide) := rfl
  have hsign : ∀ s : Sign, s / .positive = s := fun s => by cases s <;> rfl
  cases hx : x.toModel.unpack with
  | notANumber => exact div_eq_of_unpack (by rw [hx, hone]; rfl)
  | infinity s =>
    exact div_eq_of_unpack (by rw [hx, hone]; exact congrArg UnpackedFloat.infinity (hsign s))
  | zero s => exact div_eq_of_unpack (by rw [hx, hone]; exact congrArg UnpackedFloat.zero (hsign s))
  | finite s m e hm =>
    have hfinite : x.isFinite = true := by
      change x.toModel.unpack.isFinite = true
      rw [hx]
      rfl
    have hpos : (0 : ℚ) < m * 2 ^ e := mul_pos (mod_cast hm) (two_zpow_pos e)
    have hne : value x ≠ 0 := by
      rw [value, hx, unpackedValue, ← abs_pos, abs_signed s hpos.le]
      exact hpos
    -- the exact quotient is the dividend, which is a double and so rounded to itself
    have hone' : value 1.0 = 1 := value_one
    have hdiv := roundsTo_div hfinite (y := 1.0) rfl (by rw [hone']; exact one_ne_zero)
    rw [hone', div_one] at hdiv
    obtain ⟨hquotient, hsame⟩ := hdiv.of_abs_le hfinite le_rfl
    rw [rounded_value hfinite] at hsame
    exact eq_of_value_eq hquotient hfinite (hsame ▸ hne) hsame

end BenchReport.Binary64
