import Mathlib
import BenchReport.Proofs.Binary64.Round

/-!
# Packing doubles

A number in canonical form comes back from its 64 bits as it was
(`BenchReport.Binary64.unpack_pack_of_lt`), unless it has reached `2 ^ 1024`: then an
infinity comes back (`BenchReport.Binary64.unpack_pack_of_le`). Conversely what is unpacked
is in canonical form and below `2 ^ 1024`, an infinity, or no number
(`BenchReport.Binary64.unpack_cases`).
-/

namespace BenchReport.Binary64

open Float.Model Float.Model.UnpackedFloat

/-! ### The parts of a packed double -/

/-- The digit that is not packed stands before the others. -/
theorem toNat_one_append (m : BitVec 52) : (1#1 ++ m).toNat = 2 ^ 52 + m.toNat := by
  rw [BitVec.toNat_append, ← Nat.shiftLeft_add_eq_or_of_lt m.isLt]
  rfl

section Pack

variable {s : Sign} {m : ℕ} {e : ℤ} {hm : 0 < m}

/-- **What is packed of a finite number.** -/
theorem pack_finite (s : Sign) (m : ℕ) (e : ℤ) (hm : 0 < m) :
    UnpackedFloat.pack .binary64 (.finite s m e hm) =
      if 972 ≤ e then packedInfinity .binary64 s
      else if m.log2 = 52 then
        packComponents .binary64 s (BitVec.ofNat 11 (e + 1075).toNat) (BitVec.ofNat 52 m)
      else packComponents .binary64 s 0#11 (BitVec.ofNat 52 m) := by
  have hbiased : (e + Format.binary64.exponentBias +
      Format.binary64.mantissaBitsWithoutImplicit).toNat = (e + 1075).toNat := by
    have hbias : (Format.binary64.exponentBias : ℤ) = 1023 := rfl
    have hbits : (Format.binary64.mantissaBitsWithoutImplicit : ℤ) = 52 := rfl
    rw [hbias, hbits]
    congr 1
    omega
  have hbits : m.log2 + 1 = Format.binary64.mantissaBits ↔ m.log2 = 52 := by
    have hbits : Format.binary64.mantissaBits = 53 := rfl
    omega
  have hfull : 2 ^ Format.binary64.exponentBits ≤ (e + 1075).toNat + 1 ↔ 972 ≤ e := by
    have hbits : 2 ^ Format.binary64.exponentBits = 2048 := rfl
    omega
  rw [UnpackedFloat.pack]
  simp only [hbiased, hbits, hfull]

/-- What is unpacked of a normal number. -/
theorem unpack_normal (s : Sign) {e : BitVec 11} (m : BitVec 52) (hlast : e ≠ -1#11)
    (hfirst : e ≠ 0#11) :
    UnpackedFloat.unpack .binary64 (packComponents .binary64 s e m) =
      .finite s (2 ^ 52 + m.toNat) (e.toNat - 1075) (by positivity) := by
  rw [UnpackedFloat.unpack]
  simp only [unpackExponent_packComponents, unpackMantissa_packComponents,
    unpackSign_packComponents, Sign.ofBitVec_toBitVec, toNat_one_append, if_neg hlast,
    if_neg hfirst]
  rfl

/-- What is unpacked of a number below the normal ones. -/
theorem unpack_subnormal (s : Sign) {m : BitVec 52} (hm : m ≠ 0#52) :
    UnpackedFloat.unpack .binary64 (packComponents .binary64 s 0#11 m) =
      .finite s m.toNat (-1074) (by simpa [BitVec.toNat_pos, BitVec.pos_iff_ne_zero]) := by
  rw [UnpackedFloat.unpack]
  simp only [unpackExponent_packComponents, unpackMantissa_packComponents,
    unpackSign_packComponents, Sign.ofBitVec_toBitVec, dif_neg hm]
  rfl

end Pack

/-! ### There and back -/

/-- The least magnitude that is too great for a double. -/
def overflow : ℚ := 2 ^ (1024 : ℤ)

theorem overflow_pos : 0 < overflow := two_zpow_pos 1024

section Unpack

variable {f : UnpackedFloat} {s : Sign} {v : ℚ}

/-- A canonical number is too great exactly if its exponent is. -/
theorem Canonical.overflow_le_iff {m : ℕ} {e : ℤ} (h : Canonical m e) :
    overflow ≤ m * 2 ^ e ↔ 972 ≤ e := by
  constructor
  · intro hle
    by_contra he
    refine hle.not_gt ?_
    calc (m : ℚ) * 2 ^ e < 2 ^ (53 + e) := mul_zpow_lt_of_lt h.lt e
      _ ≤ overflow := zpow_le_zpow_right₀ one_le_two (by omega)
  · intro he
    have hm : 2 ^ 52 ≤ m := h.normal.resolve_right (by omega)
    calc overflow ≤ 2 ^ (52 + e) := zpow_le_zpow_right₀ one_le_two (by omega)
      _ ≤ m * 2 ^ e := le_mul_zpow_of_le hm e

/-- **A double is unpacked as it was packed.** -/
theorem unpack_pack_of_lt (h : Holds f s v) (hv : v < overflow) :
    (Float.Model.pack f).unpack = f := by
  cases h with
  | zero => cases s <;> rfl
  | @finite _ m e hm h =>
    have hlast : ¬972 ≤ e := fun he => hv.not_ge (h.overflow_le_iff.mpr he)
    have hleast := h.le
    have hlt := h.lt
    change UnpackedFloat.unpack .binary64 (UnpackedFloat.pack .binary64 (.finite s m e hm)) = _
    rw [pack_finite, if_neg hlast]
    rcases Nat.lt_or_ge m (2 ^ 52) with hsmall | hnormal
    · have hlog : m.log2 ≠ 52 := by
        have := (Nat.log2_lt hm.ne').mpr hsmall
        omega
      have hmantissa : (BitVec.ofNat 52 m).toNat = m := by
        rw [BitVec.toNat_ofNat, Nat.mod_eq_of_lt hsmall]
      have hne : BitVec.ofNat 52 m ≠ 0#52 := by
        intro h
        have := hmantissa ▸ congrArg BitVec.toNat h
        simp at this
        omega
      obtain rfl : e = -1074 := h.normal.resolve_left hsmall.not_ge
      rw [if_neg hlog, unpack_subnormal s hne]
      congr
    · have hlog : m.log2 = 52 := (Nat.log2_eq_iff hm.ne').mpr ⟨hnormal, hlt⟩
      have hexponent : (BitVec.ofNat 11 (e + 1075).toNat).toNat = (e + 1075).toNat := by
        rw [BitVec.toNat_ofNat, Nat.mod_eq_of_lt (by omega)]
      have hinfinite : BitVec.ofNat 11 (e + 1075).toNat ≠ -1#11 := by
        intro h
        have := hexponent ▸ congrArg BitVec.toNat h
        simp at this
        omega
      have hsubnormal : BitVec.ofNat 11 (e + 1075).toNat ≠ 0#11 := by
        intro h
        have := hexponent ▸ congrArg BitVec.toNat h
        simp at this
        omega
      rw [if_pos hlog, unpack_normal s _ hinfinite hsubnormal]
      congr
      · rw [BitVec.toNat_ofNat]
        omega
      · rw [hexponent]
        omega

/-- **A number that is too great is unpacked as an infinity.** -/
theorem unpack_pack_of_le (h : Holds f s v) (hv : overflow ≤ v) :
    (Float.Model.pack f).unpack = .infinity s := by
  cases h with
  | zero => exact absurd hv overflow_pos.not_ge
  | @finite _ m e hm h =>
    change UnpackedFloat.unpack .binary64 (UnpackedFloat.pack .binary64 (.finite s m e hm)) = _
    rw [pack_finite, if_pos (h.overflow_le_iff.mp hv)]
    cases s <;> rfl

/-- **What can be unpacked**: a double in canonical form, an infinity, or no number. -/
theorem unpack_cases (x : Float.Model) :
    (∃ s v, Holds x.unpack s v ∧ v < overflow) ∨ (∃ s, x.unpack = .infinity s) ∨
      x.unpack = .notANumber := by
  have hfinite : ∀ (s : Sign) {m : ℕ} {e : ℤ} (hm : 0 < m), Canonical m e → e < 972 →
      ∃ s' v, Holds (.finite s m e hm) s' v ∧ v < overflow := fun s m e hm h he =>
    ⟨s, _, .finite s hm h, not_le.mp fun hle => he.not_ge (h.overflow_le_iff.mp hle)⟩
  have hbias : (Format.binary64.exponentBias : ℤ) = 1023 := rfl
  have hbits : (Format.binary64.mantissaBitsWithoutImplicit : ℤ) = 52 := rfl
  rw [Float.Model.unpack, UnpackedFloat.unpack]
  simp only [hbias, hbits]
  have hmantissa : (@unpackMantissa .binary64 x.toBits.toBitVec).toNat < 2 ^ 52 := BitVec.isLt _
  have hexponent : (@unpackExponent .binary64 x.toBits.toBitVec).toNat < 2048 := BitVec.isLt _
  split_ifs with hlast hzero hfirst hzero
  · exact .inr (.inl ⟨_, rfl⟩)
  · exact .inr (.inr rfl)
  · exact .inl ⟨_, 0, .zero _, overflow_pos⟩
  · have he : (@unpackExponent .binary64 x.toBits.toBitVec).toNat = 0 := by
      rw [hfirst]
      rfl
    exact .inl (hfinite _ _ ⟨by omega, by omega, .inr (by omega)⟩ (by omega))
  · have hne : (@unpackExponent .binary64 x.toBits.toBitVec).toNat ≠ 0 := fun h =>
      hfirst (BitVec.eq_of_toNat_eq h)
    have hlt : (@unpackExponent .binary64 x.toBits.toBitVec).toNat ≠ 2047 := fun h =>
      hlast (BitVec.eq_of_toNat_eq h)
    have hnormal := toNat_one_append (@unpackMantissa .binary64 x.toBits.toBitVec)
    exact .inl (hfinite _ _ ⟨by omega, by omega, .inl (by omega)⟩ (by omega))

end Unpack

end BenchReport.Binary64
