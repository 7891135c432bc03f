import Mathlib
import BenchReport.Proofs.Text.Utf8

/-!
# Texts are ordered as their bytes are

Texts are compared character by character, and a character by its code point. The same order
comes out if their bytes are compared instead (`BenchReport.Text.encode_lt_encode_iff`), whatever
follows them, because UTF-8 puts the greater digits of a code point first and begins a longer
character with a greater byte (`BenchReport.Text.utf8EncodeChar_append_lt`). So "in the order of
bytes" may be said of anything that is sorted by texts.
-/

namespace BenchReport.Text

/-! ### Bytes of characters -/

section Bytes

variable {m n : ℕ}

theorem ofNat_lt_ofNat_iff (hm : m < 0x100) (hn : n < 0x100) :
    UInt8.ofNat m < UInt8.ofNat n ↔ m < n := by
  rw [UInt8.lt_iff_toNat_lt, UInt8.toNat_ofNat', UInt8.toNat_ofNat', Nat.mod_eq_of_lt hm,
    Nat.mod_eq_of_lt hn]

theorem ofNat_eq_ofNat_iff (hm : m < 0x100) (hn : n < 0x100) :
    UInt8.ofNat m = UInt8.ofNat n ↔ m = n := by
  rw [← UInt8.toNat_inj, UInt8.toNat_ofNat', UInt8.toNat_ofNat', Nat.mod_eq_of_lt hm,
    Nat.mod_eq_of_lt hn]

/-- Of two numbers the digits to the base 64 are compared, the first of them first. -/
theorem digits_lt (h : m < n) :
    m / 262144 < n / 262144 ∨ m / 262144 = n / 262144 ∧
      (m / 4096 % 64 < n / 4096 % 64 ∨ m / 4096 % 64 = n / 4096 % 64 ∧
        (m / 64 % 64 < n / 64 % 64 ∨ m / 64 % 64 = n / 64 % 64 ∧ m % 64 < n % 64)) := by
  have hstep : ∀ {m n : ℕ}, m < n → m / 64 < n / 64 ∨ m / 64 = n / 64 ∧ m % 64 < n % 64 := by
    omega
  have hdiv : ∀ n : ℕ, n / 64 / 64 = n / 4096 ∧ n / 4096 / 64 = n / 262144 := fun n =>
    ⟨Nat.div_div_eq_div_mul .., Nat.div_div_eq_div_mul ..⟩
  obtain ⟨hm, hm'⟩ := hdiv m
  obtain ⟨hn, hn'⟩ := hdiv n
  rcases hstep h with h | ⟨heq, h⟩
  · have h := hstep h
    rw [hm, hn] at h
    rcases h with h | ⟨heq', h⟩
    · have h := hstep h
      rw [hm', hn'] at h
      tauto
    · rw [← hm', ← hn', heq']
      tauto
  · rw [← hm', ← hn', ← hm, ← hn, heq]
    tauto

/-- **A lesser character has lesser bytes**, whatever follows. -/
theorem utf8EncodeChar_append_lt {c d : Char} (h : c < d) (s t : List UInt8) :
    String.utf8EncodeChar c ++ s < String.utf8EncodeChar d ++ t := by
  have hlt : c.val.toNat < d.val.toNat := h
  have hc : c.val.toNat < 0xd800 ∨ 0xdfff < c.val.toNat ∧ c.val.toNat < 0x110000 := c.valid
  have hd : d.val.toNat < 0xd800 ∨ 0xdfff < d.val.toNat ∧ d.val.toNat < 0x110000 := d.valid
  have hdigits := digits_lt hlt
  have hc' : c.val.toNat / 262144 < 8 := by omega
  have hd' : d.val.toNat / 262144 < 8 := by omega
  simp only [String.utf8EncodeChar]
  split_ifs <;>
    simp (disch := omega) only [List.cons_append, List.nil_append, List.cons_lt_cons_iff,
      ofNat_lt_ofNat_iff, ofNat_eq_ofNat_iff] <;>
    omega

end Bytes

/-! ### Bytes of texts -/

/-- A text with lesser characters has lesser bytes. -/
theorem flatMap_utf8EncodeChar_lt {s t : List Char} (h : s < t) :
    s.flatMap String.utf8EncodeChar < t.flatMap String.utf8EncodeChar := by
  induction s generalizing t with
  | nil =>
    cases t with
    | nil => exact absurd h (List.lt_irrefl [])
    | cons d t =>
      rw [List.flatMap_cons]
      cases hbytes : String.utf8EncodeChar d with
      | nil => exact absurd hbytes String.utf8EncodeChar_ne_nil
      | cons => exact List.nil_lt_cons ..
  | cons c s ih =>
    cases t with
    | nil => exact absurd h (List.not_lt_nil _)
    | cons d t =>
      rw [List.flatMap_cons, List.flatMap_cons]
      rcases List.cons_lt_cons_iff.mp h with hlt | ⟨rfl, hlt⟩
      · exact utf8EncodeChar_append_lt hlt _ _
      · exact List.append_left_lt (ih hlt)

/-- **Texts are ordered as their bytes are.** -/
theorem encode_lt_encode_iff {s t : String} : encode s < encode t ↔ s < t := by
  have hmono : ∀ {s t : String}, s < t → encode s < encode t := fun {s t} h => by
    rw [encode_eq, encode_eq]
    exact flatMap_utf8EncodeChar_lt (String.lt_iff_toList_lt.mp h)
  refine ⟨fun h => ?_, hmono⟩
  rcases lt_trichotomy s t with hlt | rfl | hgt
  · exact hlt
  · exact absurd h (List.lt_irrefl _)
  · exact absurd h (List.lt_asymm (hmono hgt))

end BenchReport.Text
