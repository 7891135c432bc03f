import Mathlib
import BenchReport.Text.Utf8

/-!
# Text comes back from its bytes

`BenchReport.Text.decodeLossy` is made for damaged bytes, so what it must not do is to
see damage where there is none: the bytes of a text are read as that text
(`BenchReport.Text.decodeLossy_flatMap`). It is enough to follow one character through
the reader, from between characters to between characters
(`BenchReport.Text.foldl_feed_utf8EncodeChar`). The narrow ranges behind the lead bytes
`0xe0`, `0xed`, `0xf0` and `0xf4` are where this could fail, and a character that is
encoded never leaves them.

The second fact about bytes is that the small ones are characters of their own
(`BenchReport.Text.eq_of_mem_utf8EncodeChar`), which is what makes it sound to cut
bytes at a newline before they are read.
-/

namespace BenchReport.Text

/-! ### The bytes of a text -/

theorem toList_loop_eq (bytes : ByteArray) (i : Nat) (read : List UInt8) :
    ByteArray.toList.loop bytes i read = read.reverse ++ bytes.data.toList.drop i := by
  fun_induction ByteArray.toList.loop bytes i read with
  | case1 i read hi ih =>
    have hlt : i < bytes.data.toList.length := by simpa using hi
    rw [ih, List.drop_eq_getElem_cons hlt]
    simp [ByteArray.get!, hi]
  | case2 i read hi =>
    have hle : bytes.data.toList.length ≤ i := by simpa using Nat.le_of_not_lt hi
    rw [List.drop_eq_nil_of_le hle, List.append_nil]

/-- **The bytes of a text are those of its characters, one after another.** -/
theorem encode_eq (s : String) : encode s = s.toList.flatMap String.utf8EncodeChar := by
  have hdata : s.toUTF8.data.toList = s.toList.flatMap String.utf8EncodeChar := by
    conv_lhs => rw [← String.ofList_toList (s := s)]
    rw [String.toUTF8_eq_toByteArray, String.toByteArray_ofList, List.utf8Encode,
      List.toList_data_toByteArray]
  rw [encode, ByteArray.toList, toList_loop_eq, hdata]
  rfl

/-- How many bytes a text takes is how many it has. -/
theorem byteCount_eq (s : List Char) : byteCount s = (s.flatMap String.utf8EncodeChar).length := by
  have hfold : ∀ (s : List Char) (n : Nat),
      s.foldl (fun n c => n + c.utf8Size) n = n + (s.flatMap String.utf8EncodeChar).length := by
    intro s
    induction s with
    | nil => simp
    | cons c s ih =>
      intro n
      rw [List.foldl_cons, ih, List.flatMap_cons, List.length_append, String.length_utf8EncodeChar]
      omega
  rw [byteCount, hfold, Nat.zero_add]

/-- A byte of a longer character is no small one. -/
theorem not_ofNat_lt {n : Nat} (hle : 0x80 ≤ n) (hn : n < 0x100) : ¬UInt8.ofNat n < 0x80 := by
  rw [UInt8.lt_iff_toNat_lt, UInt8.toNat_ofNat', Nat.mod_eq_of_lt (by omega)]
  simpa using hle

/-- **A byte below `0x80` is a character by itself.** -/
theorem eq_of_mem_utf8EncodeChar {c : Char} {b : UInt8} (hb : b ∈ String.utf8EncodeChar c)
    (hlt : b < 0x80) : String.utf8EncodeChar c = [b] ∧ c = Char.ofNat b.toNat := by
  revert hb
  fun_cases String.utf8EncodeChar c with
  | case1 v hv =>
    intro hb
    obtain rfl := List.mem_singleton.mp hb
    refine ⟨rfl, ?_⟩
    rw [UInt8.toNat_ofNat', Nat.mod_eq_of_lt (by omega)]
    exact (Char.ofNat_toNat c).symm
  | case2 v hv hv' =>
    rintro (_ | ⟨_, _ | ⟨_, hb⟩⟩)
    · exact absurd hlt (not_ofNat_lt (by omega) (by omega))
    · exact absurd hlt (not_ofNat_lt (by omega) (by omega))
    · cases hb
  | case3 v hv hv' hv'' =>
    rintro (_ | ⟨_, _ | ⟨_, _ | ⟨_, hb⟩⟩⟩)
    · exact absurd hlt (not_ofNat_lt (by omega) (by omega))
    · exact absurd hlt (not_ofNat_lt (by omega) (by omega))
    · exact absurd hlt (not_ofNat_lt (by omega) (by omega))
    · cases hb
  | case4 v hv hv' hv'' =>
    rintro (_ | ⟨_, _ | ⟨_, _ | ⟨_, _ | ⟨_, hb⟩⟩⟩⟩)
    · exact absurd hlt (not_ofNat_lt (by omega) (by omega))
    · exact absurd hlt (not_ofNat_lt (by omega) (by omega))
    · exact absurd hlt (not_ofNat_lt (by omega) (by omega))
    · exact absurd hlt (not_ofNat_lt (by omega) (by omega))
    · cases hb

/-- A small byte is in the bytes of a text only as the character that it is. -/
theorem mem_of_mem_flatMap {s : List Char} {b : UInt8} (hlt : b < 0x80)
    (hb : b ∈ s.flatMap String.utf8EncodeChar) : Char.ofNat b.toNat ∈ s := by
  obtain ⟨c, hc, hbc⟩ := List.mem_flatMap.mp hb
  exact (eq_of_mem_utf8EncodeChar hbc hlt).2 ▸ hc

/-! ### The reader on well-formed bytes -/

/-- The part that a byte can play, said of its number. -/
theorem lead_ofNat {n : Nat} (hn : n < 0x100) :
    lead (UInt8.ofNat n) =
      if n ≤ 0x7f then .single (Char.ofNat n)
      else if n < 0xc2 then .invalid
      else if n ≤ 0xdf then .opens ⟨1, 0x80, 0xbf, n % 32⟩
      else if n = 0xe0 then .opens ⟨2, 0xa0, 0xbf, 0⟩
      else if n = 0xed then .opens ⟨2, 0x80, 0x9f, 13⟩
      else if n ≤ 0xef then .opens ⟨2, 0x80, 0xbf, n % 16⟩
      else if n = 0xf0 then .opens ⟨3, 0x90, 0xbf, 0⟩
      else if n ≤ 0xf3 then .opens ⟨3, 0x80, 0xbf, n % 8⟩
      else if n = 0xf4 then .opens ⟨3, 0x80, 0x8f, 4⟩
      else .invalid := by
  have hmod : n % 2 ^ 8 = n := Nat.mod_eq_of_lt hn
  simp only [lead, UInt8.le_iff_toNat_le, UInt8.lt_iff_toNat_lt, ← UInt8.toNat_inj,
    UInt8.toNat_ofNat', hmod]
  rfl

/-- The lead byte of two. -/
theorem lead_two {v : Nat} (hle : 0x80 ≤ v) (hlt : v < 0x800) :
    lead (UInt8.ofNat (v / 64 % 0x20 + 0xc0)) = .opens ⟨1, 0x80, 0xbf, v / 64⟩ := by
  rw [lead_ofNat (by omega), if_neg (by omega), if_neg (by omega), if_pos (by omega)]
  congr 2
  omega

/-- **The second byte of three is within the range behind its lead byte**: it keeps out
of the overlong forms and of the surrogates. -/
theorem exists_lead_three {v : Nat} (hle : 0x800 ≤ v) (hlt : v < 0x10000)
    (hvalid : v < 0xd800 ∨ 0xdfff < v) :
    ∃ low high : UInt8,
      lead (UInt8.ofNat (v / 4096 % 0x10 + 0xe0)) = .opens ⟨2, low, high, v / 4096⟩ ∧
        low.toNat ≤ v / 64 % 0x40 + 0x80 ∧ v / 64 % 0x40 + 0x80 ≤ high.toNat := by
  rw [lead_ofNat (by omega), if_neg (by omega), if_neg (by omega), if_neg (by omega)]
  by_cases he0 : v / 4096 = 0
  · exact ⟨0xa0, 0xbf, by rw [if_pos (by omega), he0], by simp; omega, by simp; omega⟩
  · by_cases hed : v / 4096 = 13
    · refine ⟨0x80, 0x9f, ?_, by simp, by simp; omega⟩
      rw [if_neg (by omega), if_pos (by omega), hed]
    · refine ⟨0x80, 0xbf, ?_, by simp, by simp; omega⟩
      rw [if_neg (by omega), if_neg (by omega), if_pos (by omega)]
      congr 2
      omega

/-- **The second byte of four is within the range behind its lead byte**: it keeps out
of the overlong forms and below the last character. -/
theorem exists_lead_four {v : Nat} (hle : 0x10000 ≤ v) (hlt : v < 0x110000) :
    ∃ low high : UInt8,
      lead (UInt8.ofNat (v / 262144 % 0x08 + 0xf0)) = .opens ⟨3, low, high, v / 262144⟩ ∧
        low.toNat ≤ v / 4096 % 0x40 + 0x80 ∧ v / 4096 % 0x40 + 0x80 ≤ high.toNat := by
  rw [lead_ofNat (by omega), if_neg (by omega), if_neg (by omega), if_neg (by omega),
    if_neg (by omega), if_neg (by omega), if_neg (by omega)]
  by_cases hf0 : v / 262144 = 0
  · exact ⟨0x90, 0xbf, by rw [if_pos (by omega), hf0], by simp; omega, by simp; omega⟩
  · by_cases hf4 : v / 262144 = 4
    · refine ⟨0x80, 0x8f, ?_, by simp, by simp; omega⟩
      rw [if_neg (by omega), if_neg (by omega), if_pos (by omega), hf4]
    · refine ⟨0x80, 0xbf, ?_, by simp, by simp; omega⟩
      rw [if_neg (by omega), if_pos (by omega)]
      congr 2
      omega

/-- A lead byte between two characters opens one. -/
theorem feed_lead {units : List (Option Char)} {b : UInt8} {p : Partial} (h : lead b = .opens p) :
    Decoding.feed ⟨units, none⟩ b = ⟨units, some p⟩ := by
  simp only [Decoding.feed, Decoding.start, h]

/-- A byte within the range that is awaited continues the character. -/
theorem feed_within {units : List (Option Char)} {missing bits n : Nat} {low high : UInt8}
    (hn : n < 0x100) (hlow : low.toNat ≤ n) (hhigh : n ≤ high.toNat) :
    Decoding.feed ⟨units, some ⟨missing, low, high, bits⟩⟩ (UInt8.ofNat n) =
      if missing ≤ 1 then ⟨some (Char.ofNat (bits * 64 + n % 64)) :: units, none⟩
      else ⟨units, some ⟨missing - 1, 0x80, 0xbf, bits * 64 + n % 64⟩⟩ := by
  have hmod : (UInt8.ofNat n).toNat = n := by
    rw [UInt8.toNat_ofNat', Nat.mod_eq_of_lt hn]
  simp only [Decoding.feed, UInt8.le_iff_toNat_le, hmod, hlow, hhigh, decide_true, Bool.and_self,
    if_true]

/-- **The bytes of a character take the reader over that character** and leave it
between two characters. -/
theorem foldl_feed_utf8EncodeChar (units : List (Option Char)) (c : Char) :
    (String.utf8EncodeChar c).foldl Decoding.feed ⟨units, none⟩ = ⟨some c :: units, none⟩ := by
  have hc : Char.ofNat c.val.toNat = c := Char.ofNat_toNat c
  have hvalid : c.val.toNat < 0xd800 ∨ 0xdfff < c.val.toNat ∧ c.val.toNat < 0x110000 := c.valid
  fun_cases String.utf8EncodeChar c with
  | case1 v hv =>
    simp only [List.foldl_cons, List.foldl_nil, Decoding.feed, Decoding.start,
      lead_ofNat (n := v) (by omega), hv, if_true]
    rw [hc]
  | case2 v hv hv' =>
    have hbits : v / 64 * 64 + (v % 0x40 + 0x80) % 64 = v := by omega
    simp only [List.foldl_cons, List.foldl_nil]
    rw [feed_lead (lead_two (by omega) (by omega)), feed_within (by omega) (by simp)
      (by simp; omega), if_pos (by omega), hbits, hc]
  | case3 v hv hv' hv'' =>
    obtain ⟨low, high, hlead, hlow, hhigh⟩ :=
      exists_lead_three (v := v) (by omega) (by omega) (by omega)
    have hbits : (v / 4096 * 64 + (v / 64 % 0x40 + 0x80) % 64) * 64 +
        (v % 0x40 + 0x80) % 64 = v := by omega
    simp only [List.foldl_cons, List.foldl_nil]
    rw [feed_lead hlead, feed_within (by omega) hlow hhigh, if_neg (by omega),
      feed_within (by omega) (by simp) (by simp; omega), if_pos (by omega), hbits, hc]
  | case4 v hv hv' hv'' =>
    obtain ⟨low, high, hlead, hlow, hhigh⟩ := exists_lead_four (v := v) (by omega) (by omega)
    have hbits : ((v / 262144 * 64 + (v / 4096 % 0x40 + 0x80) % 64) * 64 +
        (v / 64 % 0x40 + 0x80) % 64) * 64 + (v % 0x40 + 0x80) % 64 = v := by omega
    simp only [List.foldl_cons, List.foldl_nil]
    rw [feed_lead hlead, feed_within (by omega) hlow hhigh, if_neg (by omega),
      feed_within (by omega) (by simp) (by simp; omega), if_neg (by omega),
      feed_within (by omega) (by simp) (by simp; omega), if_pos (by omega), hbits, hc]

/-- **The bytes of a text are its characters**, none of them ill-formed. -/
theorem units_flatMap (s : List Char) : units (s.flatMap String.utf8EncodeChar) = s.map some := by
  have hfold : ∀ (s : List Char) (units : List (Option Char)),
      (s.flatMap String.utf8EncodeChar).foldl Decoding.feed ⟨units, none⟩ =
        ⟨(s.map some).reverse ++ units, none⟩ := by
    intro s
    induction s with
    | nil => intro units; rfl
    | cons c s ih =>
      intro units
      rw [List.flatMap_cons, List.foldl_append, foldl_feed_utf8EncodeChar, ih]
      simp
  rw [units, hfold, Decoding.finish]
  simp

/-- **The bytes of a text are read as that text.** -/
theorem decodeLossy_flatMap (s : List Char) :
    decodeLossy (s.flatMap String.utf8EncodeChar) = s := by
  rw [decodeLossy, units_flatMap, List.map_map]
  exact List.map_id s

end BenchReport.Text
