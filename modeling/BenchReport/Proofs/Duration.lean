import Mathlib
import BenchReport.Duration
import BenchReport.Proofs.Text.Integer
import BenchReport.Proofs.Text.Words

/-!
# The grammar of durations

A timing token is a number and the suffix of a unit. Reading cuts it where its run of
digits and points ends, and since no suffix begins with one of these, there is no
other place where a number could end: a token is read exactly when it is a number and
a suffix at all (`BenchReport.readDuration_eq_ok_iff`).

So what a token is made of is known from the fact that it is read. In particular it
has no slash and no margin sign (`BenchReport.isTimingChar_of_readDuration`), which is
what keeps a duration whole inside a line.
-/

namespace BenchReport

/-! ### Numbers -/

namespace Decimal

/-- **The grammar of a plain number**: digits, with a point somewhere among them or
not, and at least one digit. -/
inductive IsPlain : List Char → Prop
  /-- Digits only. -/
  | whole {digits : List Char} (hne : digits ≠ []) (hdigits : ∀ c ∈ digits, c.isDigit = true) :
      IsPlain digits
  /-- Digits on one side of a point at least. -/
  | point {whole fraction : List Char} (hne : whole ≠ [] ∨ fraction ≠ [])
      (hwhole : ∀ c ∈ whole, c.isDigit = true) (hfraction : ∀ c ∈ fraction, c.isDigit = true) :
      IsPlain (whole ++ '.' :: fraction)

theorem IsPlain.ne_nil {s : List Char} (h : IsPlain s) : s ≠ [] := by
  cases h with
  | whole hne => exact hne
  | point => simp

theorem IsPlain.chars {s : List Char} (h : IsPlain s) : ∀ c ∈ s, isNumberChar c = true := by
  intro c hc
  rw [isNumberChar, Bool.or_eq_true, decide_eq_true_eq]
  cases h with
  | whole _ hdigits => exact .inl (hdigits c hc)
  | point _ hwhole hfraction =>
    rcases List.mem_append.mp hc with hc | hc
    · exact .inl (hwhole c hc)
    · rcases List.mem_cons.mp hc with rfl | hc
      · exact .inr rfl
      · exact .inl (hfraction c hc)

/-- Digits are read as they stand. -/
theorem readPlain?_whole {digits : List Char} (hne : digits ≠ [])
    (hdigits : ∀ c ∈ digits, c.isDigit = true) : readPlain? digits = some ⟨digits, 0⟩ := by
  have hstop : ∀ c ∈ ([] : List Char).head?, c.isDigit = false := by simp
  have htake := Text.takeWhile_append_stop hdigits hstop
  have hdrop := Text.dropWhile_append_stop hdigits hstop
  rw [List.append_nil] at htake hdrop
  simp [readPlain?, htake, hdrop, hne]

/-- Digits behind a point scale the number down by as many places. -/
theorem readPlain?_point {whole fraction : List Char} (hne : whole ≠ [] ∨ fraction ≠ [])
    (hwhole : ∀ c ∈ whole, c.isDigit = true) (hfraction : ∀ c ∈ fraction, c.isDigit = true) :
    readPlain? (whole ++ '.' :: fraction) =
      some ⟨whole ++ fraction, -(fraction.length : Int)⟩ := by
  have hstop : ∀ c ∈ ('.' :: fraction).head?, c.isDigit = false := by
    simp only [List.head?_cons, Option.mem_some_iff, forall_eq']
    decide
  have hall : fraction.all Char.isDigit = true := List.all_eq_true.mpr hfraction
  have hside : (whole.isEmpty && fraction.isEmpty) = false := by
    rwa [Bool.and_eq_false_iff, List.isEmpty_eq_false_iff, List.isEmpty_eq_false_iff]
  rw [readPlain?, Text.takeWhile_append_stop hwhole hstop,
    Text.dropWhile_append_stop hwhole hstop]
  simp only [hall, hside]
  rfl

/-- **A text is read as a plain number exactly when it is one.** -/
theorem isSome_readPlain?_iff {s : List Char} : (readPlain? s).isSome ↔ IsPlain s := by
  constructor
  · intro h
    obtain ⟨whole, behind, rfl, hwhole, hstop⟩ := Text.exists_run Char.isDigit s
    rw [readPlain?, Text.takeWhile_append_stop hwhole hstop,
      Text.dropWhile_append_stop hwhole hstop] at h
    split at h
    · rw [List.append_nil]
      by_cases hempty : whole = []
      · simp [hempty] at h
      · exact .whole hempty hwhole
    · split at h
      · rename_i hfraction
        simp only [Bool.and_eq_true, List.all_eq_true, Bool.not_eq_true', Bool.and_eq_false_iff,
          List.isEmpty_eq_false_iff] at hfraction
        exact .point hfraction.2 hwhole hfraction.1
      · cases h
    · cases h
  · intro h
    cases h with
    | whole hne hdigits => rw [readPlain?_whole hne hdigits, Option.isSome_some]
    | point hne hwhole hfraction => rw [readPlain?_point hne hwhole hfraction, Option.isSome_some]

end Decimal

/-! ### Suffixes -/

/-- A letter of a suffix, by its code: `m`, `n`, `s`, `u`, the micro sign, or mu. -/
def TimeUnit.IsSuffixChar (c : Char) : Prop :=
  c.toNat = 0x6d ∨ c.toNat = 0x6e ∨ c.toNat = 0x73 ∨ c.toNat = 0x75 ∨ c.toNat = 0xb5 ∨
    c.toNat = 0x3bc

theorem TimeUnit.mem_suffixes_of_ofSuffix? {suffix : List Char} {unit : TimeUnit}
    (h : ofSuffix? suffix = some unit) : (suffix, unit) ∈ suffixes := by
  obtain ⟨entry, hfind, rfl⟩ := Option.map_eq_some_iff.mp h
  have hentry : entry.1 = suffix := by simpa using List.find?_some hfind
  exact hentry ▸ List.mem_of_find?_eq_some hfind

/-- The suffix of a unit is made of these letters. -/
theorem TimeUnit.isSuffixChar_of_ofSuffix? {suffix : List Char} {unit : TimeUnit}
    (h : ofSuffix? suffix = some unit) : ∀ c ∈ suffix, IsSuffixChar c := by
  have hall : ∀ entry ∈ suffixes, ∀ c ∈ entry.1, IsSuffixChar c := by
    simp [suffixes, microSign, mu, IsSuffixChar]
  exact hall _ (mem_suffixes_of_ofSuffix? h)

/-! ### Tokens -/

/-- A character of a timing token. -/
def IsTimingChar (c : Char) : Prop := isNumberChar c = true ∨ TimeUnit.IsSuffixChar c

theorem isNumberChar_eq_true_iff {c : Char} :
    isNumberChar c = true ↔ 48 ≤ c.toNat ∧ c.toNat ≤ 57 ∨ c.toNat = 46 := by
  rw [isNumberChar, Bool.or_eq_true, decide_eq_true_eq, Char.isDigit, Bool.and_eq_true,
    decide_eq_true_eq, decide_eq_true_eq, ← Char.toNat_inj]
  rfl

/-- No letter of a suffix could belong to the number before it. -/
theorem TimeUnit.IsSuffixChar.isNumberChar {c : Char} (h : TimeUnit.IsSuffixChar c) :
    isNumberChar c = false := by
  rw [Bool.eq_false_iff, ne_eq, isNumberChar_eq_true_iff]
  rw [TimeUnit.IsSuffixChar] at h
  omega

/-- No character of a timing token is a blank. -/
theorem IsTimingChar.isBlank {c : Char} (h : IsTimingChar c) : Text.isBlank c = false := by
  rw [IsTimingChar, isNumberChar_eq_true_iff, TimeUnit.IsSuffixChar] at h
  simp only [Text.isBlank, Bool.or_eq_false_iff, Bool.and_eq_false_iff, decide_eq_false_iff_not]
  omega

/-- A number and a suffix consist of such characters. -/
theorem isTimingChar_append {number suffix : List Char} {unit : TimeUnit}
    (hnumber : Decimal.IsPlain number) (hsuffix : TimeUnit.ofSuffix? suffix = some unit) :
    ∀ c ∈ number ++ suffix, IsTimingChar c := by
  intro c hc
  rcases List.mem_append.mp hc with hc | hc
  · exact .inl (hnumber.chars c hc)
  · exact .inr (TimeUnit.isSuffixChar_of_ofSuffix? hsuffix c hc)

/-- **A token is read exactly when it is a number and the suffix of a unit**, blanks
around it aside. -/
theorem readDuration_eq_ok_iff {token : List Char} {latency : Float} :
    readDuration token = .ok latency ↔
      ∃ number suffix unit written, Text.trim token = number ++ suffix ∧
        TimeUnit.ofSuffix? suffix = some unit ∧ Decimal.readPlain? number = some written ∧
        latency = unit.toMillis written.toFloat := by
  have hsplit := List.takeWhile_append_dropWhile (p := isNumberChar) (l := Text.trim token)
  constructor
  · intro h
    rw [readDuration] at h
    simp only at h
    split at h
    · cases h
    · split at h
      · cases h
      · rename_i unit hunit
        split at h
        · cases h
        · rename_i written hwritten
          exact ⟨_, _, unit, written, hsplit.symm, hunit, hwritten, (Except.ok.inj h).symm⟩
  · rintro ⟨number, suffix, unit, written, htoken, hunit, hwritten, rfl⟩
    have hplain : Decimal.IsPlain number :=
      Decimal.isSome_readPlain?_iff.mp (Option.isSome_of_eq_some hwritten)
    have hstop : ∀ c ∈ suffix.head?, isNumberChar c = false := fun c hc =>
      (TimeUnit.isSuffixChar_of_ofSuffix? hunit c (List.mem_of_mem_head? hc)).isNumberChar
    have hne : number.isEmpty = false := by simpa using hplain.ne_nil
    rw [readDuration, htoken]
    simp only [Text.takeWhile_append_stop hplain.chars hstop,
      Text.dropWhile_append_stop hplain.chars hstop, hne, hunit, hwritten]
    rfl

/-- **A number with a known unit behind it is read.** -/
theorem exists_readDuration_append {number suffix : List Char} (hnumber : Decimal.IsPlain number)
    (hsuffix : (TimeUnit.ofSuffix? suffix).isSome) :
    ∃ latency, readDuration (number ++ suffix) = .ok latency := by
  obtain ⟨unit, hunit⟩ := Option.isSome_iff_exists.mp hsuffix
  obtain ⟨written, hwritten⟩ := Option.isSome_iff_exists.mp
    (Decimal.isSome_readPlain?_iff.mpr hnumber)
  have htrim : Text.trim (number ++ suffix) = number ++ suffix :=
    Text.trim_eq_self (Text.isTrimmed_of_forall fun c hc =>
      (isTimingChar_append hnumber hunit c hc).isBlank)
  exact ⟨_, readDuration_eq_ok_iff.mpr
    ⟨number, suffix, unit, written, htrim, hunit, hwritten, rfl⟩⟩

/-- **A token without blanks that is read consists of digits, points and letters of
units.** -/
theorem isTimingChar_of_readDuration {token : List Char} {latency : Float}
    (htoken : ∀ c ∈ token, Text.isBlank c = false) (h : readDuration token = .ok latency) :
    token ≠ [] ∧ ∀ c ∈ token, IsTimingChar c := by
  obtain ⟨number, suffix, unit, written, heq, hunit, hwritten, -⟩ := readDuration_eq_ok_iff.mp h
  have hplain : Decimal.IsPlain number :=
    Decimal.isSome_readPlain?_iff.mp (Option.isSome_of_eq_some hwritten)
  rw [Text.trim_eq_self (Text.isTrimmed_of_forall htoken)] at heq
  subst heq
  exact ⟨by simp [hplain.ne_nil], isTimingChar_append hplain hunit⟩

end BenchReport
