import Mathlib
import BenchReport.Proofs.Decimal.Reading
import BenchReport.Proofs.Duration

/-!
# Every timing token is read or refused

A timing token that is a numeral with the suffix of a unit is read, and what it is read as is
fixed by the two: the numeral has a value, the double nearest to that is a number of units, and
the unit says how many milliseconds those are. Any other token is refused, and the reason is the
first thing that is wrong with it, in a fixed order (`BenchReport.IsRefused`).

A numeral is said twice. `BenchReport.Decimal.IsPlain` is its grammar, with the point at its
place; `BenchReport.Decimal.IsNumeral` only counts digits and points, which is enough, since
nothing but the number of points can be wrong with a run of digits and points that has a digit
(`BenchReport.Decimal.isPlain_iff`).
-/

namespace BenchReport

/-! ### Numerals -/

namespace Decimal

/-- **A numeral**: digits and points, with at least one digit and at most one point. -/
structure IsNumeral (s : List Char) : Prop where
  /-- Nothing but digits and points. -/
  chars : ∀ c ∈ s, c.isDigit = true ∨ c = '.'
  /-- At least one digit. -/
  digit : ∃ c ∈ s, c.isDigit = true
  /-- At most one point. -/
  point : s.count '.' ≤ 1

/-- The number that a numeral says: a whole number before the point, and behind the point as
many places as there are digits. -/
def plainValue (s : List Char) : ℚ :=
  let fraction := (s.dropWhile (· ≠ '.')).tail
  Text.spelled (s.takeWhile (· ≠ '.')) + Text.spelled fraction / 10 ^ fraction.length

theorem point_notMem_of_isDigit {s : List Char} (h : ∀ c ∈ s, c.isDigit = true) : '.' ∉ s :=
  Text.notMem_of_isDigit h (by decide)

theorem plainValue_whole {digits : List Char} (h : ∀ c ∈ digits, c.isDigit = true) :
    plainValue digits = Text.spelled digits := by
  have hpoint : ∀ c ∈ digits, decide (c ≠ '.') = true := fun c hc =>
    decide_eq_true (ne_of_mem_of_not_mem hc (point_notMem_of_isDigit h))
  rw [plainValue, List.takeWhile_eq_self_iff.mpr hpoint, List.dropWhile_eq_nil_iff.mpr hpoint]
  simp [Text.spelled]

theorem plainValue_point {whole : List Char} (h : ∀ c ∈ whole, c.isDigit = true)
    (fraction : List Char) :
    plainValue (whole ++ '.' :: fraction) =
      Text.spelled whole + Text.spelled fraction / 10 ^ fraction.length := by
  have hpoint : ∀ c ∈ whole, decide (c ≠ '.') = true := fun c hc =>
    decide_eq_true (ne_of_mem_of_not_mem hc (point_notMem_of_isDigit h))
  have hstop : ∀ c ∈ ('.' :: fraction).head?, decide (c ≠ '.') = false := by simp
  rw [plainValue, Text.takeWhile_append_stop hpoint hstop, Text.dropWhile_append_stop hpoint hstop,
    List.tail_cons]

theorem IsPlain.isNumeral {s : List Char} (h : IsPlain s) : IsNumeral s := by
  have hchars : ∀ c ∈ s, c.isDigit = true ∨ c = '.' := fun c hc => by
    simpa [isNumberChar] using h.chars c hc
  cases h with
  | whole hne hdigits =>
    obtain ⟨c, hc⟩ := List.exists_mem_of_ne_nil _ hne
    refine ⟨hchars, ⟨c, hc, hdigits c hc⟩, ?_⟩
    rw [List.count_eq_zero_of_not_mem (point_notMem_of_isDigit hdigits)]
    exact Nat.zero_le 1
  | @point whole fraction hne hwhole hfraction =>
    refine ⟨hchars, ?_, ?_⟩
    · rcases hne with hne | hne
      · obtain ⟨c, hc⟩ := List.exists_mem_of_ne_nil whole hne
        exact ⟨c, by simp [hc], hwhole c hc⟩
      · obtain ⟨c, hc⟩ := List.exists_mem_of_ne_nil fraction hne
        exact ⟨c, by simp [hc], hfraction c hc⟩
    · rw [List.count_append, List.count_cons_self,
        List.count_eq_zero_of_not_mem (point_notMem_of_isDigit hwhole),
        List.count_eq_zero_of_not_mem (point_notMem_of_isDigit hfraction)]

theorem IsNumeral.isPlain {s : List Char} (h : IsNumeral s) : IsPlain s := by
  obtain ⟨whole, behind, rfl, hwhole, hstop⟩ := Text.exists_run Char.isDigit s
  cases behind with
  | nil =>
    rw [List.append_nil] at h ⊢
    obtain ⟨c, hc, -⟩ := h.digit
    exact .whole (List.ne_nil_of_mem hc) hwhole
  | cons c fraction =>
    -- the run stops at the point, and the only one there may be is gone with it
    obtain rfl : c = '.' := by
      refine (h.chars c (by simp)).resolve_left fun hc => ?_
      exact absurd hc (by simpa using hstop)
    have hcount := h.point
    rw [List.count_append, List.count_cons_self] at hcount
    have hnone : '.' ∉ fraction := List.count_eq_zero.mp (by omega)
    have hfraction : ∀ d ∈ fraction, d.isDigit = true := fun d hd =>
      (h.chars d (by simp [hd])).resolve_right fun heq => hnone (heq ▸ hd)
    refine .point ?_ hwhole hfraction
    obtain ⟨d, hd, hdigit⟩ := h.digit
    rcases List.mem_append.mp hd with hd | hd
    · exact .inl (List.ne_nil_of_mem hd)
    · rcases List.mem_cons.mp hd with rfl | hd
      · exact absurd hdigit (by decide)
      · exact .inr (List.ne_nil_of_mem hd)

/-- **Nothing but the number of points can be wrong** with a run of digits and points that has
a digit. -/
theorem isPlain_iff {s : List Char} : IsPlain s ↔ IsNumeral s :=
  ⟨IsPlain.isNumeral, IsNumeral.isPlain⟩

/-- **A numeral is read as the number that it says.** -/
theorem value_of_readPlain? {s : List Char} {w : Written} (h : readPlain? s = some w) :
    (∀ c ∈ w.digits, c.isDigit = true) ∧ w.value = plainValue s := by
  cases isSome_readPlain?_iff.mp (Option.isSome_of_eq_some h) with
  | whole hne hdigits =>
    rw [readPlain?_whole hne hdigits, Option.some_inj] at h
    subst h
    refine ⟨hdigits, ?_⟩
    rw [plainValue_whole hdigits, Written.value, digitsValue_eq, zpow_zero, mul_one]
  | @point whole fraction hne hwhole hfraction =>
    rw [readPlain?_point hne hwhole hfraction, Option.some_inj] at h
    subst h
    refine ⟨fun c hc => (List.mem_append.mp hc).elim (hwhole c) (hfraction c), ?_⟩
    have hpow : (10 : ℚ) ^ fraction.length ≠ 0 := pow_ne_zero _ (by norm_num)
    rw [plainValue_point hwhole, Written.value, digitsValue_eq, Text.spelled_append, zpow_neg,
      zpow_natCast, ← div_eq_mul_inv]
    push_cast
    rw [add_div, mul_div_cancel_left₀ _ hpow]

/-- **The double of a numeral** is the one that is nearest to its number. -/
theorem isNearest_of_readPlain? {s : List Char} {w : Written} (h : readPlain? s = some w) :
    Binary64.IsNearest w.toFloat (plainValue s) := by
  obtain ⟨hdigits, hvalue⟩ := value_of_readPlain? h
  exact hvalue ▸ Written.isNearest_toFloat hdigits

end Decimal

/-! ### Suffixes -/

/-- **The suffixes of the units**: nothing, or one or two letters, of which the second is
an `s`. -/
inductive IsSuffix : List Char → TimeUnit → Prop
  /-- A number alone is in seconds. -/
  | none : IsSuffix [] .seconds
  /-- Seconds. -/
  | seconds : IsSuffix ['s'] .seconds
  /-- Milliseconds. -/
  | milliseconds {s : List Char} (hs : s = [] ∨ s = ['s']) : IsSuffix ('m' :: s) .milliseconds
  /-- Microseconds, with either of the signs that look alike. -/
  | microseconds {c : Char} (hc : c = TimeUnit.microSign ∨ c = TimeUnit.mu) {s : List Char}
      (hs : s = [] ∨ s = ['s']) : IsSuffix (c :: s) .microseconds
  /-- Microseconds, with a letter that is easier to type. -/
  | latin : IsSuffix ['u', 's'] .microseconds
  /-- Nanoseconds. -/
  | nanoseconds {s : List Char} (hs : s = [] ∨ s = ['s']) : IsSuffix ('n' :: s) .nanoseconds

/-- **The units are found by their suffixes.** -/
theorem ofSuffix?_eq_some_iff {suffix : List Char} {unit : TimeUnit} :
    TimeUnit.ofSuffix? suffix = some unit ↔ IsSuffix suffix unit := by
  constructor
  · intro h
    have hmem := TimeUnit.mem_suffixes_of_ofSuffix? h
    simp only [TimeUnit.suffixes, List.mem_cons, Prod.mk.injEq, List.not_mem_nil, or_false] at hmem
    rcases hmem with ⟨rfl, rfl⟩ | ⟨rfl, rfl⟩ | ⟨rfl, rfl⟩ | ⟨rfl, rfl⟩ | ⟨rfl, rfl⟩ | ⟨rfl, rfl⟩ |
      ⟨rfl, rfl⟩ | ⟨rfl, rfl⟩ | ⟨rfl, rfl⟩ | ⟨rfl, rfl⟩ | ⟨rfl, rfl⟩
    · exact .none
    · exact .seconds
    · exact .milliseconds (.inl rfl)
    · exact .milliseconds (.inr rfl)
    · exact .microseconds (.inl rfl) (.inl rfl)
    · exact .microseconds (.inl rfl) (.inr rfl)
    · exact .microseconds (.inr rfl) (.inl rfl)
    · exact .microseconds (.inr rfl) (.inr rfl)
    · exact .latin
    · exact .nanoseconds (.inl rfl)
    · exact .nanoseconds (.inr rfl)
  · intro h
    cases h with
    | none | seconds | latin => decide
    | milliseconds hs | nanoseconds hs => rcases hs with rfl | rfl <;> decide
    | microseconds hc hs => rcases hc with rfl | rfl <;> rcases hs with rfl | rfl <;> decide

theorem ofSuffix?_eq_none_iff {suffix : List Char} :
    TimeUnit.ofSuffix? suffix = none ↔ ∀ unit, ¬IsSuffix suffix unit := by
  simp only [Option.eq_none_iff_forall_ne_some, ne_eq, ofSuffix?_eq_some_iff]

/-! ### Refused tokens -/

/-- **Why a token is refused.** The first two causes are what stands where the digits and points
end, and only a token with a unit is looked at for a third. -/
inductive IsRefused : List Char → NumberFault → Prop
  /-- The token does not begin with a digit or point. -/
  | missing {token : List Char} (hfirst : ∀ c ∈ token.head?, isNumberChar c = false) :
      IsRefused token .missing
  /-- What stands behind the digits and points is not the suffix of a unit. -/
  | unknownUnit {number suffix : List Char} (hne : number ≠ [])
      (hnumber : ∀ c ∈ number, isNumberChar c = true)
      (hend : ∀ c ∈ suffix.head?, isNumberChar c = false)
      (hsuffix : ∀ unit, ¬IsSuffix suffix unit) :
      IsRefused (number ++ suffix) (.unknownUnit (String.ofList suffix))
  /-- The digits and points before a suffix are not a numeral. -/
  | notDecimal {number suffix : List Char} {unit : TimeUnit} (hne : number ≠ [])
      (hnumber : ∀ c ∈ number, isNumberChar c = true) (hsuffix : IsSuffix suffix unit)
      (hnumeral : ¬Decimal.IsNumeral number) :
      IsRefused (number ++ suffix) .notDecimal

section Tokens

variable {token number suffix : List Char}

/-- How a token is read that is cut into its number and what stands behind it. -/
theorem readDuration_of_cut (htoken : Text.trim token = number ++ suffix)
    (hnumber : ∀ c ∈ number, isNumberChar c = true)
    (hend : ∀ c ∈ suffix.head?, isNumberChar c = false) :
    readDuration token =
      if number.isEmpty then .error (.malformedNumber (String.ofList (Text.trim token)) .missing)
      else
        match TimeUnit.ofSuffix? suffix with
        | none => .error (.malformedNumber (String.ofList (Text.trim token))
            (.unknownUnit (String.ofList suffix)))
        | some unit =>
          match Decimal.readPlain? number with
          | none => .error (.malformedNumber (String.ofList (Text.trim token)) .notDecimal)
          | some written => .ok (unit.toMillis written.toFloat) := by
  have htake : (Text.trim token).takeWhile isNumberChar = number := by
    rw [htoken, Text.takeWhile_append_stop hnumber hend]
  have hdrop : (Text.trim token).dropWhile isNumberChar = suffix := by
    rw [htoken, Text.dropWhile_append_stop hnumber hend]
  subst htake hdrop
  rfl

theorem IsSuffix.head?_isNumberChar {unit : TimeUnit} (h : IsSuffix suffix unit) :
    ∀ c ∈ suffix.head?, isNumberChar c = false := fun c hc =>
  (TimeUnit.isSuffixChar_of_ofSuffix? (ofSuffix?_eq_some_iff.mpr h) c
    (List.mem_of_mem_head? hc)).isNumberChar

theorem readPlain?_eq_none_iff : Decimal.readPlain? number = none ↔ ¬Decimal.IsNumeral number := by
  rw [← Decimal.isPlain_iff, ← Decimal.isSome_readPlain?_iff, Option.not_isSome_iff_eq_none]

/-- **A token is refused exactly for the first thing that is wrong with it.** -/
theorem readDuration_eq_error_iff {fault : LineFault} :
    readDuration token = .error fault ↔
      ∃ cause, IsRefused (Text.trim token) cause ∧
        fault = .malformedNumber (String.ofList (Text.trim token)) cause := by
  constructor
  · intro h
    obtain ⟨number, suffix, htoken, hnumber, hend⟩ := Text.exists_run isNumberChar (Text.trim token)
    rw [readDuration_of_cut htoken hnumber hend] at h
    rw [htoken] at h ⊢
    by_cases hempty : number = []
    · subst hempty
      exact ⟨_, .missing hend, (Except.error.inj h).symm⟩
    rw [if_neg (by simpa using hempty)] at h
    cases hunit : TimeUnit.ofSuffix? suffix with
    | none =>
      rw [hunit] at h
      exact ⟨_, .unknownUnit hempty hnumber hend (ofSuffix?_eq_none_iff.mp hunit),
        (Except.error.inj h).symm⟩
    | some unit =>
      rw [hunit] at h
      cases hplain : Decimal.readPlain? number with
      | none =>
        rw [hplain] at h
        exact ⟨_, .notDecimal hempty hnumber (ofSuffix?_eq_some_iff.mp hunit)
          (readPlain?_eq_none_iff.mp hplain), (Except.error.inj h).symm⟩
      | some written =>
        rw [hplain] at h
        cases h
  · rintro ⟨cause, hrefused, rfl⟩
    generalize htoken : Text.trim token = t at hrefused
    cases hrefused with
    | missing hfirst =>
      have hcut : Text.trim token = [] ++ t := htoken
      rw [readDuration_of_cut hcut (by simp) hfirst, htoken]
      rfl
    | unknownUnit hne hnumber hend hsuffix =>
      rw [readDuration_of_cut htoken hnumber hend, if_neg (by simpa using hne),
        ofSuffix?_eq_none_iff.mpr hsuffix, htoken]
    | notDecimal hne hnumber hsuffix hnumeral =>
      rw [readDuration_of_cut htoken hnumber hsuffix.head?_isNumberChar,
        if_neg (by simpa using hne), ofSuffix?_eq_some_iff.mpr hsuffix,
        readPlain?_eq_none_iff.mpr hnumeral, htoken]

end Tokens

/-- **A timing token is read by its grammar or refused.** Blanks around it aside, it is read
exactly if it is a numeral with the suffix of a unit, as the milliseconds that this many units
are; otherwise the fault names it and the first thing that is wrong with it. -/
theorem timing_token_is_read_by_grammar (token : List Char) :
    (∀ latency, readDuration token = .ok latency ↔
      ∃ number suffix unit x, Text.trim token = number ++ suffix ∧ Decimal.IsNumeral number ∧
        IsSuffix suffix unit ∧ Binary64.IsNearest x (Decimal.plainValue number) ∧
        latency = unit.toMillis x) ∧
    ∀ fault, readDuration token = .error fault ↔
      ∃ cause, IsRefused (Text.trim token) cause ∧
        fault = .malformedNumber (String.ofList (Text.trim token)) cause := by
  refine ⟨fun latency => ?_, fun fault => readDuration_eq_error_iff⟩
  rw [readDuration_eq_ok_iff]
  constructor
  · rintro ⟨number, suffix, unit, written, htoken, hunit, hwritten, rfl⟩
    have hplain := Decimal.isSome_readPlain?_iff.mp (Option.isSome_of_eq_some hwritten)
    exact ⟨number, suffix, unit, written.toFloat, htoken, hplain.isNumeral,
      ofSuffix?_eq_some_iff.mp hunit, Decimal.isNearest_of_readPlain? hwritten, rfl⟩
  · rintro ⟨number, suffix, unit, x, htoken, hnumeral, hsuffix, hx, rfl⟩
    obtain ⟨written, hwritten⟩ := Option.isSome_iff_exists.mp
      (Decimal.isSome_readPlain?_iff.mpr hnumeral.isPlain)
    have hvalue := Decimal.isNearest_of_readPlain? hwritten
    exact ⟨number, suffix, unit, written, htoken, ofSuffix?_eq_some_iff.mpr hsuffix, hwritten,
      by rw [hx.unique hvalue]⟩

end BenchReport
