import Mathlib
import BenchReport.LongTable
import BenchReport.Proofs.Decimal.Fixed
import BenchReport.Proofs.Text.Cut
import BenchReport.Proofs.Text.Thousands

/-!
# Rates in groups of thousands

A rate in a long table is a double with three decimals, written in groups, and without the
zeros at its end. It is made from the text with all three decimals, by taking that apart again:
the sign is the run of minuses, and the point is where the digits end. Neither can be found in
the wrong place, since what stands between them is digits
(`BenchReport.LongTable.thousands_eq`).

Whole numbers are written in groups in reports too, where they come from counts. A double that
is a whole number loses all its decimals and gets the text of the count
(`BenchReport.LongTable.thousands_eq_showGrouped`), so that the two ways to write a number
cannot be told apart.
-/

namespace BenchReport.LongTable

open Decimal (digitChars fixedChars lastDigits lastUnits signText)
open Text (showGrouped)

/-- What is shown of the digits behind a point: the zeros at their end go, and the point with
them if nothing is left. -/
def shownDecimals (fraction : List Char) : List Char :=
  if (fraction.rdropWhile (· = '0')).isEmpty then [] else '.' :: fraction.rdropWhile (· = '0')

section Thousands

variable {x : Float}

theorem eq_minus_of_mem_signText : ∀ c ∈ signText x, decide (c = '-') = true := by
  intro c hc
  rw [signText] at hc
  split at hc
  · cases hc
  · exact decide_eq_true (List.mem_singleton.mp hc)

/-- **A finite double is written** as its sign, the groups before the point, and the decimals
that are shown. -/
theorem thousands_eq (hx : x.isFinite = true) :
    thousands x = signText x ++ (showGrouped (lastUnits 3 x / 10 ^ 3)).toList ++
      shownDecimals (lastDigits 3 (lastUnits 3 x)) := by
  generalize hn : lastUnits 3 x = n
  have hchars := Decimal.fixedChars_eq hx (show 0 < 3 by norm_num)
  rw [hn] at hchars
  have hdigits : Text.IsDigits (digitChars (n / 10 ^ 3)) := Text.isDigits_toDigits _
  have hsign : ∀ c ∈ (digitChars (n / 10 ^ 3) ++ '.' :: lastDigits 3 n).head?,
      decide (c = '-') = false := by
    intro c hc
    rw [List.head?_append_of_ne_nil _ hdigits.1] at hc
    have hminus : '-' ∉ digitChars (n / 10 ^ 3) := Text.notMem_of_isDigit hdigits.2 (by decide)
    exact decide_eq_false (ne_of_mem_of_not_mem (List.mem_of_mem_head? hc) hminus)
  have hwhole : ∀ c ∈ digitChars (n / 10 ^ 3), decide (c ≠ '.') = true := by
    have hpoint : '.' ∉ digitChars (n / 10 ^ 3) := Text.notMem_of_isDigit hdigits.2 (by decide)
    exact fun c hc => decide_eq_true (ne_of_mem_of_not_mem hc hpoint)
  have hpoint : ∀ c ∈ ('.' :: lastDigits 3 n).head?, decide (c ≠ '.') = false := by simp
  rw [thousands, hchars]
  simp only [Text.takeWhile_append_stop eq_minus_of_mem_signText hsign,
    Text.dropWhile_append_stop eq_minus_of_mem_signText hsign,
    Text.takeWhile_append_stop hwhole hpoint, List.drop_length_add_append, List.drop_succ_cons,
    List.drop_zero]
  rw [Text.toList_showGrouped]
  rfl

/-- **A double that is a whole number is written as the number is.** -/
theorem thousands_eq_showGrouped {n : ℕ} (hx : x.isFinite = true)
    (hunsigned : x.toBits.toNat < 2 ^ 63) (hvalue : Binary64.value x = n) :
    thousands x = (showGrouped n).toList := by
  have hunits : lastUnits 3 x = n * 10 ^ 3 := by
    have hwhole : |Binary64.value x| * 10 ^ 3 = ((n * 10 ^ 3 : ℕ) : ℚ) := by
      rw [hvalue, Nat.abs_cast]
      push_cast
      rfl
    rw [lastUnits, hwhole, Binary64.roundEven_natCast]
  have hdecimals : shownDecimals (List.replicate 3 '0') = [] := by decide
  rw [thousands_eq hx, hunits, Nat.mul_div_cancel _ (by norm_num), Decimal.lastDigits_mul_pow,
    hdecimals, signText, if_pos hunsigned, List.nil_append, List.append_nil]

end Thousands

/-- **Numbers are grouped alike wherever they are written.** A count is its digits in groups of
three. A finite double is its sign, its digits before the point in the same groups, and what is
shown of three decimals, which are those of the nearest number that has no more. A double that is
a count has the text of the count. -/
theorem numbers_are_grouped_alike :
    (∀ n : ℕ, Text.IsGrouped (Nat.toDigits 10 n) (showGrouped n).toList ∧
      (showGrouped n).toList.filter (· ≠ ',') = Nat.toDigits 10 n) ∧
    (∀ x : Float, x.isFinite = true → ∃ (whole : ℕ) (fraction : List Char),
      fixedChars 3 x = signText x ++ (Nat.toDigits 10 whole ++ '.' :: fraction) ∧
      fraction.length = 3 ∧ (∀ c ∈ fraction, c.isDigit = true) ∧
      whole * 1000 + Text.spelled fraction = Binary64.roundEven (|Binary64.value x| * 1000) ∧
      thousands x = signText x ++ (showGrouped whole).toList ++ shownDecimals fraction) ∧
    ∀ (x : Float) (n : ℕ), x.isFinite = true → x.toBits.toNat < 2 ^ 63 →
      Binary64.value x = n → String.ofList (thousands x) = showGrouped n := by
  refine ⟨fun n => ⟨Text.isGrouped_showGrouped n, Text.filter_showGrouped n⟩, fun x hx => ?_,
    fun x n hx hunsigned hvalue => ?_⟩
  · have hunits : lastUnits 3 x = Binary64.roundEven (|Binary64.value x| * 1000) := by
      rw [lastUnits]
      norm_num
    refine ⟨lastUnits 3 x / 10 ^ 3, lastDigits 3 (lastUnits 3 x), ?_,
      Decimal.length_lastDigits _ _, Decimal.isDigit_of_mem_lastDigits, ?_, thousands_eq hx⟩
    · exact Decimal.fixedChars_eq hx (by norm_num)
    · rw [Decimal.spelled_lastDigits, ← hunits]
      exact Nat.div_add_mod' _ _
  · rw [thousands_eq_showGrouped hx hunsigned hvalue, String.ofList_toList]

/-- A number with a sign and a decimal, and one that is a count. -/
theorem numbers_are_grouped_alike_at_two_rates :
    (∃ (whole : ℕ) (fraction : List Char),
      fixedChars 3 (-1234.5) =
        signText (-1234.5) ++ (Nat.toDigits 10 whole ++ '.' :: fraction) ∧
      fraction.length = 3 ∧ (∀ c ∈ fraction, c.isDigit = true) ∧
      whole * 1000 + Text.spelled fraction =
        Binary64.roundEven (|Binary64.value (-1234.5)| * 1000) ∧
      thousands (-1234.5) =
        signText (-1234.5) ++ (showGrouped whole).toList ++ shownDecimals fraction) ∧
    String.ofList (thousands 1234567.0) = "1,234,567" := by
  obtain ⟨-, hrate, hcount⟩ := numbers_are_grouped_alike
  have hvalue : Binary64.value 1234567.0 = (1234567 : ℕ) :=
    (Binary64.value_of_unpack (1234567 * 2 ^ 32) (-32) rfl).trans (by norm_num)
  have hshown : showGrouped 1234567 = "1,234,567" := by decide
  exact ⟨hrate (-1234.5) rfl, (hcount 1234567.0 1234567 rfl (by decide) hvalue).trans hshown⟩

end BenchReport.LongTable
