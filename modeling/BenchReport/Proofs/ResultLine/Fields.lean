import Mathlib
import BenchReport.Proofs.Text.Words
import BenchReport.ResultLine

/-!
# Fields and the units behind them

`BenchReport.ResultLine.gatherFields` goes through the words of a measurement with
the fields found so far, and decides at each word whether it begins a field or is a
unit of the last one. Seen from the end, that is a partition of the words into
blocks (`BenchReport.ResultLine.Printed`): a word that begins a field, and the words
with a slash behind it. Only the very first word begins a field whatever it looks
like – there is no field yet that it could be a unit of.

A block stands for its first word with the units of time appended
(`BenchReport.ResultLine.Printed.field`); units such as `B/op` leave no trace. The
blocks of a list of words exist and are what gathering computes
(`BenchReport.ResultLine.gatherFields_eq_iff`).
-/

namespace BenchReport.ResultLine

/-- A field as it is printed. -/
structure Printed where
  /-- The word that begins it. -/
  head : List Char
  /-- The units written behind that word. -/
  units : List (List Char)

/-- What a unit adds to its field: the text before its slash if that is a unit of
time, and nothing otherwise. -/
def timeSuffix (word : List Char) : List Char :=
  let unit := word.takeWhile (· ≠ '/')
  if unit ≠ [] ∧ (TimeUnit.ofSuffix? unit).isSome then unit else []

namespace Printed

/-- The words of a field. -/
def words (p : Printed) : List (List Char) := p.head :: p.units

/-- The field, units of time appended. -/
def field (p : Printed) : List Char := p.head ++ p.units.flatMap timeSuffix

end Printed

/-- **What the fields of a list of words are.** The words fall into blocks of a first
word and units, where a unit is a word with a slash and no word but the first of all
begins a block with one. -/
def AreFields (words fields : List (List Char)) : Prop :=
  ∃ printed : List Printed, words = printed.flatMap Printed.words ∧
    (∀ p ∈ printed, ∀ unit ∈ p.units, '/' ∈ unit) ∧ (∀ p ∈ printed.tail, '/' ∉ p.head) ∧
    fields = printed.map Printed.field

/-! ### One word -/

theorem takeWord_nil (word : List Char) : takeWord [] word = [word] := rfl

/-- A word without a slash begins a field. -/
theorem takeWord_of_notMem {fields : List (List Char)} {word : List Char} (h : '/' ∉ word) :
    takeWord fields word = word :: fields := by
  have hcut : Text.cutAt? (fun c => decide (c = '/')) word = none :=
    Text.cutAt?_eq_none_iff.mpr fun c hc => by
      rw [decide_eq_false_iff_not]
      rintro rfl
      exact h hc
  cases fields <;> simp [takeWord, hcut]

/-- A word with a slash behind a field belongs to that field. -/
theorem takeWord_of_mem {last : List Char} {earlier : List (List Char)} {word : List Char}
    (h : '/' ∈ word) : takeWord (last :: earlier) word = (last ++ timeSuffix word) :: earlier := by
  cases hcut : Text.cutAt? (fun c => decide (c = '/')) word with
  | none => simpa using Text.cutAt?_eq_none_iff.mp hcut '/' h
  | some cut =>
    obtain ⟨unit, per⟩ := cut
    obtain ⟨c, hword, hc, hbefore⟩ := Text.cutAt?_eq_some_iff.mp hcut
    have htake : word.takeWhile (fun c => decide (c ≠ '/')) = unit := by
      rw [hword]
      refine Text.takeWhile_append_stop (fun d hd => ?_) ?_
      · simpa using hbefore d hd
      · simpa using hc
    have hsuffix : timeSuffix word =
        if unit ≠ [] ∧ (TimeUnit.ofSuffix? unit).isSome then unit else [] := by
      rw [timeSuffix, htake]
    rw [hsuffix]
    by_cases hunit : unit ≠ [] ∧ (TimeUnit.ofSuffix? unit).isSome
    · simp [takeWord, hcut, hunit]
    · rw [if_neg hunit]
      rw [not_and_or] at hunit
      rcases hunit with hunit | hunit <;> simp_all [takeWord]

/-! ### All words -/

/-- The units behind a field are appended to it one by one. -/
theorem foldl_takeWord_units {last : List Char} {earlier units : List (List Char)}
    (h : ∀ unit ∈ units, '/' ∈ unit) :
    units.foldl takeWord (last :: earlier) = (last ++ units.flatMap timeSuffix) :: earlier := by
  induction units generalizing last with
  | nil => simp
  | cons unit units ih =>
    rw [List.foldl_cons, takeWord_of_mem (h unit (by simp)),
      ih fun u hu => h u (List.mem_cons_of_mem _ hu)]
    simp

/-- **The words of blocks are gathered into the fields of the blocks.** A block that
stands behind another must not begin with a slash. -/
theorem foldl_takeWord_printed {printed : List Printed} {fields : List (List Char)}
    (hunits : ∀ p ∈ printed, ∀ unit ∈ p.units, '/' ∈ unit)
    (hheads : ∀ p ∈ printed, '/' ∉ p.head) :
    (printed.flatMap Printed.words).foldl takeWord fields =
      (printed.map Printed.field).reverse ++ fields := by
  induction printed generalizing fields with
  | nil => rfl
  | cons p printed ih =>
    rw [List.flatMap_cons, List.foldl_append, Printed.words, List.foldl_cons,
      takeWord_of_notMem (hheads p (by simp)), foldl_takeWord_units (hunits p (by simp)),
      ih (fun q hq => hunits q (List.mem_cons_of_mem _ hq))
        fun q hq => hheads q (List.mem_cons_of_mem _ hq)]
    simp [Printed.field]

/-- The words behind a first one: units, and then blocks that begin without a slash. -/
theorem exists_blocks (words : List (List Char)) :
    ∃ (units : List (List Char)) (printed : List Printed),
      words = units ++ printed.flatMap Printed.words ∧ (∀ unit ∈ units, '/' ∈ unit) ∧
      (∀ p ∈ printed, ∀ unit ∈ p.units, '/' ∈ unit) ∧ ∀ p ∈ printed, '/' ∉ p.head := by
  induction words with
  | nil => exact ⟨[], [], rfl, by simp, by simp, by simp⟩
  | cons word words ih =>
    obtain ⟨units, printed, rfl, hunits, hinner, hheads⟩ := ih
    by_cases hword : '/' ∈ word
    · exact ⟨word :: units, printed, rfl, by simpa [hword] using hunits, hinner, hheads⟩
    · refine ⟨[], ⟨word, units⟩ :: printed, rfl, by simp, ?_, ?_⟩
      · simpa using ⟨hunits, hinner⟩
      · simpa [hword] using hheads

/-- **Gathering finds the fields of the words, and nothing else.** -/
theorem foldl_takeWord_eq_iff {words fields : List (List Char)} :
    (words.foldl takeWord []).reverse = fields ↔ AreFields words fields := by
  have hfold : ∀ printed : List Printed, (∀ p ∈ printed, ∀ unit ∈ p.units, '/' ∈ unit) →
      (∀ p ∈ printed.tail, '/' ∉ p.head) →
      ((printed.flatMap Printed.words).foldl takeWord []).reverse =
        printed.map Printed.field := by
    intro printed hunits hheads
    cases printed with
    | nil => rfl
    | cons p printed =>
      rw [List.flatMap_cons, List.foldl_append, Printed.words, List.foldl_cons, takeWord_nil,
        foldl_takeWord_units (hunits p (by simp)),
        foldl_takeWord_printed (fun q hq => hunits q (List.mem_cons_of_mem _ hq)) hheads]
      simp [Printed.field]
  constructor
  · rintro rfl
    cases words with
    | nil => exact ⟨[], rfl, by simp, by simp, rfl⟩
    | cons word words =>
      obtain ⟨units, printed, rfl, hunits, hinner, hheads⟩ := exists_blocks words
      have hall : ∀ p ∈ Printed.mk word units :: printed, ∀ unit ∈ p.units, '/' ∈ unit := by
        simpa using ⟨hunits, hinner⟩
      exact ⟨⟨word, units⟩ :: printed, rfl, hall, hheads, hfold _ hall hheads⟩
  · rintro ⟨printed, rfl, hunits, hheads, rfl⟩
    exact hfold printed hunits hheads

/-- What a line gathers are the fields of the words before its margin. -/
theorem gatherFields_eq_iff {rest : List Char} {fields : List (List Char)} :
    gatherFields rest = fields ↔ AreFields (Text.words (beforeMargin rest)) fields :=
  foldl_takeWord_eq_iff

/-- A line has a field exactly when it has a word before its margin. -/
theorem gatherFields_eq_nil_iff {rest : List Char} :
    gatherFields rest = [] ↔ Text.words (beforeMargin rest) = [] := by
  rw [gatherFields_eq_iff]
  constructor
  · rintro ⟨printed, hwords, -, -, hfields⟩
    rw [hwords, List.map_eq_nil_iff.mp hfields.symm]
    rfl
  · intro h
    exact ⟨[], h, by simp, by simp, rfl⟩

end BenchReport.ResultLine
