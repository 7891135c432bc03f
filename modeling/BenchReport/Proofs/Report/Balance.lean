import Mathlib
import BenchReport.Proofs.Report.Count
import BenchReport.Proofs.Report.Intake
import BenchReport.Proofs.Report.Samples

/-!
# Every line is counted once

A tally counts the lines as they come, and beside that it counts them by what becomes of them.
Nothing compares the two counts, so they agree only if every way of dealing with a line moves
one counter, by one.

* In a single-line report that is all there is to say. A line is one reading, and a reading of
  any kind moves one of five counters (`BenchReport.SingleLine.Reading.accounted_tally`).
* In a paired-line report the counter of measurements does not count lines: a block has two
  lines and any number of samples. So the lines of the blocks that were read are what the other
  counters leave over, and to say which blocks these are there must be another way to know them
  than the counters. It is `BenchReport.Paired.accepted`: the pairs of a header and samples, as
  they stand in the stream, of which both lines can be read. Every other pair is damaged as a
  whole (`BenchReport.Paired.sum_tally_pairs`), and no line outside of pairs is anything but
  blank or damaged (`BenchReport.Paired.exists_tally_ofLines`).

The readers add to a tally as they take line after line off their stream. What they come to is
the tally of the lines that the stream gives.
-/

namespace BenchReport

open Text (Supply)

/-- The lines that have been counted by what became of them, if each measurement is a line. -/
def Tally.accounted (t : Tally) : Nat :=
  t.records + t.metadata + t.noMatch + t.malformed + t.unknownShape

theorem Tally.accounted_sum (tallies : List Tally) :
    tallies.sum.accounted = (tallies.map Tally.accounted).sum :=
  count_sum rfl (fun a b => by simp only [accounted, add_def]; omega) tallies

/-! ### Single lines -/

namespace SingleLine

variable {options : ReadOptions}

/-- Whether a line states a fact: it is not too long, and its text is a key with a value. -/
def statesFact (options : ReadOptions) (line : Text.Line) : Bool :=
  line.length ≤ options.limits.maxLineLength && (readFact? (Text.trim line.text)).isSome

/-- **Whatever a line is, it is counted once** as a line and once as what it is. -/
theorem Reading.accounted_tally (r : Reading) : r.tally.lines = 1 ∧ r.tally.accounted = 1 := by
  cases r with
  | faulty fault => cases fault <;> exact ⟨rfl, rfl⟩
  | _ => exact ⟨rfl, rfl⟩

theorem isSome_fact?_read (line : Text.Line) :
    (read options line).fact?.isSome = statesFact options line := by
  simp only [read, statesFact]
  by_cases hlong : options.limits.maxLineLength < line.length
  · rw [if_pos hlong, decide_eq_false (Nat.not_le.mpr hlong)]
    rfl
  · rw [if_neg hlong, decide_eq_true (Nat.not_lt.mp hlong), Bool.true_and]
    split
    · rename_i hfact
      rw [hfact]
      rfl
    · rename_i hnone
      rw [hnone]
      split
      · rfl
      · split <;> rfl

theorem tally_ofLines (lines : List Text.Line) :
    (ofLines options lines).tally = (lines.map fun line => (read options line).tally).sum := by
  rw [ofLines, ofReadings, Tally.sum_eq, List.map_map]
  rfl

/-- **The lines of a report are counted once**, whichever way. -/
theorem accounted_ofLines (lines : List Text.Line) :
    (ofLines options lines).tally.lines = lines.length ∧
      (ofLines options lines).tally.accounted = lines.length := by
  have hone : ∀ count : Tally → Nat, (∀ r : Reading, count r.tally = 1) →
      (lines.map (count ∘ fun line => (read options line).tally)).sum = lines.length := by
    intro count hcount
    simp [Function.comp_def, hcount]
  rw [tally_ofLines, Tally.lines_sum, Tally.accounted_sum, List.map_map, List.map_map]
  exact ⟨hone _ fun r => r.accounted_tally.1, hone _ fun r => r.accounted_tally.2⟩

/-- A line is counted with the metadata if it is a footnote or states a fact. -/
theorem Reading.metadata_tally (r : Reading) :
    r.tally.metadata = r.footnote?.toList.length + r.fact?.toList.length := by
  cases r with
  | faulty fault => cases fault <;> rfl
  | _ => rfl

/-- **Metadata are footnotes and facts.** -/
theorem metadata_ofLines (lines : List Text.Line) :
    (ofLines options lines).tally.metadata =
      (ofLines options lines).footnotes.length + lines.countP (statesFact options) := by
  have hfacts : ((lines.map (read options)).filterMap Reading.fact?).length =
      lines.countP (statesFact options) := by
    rw [List.length_filterMap_eq_countP, List.countP_map]
    exact List.countP_congr fun line _ => by rw [Function.comp_apply, isSome_fact?_read]
  rw [← hfacts, ofLines, ofReadings, Tally.sum_eq, Tally.metadata_sum, List.map_map]
  simp only [List.filterMap_eq_flatMap_toList, List.length_flatMap]
  rw [← List.sum_map_add]
  exact congrArg List.sum (List.map_congr_left fun r _ => r.metadata_tally)

/-- **A single-line report counts every line once.** The lines that it counts are those that
the stream gives, and their number is the sum of the other counters. Of these, one is the
number of measurements that the report holds, and another that of its footnotes and of the
lines that state a fact. -/
theorem readStream_counts_every_line (options : ReadOptions) (bytes : List UInt8) :
    ∃ report lines, readStream options (.ofBytes bytes) = .ok report ∧
      (Supply.ofStream (.ofBytes bytes)).Gives lines none ∧
      report.tally.lines = lines.length ∧
      report.tally.lines = report.tally.records + report.tally.metadata + report.tally.noMatch +
        report.tally.malformed + report.tally.unknownShape ∧
      report.tally.records = report.measurements.length ∧
      report.tally.metadata = report.footnotes.length + lines.countP (statesFact options) := by
  refine ⟨ofLines options (Text.lines bytes), Text.lines bytes, ?_,
    Supply.gives_ofStream (.ofBytes bytes), ?_, ?_, records_ofLines options _, metadata_ofLines _⟩
  · rw [readStream_eq]
    rfl
  · exact (accounted_ofLines _).1
  · exact (accounted_ofLines _).1.trans (accounted_ofLines _).2.symm

/-- A line of every kind but one that is too long. -/
example : (ofLines ⟨.default, none⟩ (Text.lines (Text.encode
    "goos: linux\n\nX/A:_1-4 1.0m\nX/A:_1-4 1.0m 1.0m\nX/A-4 1.0m\nX/A:1-4 1.0m\n¹ n\n"))).tally =
    ⟨7, 1, 2, 2, 1, 1⟩ := by
  decide +kernel

end SingleLine

/-! ### Paired lines -/

namespace Paired

variable {options : ReadOptions} {pair : Text.Line × Text.Line}

/-- Whether a reading is that of a block. -/
def Reading.isBlock : Reading → Bool
  | block _ => true
  | _ => false

theorem isBlock_readingOf_iff : (readingOf pair).isBlock = true ↔ IsReadable pair := by
  constructor
  · intro h
    cases hr : readingOf pair with
    | block b => exact isReadable_of_readingOf_eq_block hr
    | _ => rw [hr] at h; cases h
  · intro h
    obtain ⟨_, _, _, hblock⟩ := readingOf_eq_block_of_isReadable h
    rw [hblock]
    rfl

instance (pair : Text.Line × Text.Line) : Decidable (IsReadable pair) :=
  decidable_of_iff _ isBlock_readingOf_iff

/-- **The pairs that are accepted**: headers with their samples that can be read. -/
def accepted (options : ReadOptions) (lines : List Text.Line) : List (Text.Line × Text.Line) :=
  (pairs options lines).filter fun pair => IsReadable pair

/-- The pairs that are not. -/
def refused (options : ReadOptions) (lines : List Text.Line) : List (Text.Line × Text.Line) :=
  (pairs options lines).filter fun pair => ¬IsReadable pair

/-! ### What is wrong with a pair -/

theorem fault_of_readAll {α : Type} {read : List Char → Except Text.IntegerFault α}
    {texts : List (List Char)} {fault : LineFault} (h : readAll read texts = .error fault) :
    ∃ token cause, fault = .malformedNumber token cause := by
  induction texts with
  | nil => cases h
  | cons text texts ih =>
    rw [readAll] at h
    split at h
    · exact ⟨_, _, (Except.error.inj h).symm⟩
    · cases hrest : readAll read texts with
      | ok values => rw [hrest] at h; cases h
      | error fault' =>
        rw [hrest] at h
        obtain rfl : fault' = fault := Except.error.inj h
        exact ih hrest

/-- **A pair is refused for its numbers only**, and never for a shape. -/
theorem fault_of_readingOf {line : Text.Line} {fault : LineFault}
    (h : readingOf pair = .faulty line fault) :
    ∃ token cause, fault = .malformedNumber token cause := by
  rw [readingOf, readPair] at h
  split at h
  · rename_i hheader
    obtain ⟨-, rfl⟩ := Reading.faulty.inj h
    exact fault_of_readAll hheader
  · split at h
    · rename_i hsamples
      obtain ⟨-, rfl⟩ := Reading.faulty.inj h
      exact fault_of_readAll hsamples
    · cases h
  · cases h

/-! ### What pairs add up to -/

theorem tally_readingOf_of_isReadable (h : IsReadable pair) :
    (readingOf pair).tally =
      { Tally.zero with lines := 2, records := (runs pair.2.text).length } := by
  obtain ⟨_, _, _, hblock⟩ := readingOf_eq_block_of_isReadable h
  rw [hblock, Reading.tally, List.length_map]

theorem readingOf_of_refused (h : ¬IsReadable pair) (name : String) :
    (readingOf pair).measurements name = [] ∧
      (readingOf pair).tally = { Tally.zero with lines := 2, malformed := 2 } :=
  readPair_of_ne_block (fun _ hb => h (isReadable_of_readingOf_eq_block hb)) name

/-- **Pairs are counted as two lines each**: an accepted one with its samples, any other as
damaged. -/
theorem sum_tally_pairs (ps : List (Text.Line × Text.Line)) :
    (ps.map fun pair => (readingOf pair).tally).sum =
      ⟨2 * ps.length,
        ((ps.filter fun pair => IsReadable pair).map fun pair => (runs pair.2.text).length).sum,
        0, 0, 2 * (ps.filter fun pair => ¬IsReadable pair).length, 0⟩ := by
  induction ps with
  | nil => rfl
  | cons pair ps ih =>
    rw [List.map_cons, List.sum_cons, ih]
    by_cases h : IsReadable pair
    · rw [tally_readingOf_of_isReadable h, List.filter_cons_of_pos (by simpa using h),
        List.filter_cons_of_neg (by simpa using h), Tally.add_def]
      simp only [Tally.zero, List.length_cons, List.map_cons, List.sum_cons, Tally.mk.injEq,
        Nat.zero_add, and_true]
      omega
    · rw [(readingOf_of_refused h "").2, List.filter_cons_of_neg (by simpa using h),
        List.filter_cons_of_pos (by simpa using h), Tally.add_def]
      simp only [Tally.zero, List.length_cons, Tally.mk.injEq, Nat.zero_add, true_and, and_true]
      omega

/-- **The tally of a report**, with every counter. -/
theorem exists_tally_eq (name : String) (lines : List Text.Line) :
    ∃ alone, lines.length = lines.countP (fun line => isBlankLine line.text) + alone +
        2 * (accepted options lines).length + 2 * (refused options lines).length ∧
      (ofLines options name lines).tally =
        ⟨lines.length,
          ((accepted options lines).map fun pair => (runs pair.2.text).length).sum, 0,
          lines.countP fun line => isBlankLine line.text,
          alone + 2 * (refused options lines).length, 0⟩ := by
  obtain ⟨alone, hprinted, htally⟩ := @exists_tally_ofLines options name lines
  have hlines := lines.length_eq_length_filter_add fun line => isBlankLine line.text
  have hpairs := (pairs options lines).length_eq_length_filter_add fun pair => IsReadable pair
  have hrefused : (refused options lines).length =
      ((pairs options lines).filter fun pair => !decide (IsReadable pair)).length := by
    simp only [refused, decide_not]
  rw [← List.countP_eq_length_filter] at hlines
  rw [printed] at hprinted
  have hcut : lines.length = lines.countP (fun line => isBlankLine line.text) + alone +
      2 * (accepted options lines).length + 2 * (refused options lines).length := by
    rw [accepted]
    omega
  refine ⟨alone, hcut, ?_⟩
  rw [htally, sum_tally_pairs, Tally.nsmul_def, Tally.nsmul_def, Tally.add_def, Tally.add_def]
  simp only [Tally.unmatchedLine, Tally.damagedLine, Tally.zero, Tally.mk.injEq, accepted, refused]
  simp only [accepted, refused] at hcut
  omega

/-- The measurements of a report are those of the accepted pairs. -/
theorem measurements_eq_accepted (name : String) (lines : List Text.Line) :
    (ofLines options name lines).measurements =
      (accepted options lines).flatMap fun pair => (readingOf pair).measurements name := by
  rw [measurements_ofLines, accepted, flatMap_filter_eq]
  intro pair _ h
  exact (readingOf_of_refused (of_decide_eq_false h) name).1

/-- **A paired-line report counts every line once.** The lines that it counts are those that
the stream gives, and they are the blank lines, the damaged lines, and two for every pair that
is accepted: no line is counted as metadata or as of an unknown shape, and no fault of a pair
is one of shape. The measurements are those of the accepted pairs, and there are as many of
them, in the report and by its tally, as there are runs of digits in the samples of these
pairs. -/
theorem readStream_counts_pairs_and_lines (options : ReadOptions) (name : String)
    (bytes : List UInt8) :
    ∃ report lines, readStream options name (.ofBytes bytes) = .ok report ∧
      (Supply.ofStream (.ofBytes bytes)).Gives lines none ∧
      report.tally.lines = lines.length ∧
      report.tally.lines =
        report.tally.noMatch + report.tally.malformed + 2 * (accepted options lines).length ∧
      report.tally.noMatch = lines.countP (fun line => isBlankLine line.text) ∧
      report.tally.metadata = 0 ∧ report.tally.unknownShape = 0 ∧
      (∀ pair ∈ pairs options lines, ∀ line fault, readingOf pair = .faulty line fault →
        ∃ token cause, fault = .malformedNumber token cause) ∧
      report.measurements =
        (accepted options lines).flatMap (fun pair => (readingOf pair).measurements name) ∧
      report.tally.records = report.measurements.length ∧
      report.measurements.length =
        ((accepted options lines).map fun pair => (runs pair.2.text).length).sum := by
  have hrecords := records_ofLines options name (Text.lines bytes)
  obtain ⟨alone, hcut, htally⟩ := @exists_tally_eq options name (Text.lines bytes)
  refine ⟨ofLines options name (Text.lines bytes), Text.lines bytes, ?_,
    Supply.gives_ofStream (.ofBytes bytes), ?_, ?_, ?_, ?_, ?_,
    fun pair _ line fault h => fault_of_readingOf h, measurements_eq_accepted name _, hrecords, ?_⟩
  · rw [readStream_eq]
    rfl
  · rw [htally]
  · rw [htally]
    dsimp only
    omega
  · rw [htally]
  · rw [htally]
  · rw [htally]
  · rw [← hrecords, htally]

/-- Samples without a header, a header without samples in front of a blank line, and a block. -/
example : (ofLines ⟨.default, none⟩ "L" (Text.lines (Text.encode
    "[1]\nClients: 1\n\nClients: 4, MergeRate: 5, StreamRate: 6\n[7, 8]\n"))).tally =
    ⟨5, 2, 0, 1, 2, 0⟩ := by
  decide +kernel

end Paired

end BenchReport
