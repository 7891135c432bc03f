import Mathlib
import BenchReport.Proofs.Keyed
import BenchReport.Proofs.Report.Tally
import BenchReport.Proofs.Text.Line
import BenchReport.Report.SingleLine

/-!
# A single-line report is read line by line

Nothing passes from one line of a single-line report to another. A line is read by its
text alone, without a look at its number (`BenchReport.SingleLine.read_later`), and a
report is the contributions of its lines put together, so it can be cut between any two
of them (`BenchReport.SingleLine.ofLines_append`). The bytes of a stream are cut into
lines before anything is read, hence the same holds of two streams, whatever bytes are
in them (`BenchReport.SingleLine.ofStream_ofBytes_append`).

Only the metadata need an argument: they are kept sorted, so the entries of the second
part are not found behind those of the first but among them.
-/

namespace BenchReport.SingleLine

variable {options : ReadOptions}

/-- **A line is read without a look at its number.** -/
theorem read_later (n : Nat) (line : Text.Line) :
    read options (line.later n) = read options line := rfl

/-- **Reports are cut between any two lines.** -/
theorem ofReadings_append (a b : List Reading) :
    ofReadings (a ++ b) = ofReadings a ++ ofReadings b := by
  have hmetadata : Keyed.union [] ((a ++ b).filterMap Reading.fact?) =
      Keyed.union (ofReadings a).metadata (ofReadings b).metadata := by
    rw [List.filterMap_append]
    exact Keyed.union_append_eq _ _
  have htally : Tally.sum ((a ++ b).map Reading.tally) =
      (ofReadings a).tally + (ofReadings b).tally := by
    rw [Tally.sum_eq, List.map_append, List.sum_append, ← Tally.sum_eq, ← Tally.sum_eq]
    rfl
  rw [ofReadings, hmetadata, htally, List.filterMap_append, List.filterMap_append]
  rfl

theorem ofLines_append (a b : List Text.Line) :
    ofLines options (a ++ b) = ofLines options a ++ ofLines options b := by
  rw [ofLines, List.map_append, ofReadings_append]
  rfl

/-- Lines that are numbered anew give the same report. -/
theorem ofLines_map_later (n : Nat) (lines : List Text.Line) :
    ofLines options (lines.map (Text.Line.later n)) = ofLines options lines := by
  rw [ofLines, List.map_map]
  exact congrArg ofReadings (List.map_congr_left fun line _ => read_later n line)

/-- The metadata of a report are a keyed list. -/
theorem sorted_metadata_ofLines (lines : List Text.Line) :
    Keyed.Sorted (ofLines options lines).metadata :=
  Keyed.sorted_union List.Pairwise.nil _

/-- **Two streams read one after the other.** Let the first end in a newline. Then the
report of both is the report of the first and the report of the second, put together:
what is found on the lines of one stream does not depend on the bytes of the other, and
of two facts with one key that of the second stream stands. -/
theorem ofStream_ofBytes_append (options : ReadOptions) {a b : List UInt8}
    (ha : a = [] ∨ a.getLast? = some Text.newline) :
    ∃ ra rb r, ofStream options (.ofBytes a) = .ok ra ∧ ofStream options (.ofBytes b) = .ok rb ∧
      ofStream options (.ofBytes (a ++ b)) = .ok r ∧ r = ra ++ rb ∧
      r.measurements = ra.measurements ++ rb.measurements ∧
      r.footnotes = ra.footnotes ++ rb.footnotes ∧
      (∀ key, Keyed.get? key r.metadata =
        (Keyed.get? key rb.metadata).or (Keyed.get? key ra.metadata)) ∧
      r.tally = ra.tally + rb.tally := by
  have hlines : (Text.Stream.ofBytes (a ++ b)).lines =
      Text.lines a ++ (Text.lines b).map (Text.Line.later (Text.lineBytes a).length) :=
    Text.lines_append ha b
  have hboth : ofStream options (.ofBytes (a ++ b)) =
      .ok (ofLines options (Text.lines a) ++ ofLines options (Text.lines b)) := by
    rw [ofStream, hlines, ofLines_append, ofLines_map_later]
    rfl
  exact ⟨_, _, _, rfl, rfl, hboth, rfl, rfl, rfl,
    Keyed.get?_union (sorted_metadata_ofLines _) (sorted_metadata_ofLines _), rfl⟩

/-- A stream that ends in a damaged line, and one that states the same fact otherwise. -/
theorem damaged_ofStream_ofBytes_append :
    let a := Text.encode "goos: linux\nX/A:_1-4 1.0m\n\r\nX/A:_x-4 1.0m" ++ [0xff, 10]
    let b := Text.encode "X/A:_2-4 3.0m\r\ngoos: plan9\n¹ note"
    a.getLast? = some Text.newline ∧
      ∃ ra rb r, ofStream ⟨.default, none⟩ (.ofBytes a) = .ok ra ∧
        ofStream ⟨.default, none⟩ (.ofBytes b) = .ok rb ∧
        ofStream ⟨.default, none⟩ (.ofBytes (a ++ b)) = .ok r ∧ r = ra ++ rb ∧
        r.measurements = ra.measurements ++ rb.measurements ∧
        r.footnotes = ra.footnotes ++ rb.footnotes ∧
        (∀ key, Keyed.get? key r.metadata =
          (Keyed.get? key rb.metadata).or (Keyed.get? key ra.metadata)) ∧
        r.tally = ra.tally + rb.tally := by
  intro a b
  have ha : a.getLast? = some Text.newline := by decide +kernel
  exact ⟨ha, ofStream_ofBytes_append ⟨.default, none⟩ (.inr ha)⟩

end BenchReport.SingleLine
