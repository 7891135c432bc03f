import Mathlib
import BenchReport.Proofs.Report.Intake
import BenchReport.Source

/-!
# What a source is read as

A source is loaded line by line, and on the way its path may lead nowhere, its file may be too
large, and its stream may fail between any two bytes. Of these the last is the one that comes when
a part of a report is there already, but nothing of that part is kept: a source whose stream fails
is a file that cannot be used (`BenchReport.Source.load_of_failure`).

So a source has a report if and only if there is a file which is not too large and can be read to
the end, and then it is the report of all lines of the file
(`BenchReport.Source.load_eq_ok_iff`). What is proved of the reports of
lines is from there on proved of the reports of sources.
-/

namespace BenchReport.Source

variable {view : FileView} {options : ReadOptions} {s : Source}

/-- The report of lines that are read in the form of a source. -/
def reportOf (options : ReadOptions) (s : Source) (lines : List Text.Line) : Report :=
  match s.format with
  | .singleLine => SingleLine.ofLines options lines
  | .pairedLine => Paired.ofLines options s.pairedName lines

/-- **A stream is read in full or not at all**, in whichever form. -/
theorem read_eq (options : ReadOptions) (s : Source) (stream : Text.Stream) :
    s.read options stream = unlessFailed stream.failure (s.reportOf options stream.lines) := by
  rw [read, reportOf]
  cases s.format with
  | singleLine =>
    rw [SingleLine.readStream_eq, SingleLine.ofStream]
    cases stream.failure <;> rfl
  | pairedLine =>
    rw [Paired.readStream_eq, Paired.ofStream]
    cases stream.failure <;> rfl

/-- There is a stream if the path leads to a file that does not state that it is too large. -/
theorem stream_eq_ok_iff {content : Text.Stream} :
    s.stream view options = .ok content ↔
      ∃ size ≤ options.limits.maxFileSize, view.look s.path = .ok (.file size content) := by
  rw [stream]
  cases view.look s.path with
  | error fault => simp
  | ok entry =>
    cases entry with
    | folder => simp
    | file size content' =>
      dsimp only
      split_ifs with hsize
      · refine iff_of_false (by simp) ?_
        rintro ⟨_, hle, hfile⟩
        obtain ⟨rfl, -⟩ := FileEntry.file.inj (Except.ok.inj hfile)
        exact absurd hle (Nat.not_le.mpr hsize)
      · simp [Nat.not_lt.mp hsize]

/-- **A source whose stream fails is a file that cannot be used**, whatever was delivered before:
there is the reason that the stream gives and no report. -/
theorem load_of_failure {content : Text.Stream} {fault : StreamFault}
    (hstream : s.stream view options = .ok content) (hfault : content.failure = some fault) :
    s.load view options = .error (.file s.path (.access (.other fault.text))) := by
  simp only [load, hstream, read_eq, hfault, unlessFailed]
  rfl

theorem load_of_bytes {bytes : List UInt8}
    (hstream : s.stream view options = .ok (.ofBytes bytes)) :
    s.load view options =
      .ok { s.reportOf options (Text.lines bytes) with source := some s.name } := by
  simp only [load, hstream, read_eq]
  rfl

/-- **A source has a report if its path leads to a file that is not too large and can be read to
the end**, and it is the report of all lines. -/
theorem load_eq_ok_iff {report : Report} :
    s.load view options = .ok report ↔
      ∃ bytes, (∃ size ≤ options.limits.maxFileSize,
          view.look s.path = .ok (.file size (.ofBytes bytes))) ∧
        report = { s.reportOf options (Text.lines bytes) with source := some s.name } := by
  simp only [← stream_eq_ok_iff]
  constructor
  · intro h
    cases hstream : s.stream view options with
    | error fault => simp [load, hstream] at h
    | ok content =>
      obtain ⟨bytes, failure⟩ := content
      cases failure with
      | some fault => simp [load_of_failure hstream rfl] at h
      | none =>
        rw [load_of_bytes hstream] at h
        exact ⟨bytes, rfl, (Except.ok.inj h).symm⟩
  · rintro ⟨bytes, hstream, rfl⟩
    exact load_of_bytes hstream

end BenchReport.Source
