import BenchReport.Keyed
import BenchReport.Measurement.Basic

/-!
# Reports

What has been read from a source is a **report**: its measurements and footnotes in
the order of the lines, its metadata, and a **tally** that says what became of every
line.

Reports are put together. `BenchReport.Report.append` is the report of one source
read after another – lists are joined, later metadata wins, tallies are added – and a
report is nothing but the contributions of its lines put together in that way.
-/

namespace BenchReport

/-! ### Tallies -/

/-- What became of the lines of a source. -/
structure Tally where
  /-- The lines read. -/
  lines : Nat
  /-- The measurements found. -/
  records : Nat
  /-- The lines that are metadata or footnotes. -/
  metadata : Nat
  /-- The lines that have no form known here. -/
  noMatch : Nat
  /-- The lines of a known form that are damaged. -/
  malformed : Nat
  /-- The lines whose number of fields belongs to no layout. -/
  unknownShape : Nat
  deriving DecidableEq, Repr

namespace Tally

/-- Nothing read yet. -/
def zero : Tally := ⟨0, 0, 0, 0, 0, 0⟩

/-- What became of the lines of two sources. -/
def add (a b : Tally) : Tally :=
  ⟨a.lines + b.lines, a.records + b.records, a.metadata + b.metadata, a.noMatch + b.noMatch,
    a.malformed + b.malformed, a.unknownShape + b.unknownShape⟩

instance : Add Tally := ⟨add⟩

/-- What became of the lines of several sources. -/
def sum (tallies : List Tally) : Tally := tallies.foldl add zero

/-- The lines that came to nothing. -/
def skipped (t : Tally) : Nat := t.noMatch + t.malformed + t.unknownShape

end Tally

/-! ### Reports -/

/-- Facts about a run, each under its key. -/
abbrev Metadata := List (String × String)

/-- What has been read from a source. -/
structure Report where
  /-- The name of the source, if it has one. -/
  source : Option String
  /-- The measurements, in order. -/
  measurements : List Measurement
  /-- The metadata; of two entries with one key the later stands. -/
  metadata : Metadata
  /-- The footnotes, in order. -/
  footnotes : List String
  /-- What became of the lines. -/
  tally : Tally

namespace Report

/-- The report of no line at all. -/
def empty : Report := ⟨none, [], [], [], Tally.zero⟩

/-- Two reports read one after the other. -/
def append (a b : Report) : Report :=
  { source := a.source
    measurements := a.measurements ++ b.measurements
    metadata := Keyed.union a.metadata b.metadata
    footnotes := a.footnotes ++ b.footnotes
    tally := a.tally + b.tally }

instance : Append Report := ⟨append⟩

end Report

/-! ### Options -/

/-- Bounds on what is read. -/
structure Limits where
  /-- The greatest size of a file, in bytes. -/
  maxFileSize : Nat
  /-- The greatest length of a line, in bytes of its text. -/
  maxLineLength : Nat
  deriving DecidableEq, Repr

namespace Limits

/-- A gibibyte for a file and a mebibyte for a line. -/
def default : Limits := ⟨1024 * 1024 * 1024, 1024 * 1024⟩

/-- As much as a size of 64 bits can say. -/
def unlimited : Limits := ⟨UInt64.size - 1, UInt64.size - 1⟩

end Limits

/-- How a source is read. -/
structure ReadOptions where
  /-- The bounds that it is held to. -/
  limits : Limits
  /-- The beginning that is dropped from benchmark names. -/
  nameStart : Option String
  deriving DecidableEq, Repr

end BenchReport
