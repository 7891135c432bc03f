import BenchReport.Report.Paired
import BenchReport.Report.SingleLine
import BenchReport.Text.Supply

/-!
# Reading off a stream

`BenchReport.SingleLine.ofStream` and `BenchReport.Paired.ofStream` say what a stream
comes to once its lines are known. The readers here work as a program has to: they ask
a `BenchReport.Text.Supply` for one line after the other, they add to the report and to
its tally as they go, and wherever they ask they may be refused.

There are two ways out without a report (`BenchReport.ReadFault`). The stream fails, or
a line fault is passed on and not counted. The second way stands open in one place: the
measurements of a block are made by `BenchReport.Measurement.ofParameters`, which refuses
parameters with a repeated key (`BenchReport.Paired.Block.record`).

The reader of paired lines holds back a line that is no line of samples, in order to look
at it once more as a header.
-/

namespace BenchReport

/-- Why there is no report. -/
inductive ReadFault where
  /-- The stream failed. -/
  | stream (fault : StreamFault)
  /-- A line fault was not counted but passed on. -/
  | line (fault : LineFault)
  deriving DecidableEq, Repr

/-! ### Single lines -/

namespace SingleLine

/-- Takes in the lines of a supply; `readings` is what the lines before them have turned
out to be, last first. -/
def takeIn (options : ReadOptions) (supply : Text.Supply) (readings : List Reading) :
    Except ReadFault Report :=
  match _ : supply.next with
  | .error fault => .error (.stream fault)
  | .ok none => .ok (ofReadings readings.reverse)
  | .ok (some (line, rest)) => takeIn options rest (read options line :: readings)
termination_by supply.size
decreasing_by exact Text.Supply.size_of_next ‹_›

/-- Reads the report of a stream, line by line. -/
def readStream (options : ReadOptions) (stream : Text.Stream) : Except ReadFault Report :=
  takeIn options (.ofStream stream) []

end SingleLine

/-! ### Paired lines -/

namespace Paired

/-- The measurements of a block, each checked for repeated keys. -/
def Block.record (name : String) (b : Block) : Except LineFault (List Measurement) :=
  b.samples.mapM fun sample =>
    Measurement.ofParameters name b.parameters (.sample (millis sample))

/-- A report with this many more damaged lines in its tally. -/
def withMalformed (n : Nat) (report : Report) : Report :=
  { report with tally := { report.tally with malformed := report.tally.malformed + n } }

/-- A report with more measurements. -/
def withMeasurements (found : List Measurement) (report : Report) : Report :=
  { report with
    measurements := report.measurements ++ found
    tally := { report.tally with records := report.tally.records + found.length } }

/-- A report with one more line in its tally, a blank one or not. -/
def withLine (line : Text.Line) (report : Report) : Report :=
  let blank := if isBlankLine line.text then 1 else 0
  { report with
    tally := { report.tally with
      lines := report.tally.lines + 1
      noMatch := report.tally.noMatch + blank } }

/-- Takes the next line that is not blank, counting every line that is taken. -/
def nextPrinted (supply : Text.Supply) (report : Report) :
    Except StreamFault (Report × Option (Text.Line × Text.Supply)) :=
  match _ : supply.next with
  | .error fault => .error fault
  | .ok none => .ok (report, none)
  | .ok (some (line, rest)) =>
    if isBlankLine line.text then nextPrinted rest (withLine line report)
    else .ok (withLine line report, some (line, rest))
termination_by supply.size
decreasing_by exact Text.Supply.size_of_next ‹_›

/-- The line that was held back, or else the next one. -/
def nextHeader (held : Option Text.Line) (supply : Text.Supply) (report : Report) :
    Except StreamFault (Report × Option (Text.Line × Text.Supply)) :=
  match held with
  | some line => .ok (report, some (line, supply))
  | none => nextPrinted supply report

theorem size_of_nextPrinted {supply rest : Text.Supply} {report report' : Report}
    {line : Text.Line} (h : nextPrinted supply report = .ok (report', some (line, rest))) :
    rest.size < supply.size := by
  fun_induction nextPrinted supply report with
  | case1 => cases h
  | case2 => cases h
  | case3 supply report blank rest' hnext hblank ih =>
    exact Nat.lt_trans (ih h) (Text.Supply.size_of_next hnext)
  | case4 supply report printed rest' hnext hblank =>
    cases h
    exact Text.Supply.size_of_next hnext

theorem size_of_nextHeader {held : Option Text.Line} {supply rest : Text.Supply}
    {report report' : Report} {line : Text.Line}
    (h : nextHeader held supply report = .ok (report', some (line, rest))) :
    2 * rest.size < 2 * supply.size + held.toList.length := by
  cases held with
  | none =>
    have := size_of_nextPrinted h
    simp only [Option.toList_none, List.length_nil]
    omega
  | some held =>
    cases h
    simp

/-- How a round of the reader ends. -/
inductive Round where
  /-- There is no further line, and the report is complete. -/
  | done (report : Report)
  /-- The reader goes on, with a line that it may have held back. -/
  | again (held : Option Text.Line) (supply : Text.Supply) (report : Report)

/-- Adds a header and its samples to a report. -/
def takePair (name : String) (header samples : Text.Line) (report : Report) :
    Except LineFault Report :=
  match readPair header samples with
  | .block b =>
    match b.record name with
    | .error fault => .error fault
    | .ok found => .ok (withMeasurements found report)
  | _ => .ok (withMalformed 2 report)

/-- A round of the reader: it looks for a header and then for the samples of that header. -/
def round (options : ReadOptions) (name : String) (held : Option Text.Line)
    (supply : Text.Supply) (report : Report) : Except ReadFault Round :=
  match nextHeader held supply report with
  | .error fault => .error (.stream fault)
  | .ok (report, none) => .ok (.done report)
  | .ok (report, some (header, supply)) =>
    if options.limits.maxLineLength < header.length || isSampleLine header.text then
      .ok (.again none supply (withMalformed 1 report))
    else
      match nextPrinted supply report with
      | .error fault => .error (.stream fault)
      | .ok (report, none) => .ok (.done (withMalformed 1 report))
      | .ok (report, some (samples, supply)) =>
        if isSampleLine samples.text then
          match takePair name header samples report with
          | .error fault => .error (.line fault)
          | .ok report => .ok (.again none supply report)
        else .ok (.again (some samples) supply (withMalformed 1 report))

/-- **Every round leaves fewer bytes**, or puts a line that was held back behind it. -/
theorem size_of_round {options : ReadOptions} {name : String} {held held' : Option Text.Line}
    {supply rest : Text.Supply} {report report' : Report}
    (h : round options name held supply report = .ok (.again held' rest report')) :
    2 * rest.size + held'.toList.length < 2 * supply.size + held.toList.length := by
  rw [round] at h
  split at h
  · cases h
  · cases h
  · rename_i counted header behind hheader
    have hsize := size_of_nextHeader hheader
    split at h
    · cases h
      simpa using hsize
    · split at h
      · cases h
      · cases h
      · rename_i counted' samples behind' hsamples
        have hsize' := size_of_nextPrinted hsamples
        split at h
        · split at h
          · cases h
          · cases h
            simp only [Option.toList_none, List.length_nil]
            omega
        · cases h
          simp only [Option.toList_some, List.length_singleton]
          omega

/-- Takes in the lines of a supply, behind a line that may be held back and behind what has
been read already. -/
def takeIn (options : ReadOptions) (name : String) (held : Option Text.Line)
    (supply : Text.Supply) (report : Report) : Except ReadFault Report :=
  match _ : round options name held supply report with
  | .error fault => .error fault
  | .ok (.done report) => .ok report
  | .ok (.again held supply report) => takeIn options name held supply report
termination_by 2 * supply.size + held.toList.length
decreasing_by exact size_of_round ‹_›

/-- Reads the report of a stream, a header and its samples at a time. -/
def readStream (options : ReadOptions) (name : String) (stream : Text.Stream) :
    Except ReadFault Report :=
  takeIn options name none (.ofStream stream) .empty

end Paired

end BenchReport
