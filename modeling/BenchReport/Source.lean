import BenchReport.Files.View
import BenchReport.Rate
import BenchReport.Report.Intake

/-!
# Sources

A **source** is a report file with a name: where it is, in which of the two forms it
is written, and in which unit its times between arrivals are.

Loading a source yields its report or the reason why the file cannot be used, and
never a part of a report. A damaged file is no such reason – damage is counted line by
line – so what is left are the reasons of the file system, a path to something that is
no file, and a file that is too large. The system may give its reason late, behind some of
the lines: a file whose reading fails is as good as one that cannot be opened.
-/

namespace BenchReport

/-- The form of a report. -/
inductive ReportFormat where
  /-- One result on each line. -/
  | singleLine
  /-- A header line and a line of samples. -/
  | pairedLine
  deriving DecidableEq, Repr

namespace ReportFormat

/-- The name of a form. -/
def name : ReportFormat → String
  | singleLine => "single-line"
  | pairedLine => "paired-line"

/-- The form of a name. -/
def ofName? (name : String) : Option ReportFormat :=
  [singleLine, pairedLine].find? fun format => format.name = name

end ReportFormat

/-- A report file with a name. -/
structure Source where
  /-- Its name. -/
  name : String
  /-- Where it is. -/
  path : String
  /-- The form in which it is written. -/
  format : ReportFormat
  /-- The unit of its times between arrivals. -/
  arrivalUnit : ArrivalUnit
  /-- The benchmark that its samples belong to, if it is not named like the source. -/
  benchmarkName : Option String
  deriving DecidableEq, Repr

/-- Why a file is not read. -/
inductive FileFault where
  /-- Its path cannot be used. -/
  | access (fault : AccessFault)
  /-- There is something else than a file at its path. -/
  | notRegular
  /-- It is larger than allowed. -/
  | tooLarge (actual maximum : Nat)
  deriving DecidableEq, Repr

/-- The wording of a file's fault. -/
def FileFault.message : FileFault → String
  | access fault => fault.message
  | notRegular => "not a regular file"
  | tooLarge actual maximum =>
    "file is too large (" ++ Nat.repr actual ++ " bytes, maximum " ++ Nat.repr maximum ++
      " bytes)"

/-- Why a source cannot be read. -/
inductive SourceFault where
  /-- Its file is not read. -/
  | file (path : String) (cause : FileFault)
  /-- The reader has passed a line fault on. -/
  | line (fault : LineFault)
  deriving DecidableEq, Repr

namespace SourceFault

/-- The wording of a source's fault. -/
def message : SourceFault → String
  | file path cause => "Cannot access '" ++ path ++ "': " ++ cause.message
  | line fault => fault.message

/-- The fault of a source whose reader has come to no report. A stream that fails is a file
that cannot be used, for the reason that the stream gives. -/
def ofRead (path : String) : ReadFault → SourceFault
  | .stream fault => file path (.access (.other fault.text))
  | .line fault => line fault

end SourceFault

namespace Source

/-- The source of a single-line report. -/
def ofPath (name path : String) : Source := ⟨name, path, .singleLine, .nanoseconds, none⟩

/-- The benchmark that samples of the source belong to. -/
def pairedName (s : Source) : String := s.benchmarkName.getD s.name

/-- The stream of a source's file, if it is a file and does not state that it is too large. -/
def stream (view : FileView) (options : ReadOptions) (s : Source) :
    Except SourceFault Text.Stream :=
  match view.look s.path with
  | .error fault => .error (.file s.path (.access fault))
  | .ok .folder => .error (.file s.path .notRegular)
  | .ok (.file size content) =>
    if options.limits.maxFileSize < size then
      .error (.file s.path (.tooLarge size options.limits.maxFileSize))
    else .ok content

/-- Reads a stream in the form of the source. -/
def read (options : ReadOptions) (s : Source) (stream : Text.Stream) : Except ReadFault Report :=
  match s.format with
  | .singleLine => SingleLine.readStream options stream
  | .pairedLine => Paired.readStream options s.pairedName stream

/-- The report of a source. -/
def load (view : FileView) (options : ReadOptions) (s : Source) : Except SourceFault Report :=
  match s.stream view options with
  | .error fault => .error fault
  | .ok stream =>
    match s.read options stream with
    | .error fault => .error (.ofRead s.path fault)
    | .ok report => .ok { report with source := some s.name }

/-! ### What is told -/

/-- What is told about the lines of a source. -/
def lineEvents (options : ReadOptions) (s : Source) (stream : Text.Stream) : List Event :=
  match s.format with
  | .singleLine => SingleLine.events options stream.lines
  | .pairedLine => Paired.events options stream

/-- What is told about the report of a source. -/
def readEvent (s : Source) (tally : Tally) : Event :=
  .info "parsed source"
    [("source", .text s.name), ("records", .count tally.records),
      ("skipped", .count tally.skipped)]

/-- What is told while a source is loaded by itself: first about its lines, then about its
report if there is one. -/
def loadEvents (view : FileView) (options : ReadOptions) (s : Source) : List Event :=
  match s.stream view options with
  | .error _ => []
  | .ok stream =>
    s.lineEvents options stream ++
      match s.read options stream with
      | .error _ => []
      | .ok report => [s.readEvent report.tally]

/-- What is told while a source is loaded as one of several: that it failed, too. -/
def loadEventsAmong (view : FileView) (options : ReadOptions) (s : Source) : List Event :=
  s.loadEvents view options ++
    match s.load view options with
    | .error fault =>
      [.warn "failed to load source" [("source", .text s.name), ("error", .text fault.message)]]
    | .ok _ => []

end Source

end BenchReport
