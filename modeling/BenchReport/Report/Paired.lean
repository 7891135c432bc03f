import BenchReport.Event
import BenchReport.Report.Basic
import BenchReport.Text.Blank
import BenchReport.Text.DecimalDigit
import BenchReport.Text.Line

/-!
# Paired-line reports

A latency report comes in **blocks** of two lines: a header with three integers –
clients, merge rate, stream rate – and a line of samples in nanoseconds, usually in
square brackets. Blank lines may stand anywhere.

The two kinds of line are told apart by one test, `BenchReport.Paired.isSampleLine`,
and this is what keeps the reader in step: a header that is not followed by samples
is given up on its own, and the line that follows it is looked at afresh, as a header.
So the reader needs to remember a single thing, the header that waits for its samples
(`BenchReport.Paired.Progress`), and reading is a left fold over the lines.

A block is read as a whole or not at all. If its header does not hold exactly three
integers, or if any of its integers is out of range, both of its lines are malformed.

`BenchReport.Paired.Block.render` is the way back.
-/

namespace BenchReport.Paired

/-! ### Kinds of lines -/

/-- A line of samples: one that opens a bracket, or that holds nothing but digits,
commas and blanks. -/
def isSampleLine (text : List Char) : Bool :=
  match Text.trim text with
  | '[' :: _ => true
  | trimmed => trimmed.all fun c => c.isDigit || Text.isBlank c || c = ','

/-- A line without a character that prints. -/
def isBlankLine (text : List Char) : Bool := (Text.trim text).isEmpty

/-! ### Integers in a line -/

/-- A scan in progress, read from the right: the digits of the integer that the next
character may still extend, and the integers to the right of it. -/
structure Scan where
  /-- The digits of the open integer. -/
  current : List Char
  /-- The integers to its right. -/
  closed : List (List Char)

/-- All integers of a scan: an open one counts once it has a digit. -/
def Scan.integers (scan : Scan) : List (List Char) :=
  if scan.current.isEmpty then scan.closed else scan.current :: scan.closed

/-- A digit extends the open integer, any other character closes it; where integers
have signs, a hyphen right before the digits is one. -/
def Scan.extend (signed : Bool) (c : Char) (scan : Scan) : Scan :=
  if Text.isDecimalDigit c then ⟨c :: scan.current, scan.closed⟩
  else if signed && c = '-' && !scan.current.isEmpty then
    ⟨[], ('-' :: scan.current) :: scan.closed⟩
  else ⟨[], scan.integers⟩

/-- The texts of the integers in a line, in order: the maximal runs of digits of any
script. -/
def integers (signed : Bool) (text : List Char) : List (List Char) :=
  (text.foldr (Scan.extend signed) ⟨[], []⟩).integers

/-- Reads every text of a list as a number, up to the first that is none. -/
def readAll {α : Type} (read : List Char → Except Text.IntegerFault α) :
    List (List Char) → Except LineFault (List α)
  | [] => .ok []
  | text :: rest =>
    match read text with
    | .error fault => .error (.malformedNumber (String.ofList text) (.integer fault))
    | .ok a => (readAll read rest).map (a :: ·)

/-! ### Blocks -/

/-- A header and its samples. -/
structure Block where
  /-- How many clients ran. -/
  clients : Int64
  /-- How often they merged. -/
  mergeRate : Int64
  /-- How often an item arrived. -/
  streamRate : Int64
  /-- The latencies met, in nanoseconds. -/
  samples : List UInt64
  deriving DecidableEq, Repr

namespace Block

/-- The parameters that a header gives to its samples. -/
def parameters (b : Block) : List Parameter :=
  [⟨"Clients", b.clients⟩, ⟨"MergeRate", b.mergeRate⟩, ⟨"StreamRate", b.streamRate⟩]

theorem nodup_keys (b : Block) : (b.parameters.map Parameter.key).Nodup := by
  simp [parameters]

/-- Nanoseconds in milliseconds. -/
def millis (nanoseconds : UInt64) : Float := nanoseconds.toFloat / 1000000

/-- One measurement for each sample, in order. -/
def measurements (name : String) (b : Block) : List Measurement :=
  b.samples.map fun sample => ⟨name, b.parameters, .sample (millis sample), b.nodup_keys⟩

/-- The header of a block as it is printed. -/
def renderHeader (b : Block) : String :=
  String.intercalate ", " (b.parameters.map (Parameter.spell ": "))

/-- The samples of a block as they are printed. -/
def renderSamples (b : Block) : String :=
  "[" ++ String.intercalate " " (b.samples.map Text.showUnsigned) ++ "]"

/-- The two lines of a block. -/
def render (b : Block) : List String := [b.renderHeader, b.renderSamples]

end Block

/-! ### Reading -/

/-- What a line, or a header with its samples, turns out to be. -/
inductive Reading where
  /-- A blank line. -/
  | blank
  /-- A line that cannot be the header that is due. -/
  | stray (line : Text.Line)
  /-- A header without samples. -/
  | dangling (header : Text.Line)
  /-- A header that does not hold three integers, with its samples. -/
  | miscounted (header : Text.Line) (found : Nat)
  /-- A header and samples of which the given line is damaged. -/
  | faulty (line : Text.Line) (fault : LineFault)
  /-- A block. -/
  | block (b : Block)

/-- Reads a header and the line of samples after it. -/
def readPair (header samples : Text.Line) : Reading :=
  match readAll Text.readSigned (integers true header.text) with
  | .error fault => .faulty header fault
  | .ok [clients, mergeRate, streamRate] =>
    match readAll Text.readUnsigned (integers false samples.text) with
    | .error fault => .faulty samples fault
    | .ok values => .block ⟨clients, mergeRate, streamRate, values⟩
  | .ok values => .miscounted header values.length

/-- How far a reader has come. -/
structure Progress where
  /-- What has been read, last first. -/
  readings : List Reading
  /-- The header that waits for its samples. -/
  header : Option Text.Line

namespace Progress

/-- Nothing read yet. -/
def start : Progress := ⟨[], none⟩

/-- Looks at a line as a header: one that is too long or that holds samples is none. -/
def expectHeader (options : ReadOptions) (readings : List Reading) (line : Text.Line) :
    Progress :=
  if options.limits.maxLineLength < line.length || isSampleLine line.text then
    ⟨.stray line :: readings, none⟩
  else ⟨readings, some line⟩

/-- Takes in a line. -/
def feed (options : ReadOptions) (p : Progress) (line : Text.Line) : Progress :=
  if isBlankLine line.text then { p with readings := .blank :: p.readings }
  else
    match p.header with
    | none => expectHeader options p.readings line
    | some header =>
      if isSampleLine line.text then ⟨readPair header line :: p.readings, none⟩
      else expectHeader options (.dangling header :: p.readings) line

/-- What has been read at the end of the lines, in order. -/
def finish (p : Progress) : List Reading :=
  match p.header with
  | none => p.readings.reverse
  | some header => (.dangling header :: p.readings).reverse

end Progress

/-- What the lines turn out to be. -/
def readings (options : ReadOptions) (lines : List Text.Line) : List Reading :=
  (lines.foldl (Progress.feed options) .start).finish

namespace Reading

/-- How the lines of a reading are counted. -/
def tally : Reading → Tally
  | blank => { Tally.zero with lines := 1, noMatch := 1 }
  | stray _ => { Tally.zero with lines := 1, malformed := 1 }
  | dangling _ => { Tally.zero with lines := 1, malformed := 1 }
  | miscounted _ _ => { Tally.zero with lines := 2, malformed := 2 }
  | faulty _ _ => { Tally.zero with lines := 2, malformed := 2 }
  | block b => { Tally.zero with lines := 2, records := b.samples.length }

/-- The measurements that a reading gives. -/
def measurements (name : String) : Reading → List Measurement
  | block b => b.measurements name
  | _ => []

/-- What is told about a reading. -/
def event? : Reading → Option Event
  | blank => none
  | stray line => some (.debug "expected a paired-line header" [("line", .count line.number)])
  | dangling header =>
    some (.debug "header without sample line" [("line", .count header.number)])
  | miscounted header found =>
    some (.debug "header needs exactly three integers"
      [("line", .count header.number), ("found", .count found)])
  | faulty line fault =>
    some (.debug "skipping line" [("line", .count line.number), ("error", .text fault.message)])
  | block _ => none

end Reading

/-- The report of a list of lines, its measurements under the given name. -/
def ofLines (options : ReadOptions) (name : String) (lines : List Text.Line) : Report :=
  let readings := readings options lines
  { source := none
    measurements := readings.flatMap (Reading.measurements name)
    metadata := []
    footnotes := []
    tally := Tally.sum (readings.map Reading.tally) }

/-- What is told about a list of lines. Of a stream that failed, a header that still
waits for its samples is not told. -/
def events (options : ReadOptions) (stream : Text.Stream) : List Event :=
  match stream.failure with
  | none => (readings options stream.lines).filterMap Reading.event?
  | some _ =>
    (stream.lines.foldl (Progress.feed options) .start).readings.reverse.filterMap Reading.event?

/-- The report of a stream that does not fail. -/
def ofStream (options : ReadOptions) (name : String) (stream : Text.Stream) :
    Except StreamFault Report :=
  match stream.failure with
  | some fault => .error fault
  | none => .ok (ofLines options name stream.lines)

end BenchReport.Paired
