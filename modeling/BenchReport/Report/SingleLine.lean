import BenchReport.Event
import BenchReport.Report.Basic
import BenchReport.ResultLine
import BenchReport.Text.Line

/-!
# Single-line reports

The usual report says one thing on each line: a fact about the run, a footnote, a
result, or something that is none of these. So it is read **line by line**, and no
line has a say in what another one means.

`BenchReport.SingleLine.read` decides what a line is. The tests are made in a fixed
order and the first that applies wins: a line too long, a fact, a footnote, a result.
From that reading come both what the line contributes to the report
(`BenchReport.SingleLine.Reading.contribution`) and what is told about it
(`BenchReport.SingleLine.Reading.event?`). A damaged line is counted and passed over;
only the stream itself can make the whole report fail.
-/

namespace BenchReport.SingleLine

/-- What a line turns out to be. -/
inductive Reading where
  /-- More bytes than the limit allows. -/
  | overlong
  /-- A fact about the run. -/
  | fact (key value : String)
  /-- A footnote. -/
  | footnote (text : String)
  /-- A result. -/
  | result (m : Measurement)
  /-- Nothing of a known form. -/
  | unmatched
  /-- A damaged result. -/
  | faulty (fault : LineFault)

/-! ### Facts and footnotes -/

/-- The keys under which a run states facts about itself. -/
def factKeys : List String := ["goos", "goarch", "pkg", "cpu"]

/-- The fact that a line states: a key, a colon, and a value that is not empty. -/
def readFact? (line : List Char) : Option (String × String) := do
  let (key, rest) ← Text.cutAt? (· = ':') line
  let value := Text.trim rest
  if String.ofList key ∈ factKeys && !value.isEmpty then
    some (String.ofList key, String.ofList value)
  else none

/-- A superscript digit other than zero. -/
def isFootnoteMark (c : Char) : Bool :=
  let n := c.toNat
  n = 0xb9 || n = 0xb2 || n = 0xb3 || (0x2074 ≤ n && n ≤ 0x2079)

/-- The footnote that a line holds behind its mark. -/
def readFootnote? : List Char → Option String
  | [] => none
  | mark :: rest => if isFootnoteMark mark then some (String.ofList (Text.trim rest)) else none

/-! ### Reading a line -/

/-- What a line is. -/
def read (options : ReadOptions) (line : Text.Line) : Reading :=
  if options.limits.maxLineLength < line.length then .overlong
  else
    let text := Text.trim line.text
    match readFact? text with
    | some (key, value) => .fact key value
    | none =>
      match readFootnote? text with
      | some note => .footnote note
      | none =>
        match ResultLine.measurement options.nameStart text with
        | .ok (some m) => .result m
        | .ok none => .unmatched
        | .error fault => .faulty fault

namespace Reading

/-- How a line is counted. -/
def tally : Reading → Tally
  | overlong => { Tally.zero with lines := 1, malformed := 1 }
  | fact _ _ => { Tally.zero with lines := 1, metadata := 1 }
  | footnote _ => { Tally.zero with lines := 1, metadata := 1 }
  | result _ => { Tally.zero with lines := 1, records := 1 }
  | unmatched => { Tally.zero with lines := 1, noMatch := 1 }
  | faulty (.unknownShape _) => { Tally.zero with lines := 1, unknownShape := 1 }
  | faulty _ => { Tally.zero with lines := 1, malformed := 1 }

/-- The measurement that a line gives, if any. -/
def measurement? : Reading → Option Measurement
  | result m => some m
  | _ => none

/-- The fact that a line states, if any. -/
def fact? : Reading → Option (String × String)
  | fact key value => some (key, value)
  | _ => none

/-- The footnote that a line holds, if any. -/
def footnote? : Reading → Option String
  | footnote text => some text
  | _ => none

/-- What is told about a line. A shape that is unknown may be a layout that this
library ought to know, so it is told louder than mere damage. -/
def event? (line : Text.Line) : Reading → Option Event
  | overlong =>
    some (.debug "line exceeds length limit"
      [("line", .count line.number), ("len", .count line.length)])
  | faulty (.unknownShape count) =>
    some (.warn "skipping line"
      [("line", .count line.number), ("error", .text (LineFault.unknownShape count).message)])
  | faulty fault =>
    some (.debug "skipping line" [("line", .count line.number), ("error", .text fault.message)])
  | _ => none

end Reading

/-! ### Reading a report -/

/-- The report of a list of lines that have been read. -/
def ofReadings (readings : List Reading) : Report :=
  { source := none
    measurements := readings.filterMap Reading.measurement?
    metadata := Keyed.union [] (readings.filterMap Reading.fact?)
    footnotes := readings.filterMap Reading.footnote?
    tally := Tally.sum (readings.map Reading.tally) }

/-- The report of a list of lines. -/
def ofLines (options : ReadOptions) (lines : List Text.Line) : Report :=
  ofReadings (lines.map (read options))

/-- What is told about a list of lines. -/
def events (options : ReadOptions) (lines : List Text.Line) : List Event :=
  lines.filterMap fun line => (read options line).event? line

/-- The report of a stream that does not fail. -/
def ofStream (options : ReadOptions) (stream : Text.Stream) : Except StreamFault Report :=
  match stream.failure with
  | some fault => .error fault
  | none => .ok (ofLines options stream.lines)

end BenchReport.SingleLine
