import BenchReport.Duration
import BenchReport.Measurement.Basic
import BenchReport.Text.DecimalDigit
import BenchReport.Text.Split

/-!
# Result lines

The line on which a report states a result has the form

    <Name>/<Key>:_<Int>,<Key>:_<Int>,…-<Procs>   <field> <field> … ± <margin>

A benchmark's name, a slash, its parameters, a hyphen and a number of processors
make up the first word; the fields of the measurement follow. The processor count
is recognised and dropped, and so is everything from the first `±` on.

Reading goes in three steps, and each has its own kind of refusal:

* `BenchReport.ResultLine.parts?` cuts the line. Parameters may hold hyphens, so they
  end at the **last** hyphen of the word; nothing but digits may follow it. A line
  that does not fit is *no* result – a blank line, a rule of a table, prose.
* `BenchReport.ResultLine.token` reads the parameters and gathers the fields. A unit
  such as `ns/op` behind a number is folded into the field before it. Prose such as
  `results/run-1 done` is told from a damaged result by its parameters, which have
  neither a colon nor an equals sign.
* `BenchReport.ResultLine.Token.measurement` reads the fields: one field is a timing,
  four are iterations, time, bytes and allocations.

`BenchReport.ResultLine.render` is the way back: it writes the line of given parts.
-/

namespace BenchReport.ResultLine

/-! ### The parts of a line -/

/-- A character of a benchmark's name. -/
def isNameChar (c : Char) : Bool := c.isAlphanum || c = '_'

/-- The parts of a line of the right form. -/
structure Parts where
  /-- The benchmark's name. -/
  name : List Char
  /-- The parameter list. -/
  parameters : List Char
  /-- The number of processors. -/
  procs : List Char
  /-- The fields and the margin. -/
  rest : List Char
  deriving DecidableEq, Repr

/-- Cuts the processor count off the first word, at its last hyphen. -/
def cutProcs? (word : List Char) : Option (List Char × List Char) :=
  -- the last hyphen is the first one from the right
  let backward := word.reverse
  let procs := (backward.takeWhile Text.isDecimalDigit).reverse
  match backward.dropWhile Text.isDecimalDigit with
  | '-' :: parameters =>
    if procs.isEmpty || parameters.isEmpty then none else some (parameters.reverse, procs)
  | _ => none

/-- The parts of a line without blanks at its ends, if it has the form of a result. -/
def parts? (line : List Char) : Option Parts :=
  let name := line.takeWhile isNameChar
  match line.dropWhile isNameChar with
  | '/' :: afterSlash =>
    let word := afterSlash.takeWhile (fun c => !Text.isBlank c)
    let afterWord := afterSlash.dropWhile (fun c => !Text.isBlank c)
    let rest := afterWord.dropWhile Text.isBlank
    if name.isEmpty || afterWord.isEmpty || rest.contains '\n' then none
    else (cutProcs? word).map fun (parameters, procs) => ⟨name, parameters, procs, rest⟩
  | _ => none

/-! ### Fields -/

/-- The sign between the fields and the margin. -/
def marginSign : Char := Char.ofNat 0xb1

/-- What a line says before its margin. -/
def beforeMargin (rest : List Char) : List Char := rest.takeWhile (· ≠ marginSign)

/-- Takes in one word behind the fields found so far, the last of which comes first.
A word with a slash is a unit of the field before it: a unit of time is appended to
that field, and any other is dropped. -/
def takeWord (fields : List (List Char)) (word : List Char) : List (List Char) :=
  match fields, Text.cutAt? (· = '/') word with
  | last :: earlier, some (unit, _) =>
    if !unit.isEmpty && (TimeUnit.ofSuffix? unit).isSome then (last ++ unit) :: earlier
    else last :: earlier
  | fields, _ => word :: fields

/-- The fields of a measurement, units folded in. -/
def gatherFields (rest : List Char) : List (List Char) :=
  ((Text.words (beforeMargin rest)).foldl takeWord []).reverse

/-! ### Parameters -/

/-- What stands between a key and its value. -/
def delimiter : List Char := [':', '_']

/-- The parameter that a segment holds; a segment of underscores alone holds none. -/
def readSegment (segment : List Char) : Except LineFault (Option Parameter) :=
  let fault (cause : ParameterFault) :=
    LineFault.malformedParameter (String.ofList segment) cause
  let content := segment.dropWhile (· = '_')
  if content.isEmpty then .ok none
  else
    match Text.cutAtSeq? delimiter content with
    | none => .error (fault .missingDelimiter)
    | some (key, value) =>
      if key.isEmpty then .error (fault .emptyKey)
      else
        match Text.readSigned value with
        | .ok n => .ok (some ⟨String.ofList key, n⟩)
        | .error _ => .error (fault (.notInteger (String.ofList value)))

/-- The parameters of a list of segments, up to the first that is malformed. -/
def readSegments : List (List Char) → Except LineFault (List Parameter)
  | [] => .ok []
  | segment :: rest =>
    match readSegment segment with
    | .error fault => .error fault
    | .ok parameter =>
      match readSegments rest with
      | .error fault => .error fault
      | .ok parameters => .ok (parameter.toList ++ parameters)

/-- The parameters of a comma-separated list. -/
def readParameters (s : List Char) : Except LineFault (List Parameter) :=
  readSegments (Text.splitOn ',' s)

/-- Whether a first word has parameters at all. -/
def hasParameters (s : List Char) : Bool := s.any fun c => c = ':' || c = '='

/-! ### Tokens -/

/-- A result line taken apart, its fields unread. -/
structure Token where
  /-- The benchmark's name, less the beginning that is to be dropped. -/
  name : String
  /-- Its parameters, in order. -/
  parameters : List Parameter
  /-- The fields of the measurement, in order. -/
  fields : List String
  deriving DecidableEq, Repr

/-- The beginning of a name that is dropped unless other wishes are given. -/
def defaultNameStart : String := "Benchmark"

/-- The name less a given beginning, unless nothing would be left of it. -/
def dropNameStart (start : Option String) (name : List Char) : List Char :=
  match start with
  | none => name
  | some start =>
    match Text.dropStart? start.toList name with
    | some (c :: rest) => c :: rest
    | _ => name

/-- Reads a line: `none` if it is no result line, a fault if it is a damaged one. -/
def token (nameStart : Option String) (line : List Char) : Except LineFault (Option Token) :=
  match parts? (Text.trim line) with
  | none => .ok none
  | some parts =>
    let fields := gatherFields parts.rest
    if !hasParameters parts.parameters || fields.isEmpty then .ok none
    else
      match readParameters parts.parameters with
      | .error fault => .error fault
      | .ok parameters =>
        .ok (some
          { name := String.ofList (dropNameStart nameStart parts.name)
            parameters
            fields := fields.map String.ofList })

/-- The layout of a list of fields: a timing, or iterations, time, bytes and
allocations, read in this order. -/
def readShape : List String → Except LineFault Shape
  | [time] => (readDuration time.toList).map .simple
  | [iterations, time, bytes, allocs] => do
    let iterations ← readCount iterations.toList
    let latency ← readDuration time.toList
    let bytes ← readCount bytes.toList
    let allocs ← readCount allocs.toList
    return .detailed iterations latency bytes allocs
  | fields => .error (.unknownShape fields.length)

/-- The measurement of a token. -/
def Token.measurement (t : Token) : Except LineFault Measurement :=
  match readShape t.fields with
  | .error fault => .error fault
  | .ok shape => Measurement.ofParameters t.name t.parameters shape

/-- The measurement of a line: `none` if it is no result line. -/
def measurement (nameStart : Option String) (line : List Char) :
    Except LineFault (Option Measurement) :=
  match token nameStart line with
  | .error fault => .error fault
  | .ok none => .ok none
  | .ok (some t) => t.measurement.map some

end BenchReport.ResultLine

namespace BenchReport

/-! ### Writing a line -/

/-- What a result line is written from. -/
structure ResultLine where
  /-- The benchmark's name. -/
  name : String
  /-- Its parameters. -/
  parameters : List Parameter
  /-- The number of processors. -/
  procs : UInt32
  /-- The fields of the measurement, as they are printed. -/
  fields : List String
  /-- The error margin, if one is printed. -/
  margin : Option String

namespace ResultLine

/-- The margin with its sign. -/
def renderMargin : Option String → String
  | none => ""
  | some margin => " " ++ String.singleton marginSign ++ " " ++ margin

/-- The text of a result line. -/
def render (line : ResultLine) : String :=
  line.name ++ "/" ++
    String.intercalate "," (line.parameters.map (Parameter.spell ":_")) ++
    "-" ++ Nat.repr line.procs.toNat ++ " " ++ String.intercalate " " line.fields ++
    renderMargin line.margin

end ResultLine

end BenchReport
