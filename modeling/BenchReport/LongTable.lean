import BenchReport.BoxPlot
import BenchReport.Decimal.Layout
import BenchReport.Rate
import BenchReport.Report.Basic
import BenchReport.Text.Thousands
import BenchReport.Text.Utf8

/-!
# LaTeX long tables

Rates can be typeset as a table that runs over several pages, with one row for each
group: the benchmark, the stream rate and the processing rate.

Every text from outside goes through `BenchReport.LongTable.escape`, which leaves no
character that LaTeX would act on, and from which the text can be recovered
(`BenchReport.LongTable.unescape?`). A label is used as it stands.

Rows are sorted by benchmark and stream rate. Sorting is stable, so rows that agree in
both keep the order in which they came, whether the table ascends or descends. The
label is, unless one is given, a fingerprint of the caption, the metadata and the sorted
rows: the same content gets the same label wherever it was measured first.
-/

namespace BenchReport

/-- How a long table is written. -/
structure LongTableConfig where
  /-- The label; without one it is made from the content. -/
  label : Option String
  /-- What the caption says the table is about. -/
  subject : String
  /-- The header of the last column. -/
  valueHeader : String
  /-- Whether the greatest row comes first. -/
  descending : Bool
  deriving DecidableEq, Repr

/-- Throughput, the greatest first. -/
def LongTableConfig.default : LongTableConfig :=
  ⟨none, "Throughput", "Throughput (tuples/s)", true⟩

/-- A group without a stream rate, of which a long table has no row. -/
structure MissingStreamRate where
  /-- The printed key of the group. -/
  group : String
  deriving DecidableEq, Repr

/-- The wording of a missing stream rate. -/
def MissingStreamRate.message (e : MissingStreamRate) : String :=
  "Group '" ++ e.group ++ "' has no stream rate; the table needs one per row"

namespace LongTable

/-! ### Texts -/

/-- A text in braces. -/
def braced (s : String) : String := "\x7b" ++ s ++ "\x7d"

/-- A command with one argument. -/
def command (name argument : String) : String := "\\" ++ name ++ braced argument

/-- A character that is printed by a backslash before it. -/
def isBackslashed (c : Char) : Bool :=
  c = '&' || c = '%' || c = '$' || c = '#' || c = '_' || c.toNat = 0x7b || c.toNat = 0x7d

/-- The command that prints a character for which a backslash means something else. -/
def commandFor? (c : Char) : Option String :=
  if c = '\\' then some "textbackslash"
  else if c = '~' then some "textasciitilde"
  else if c = '^' then some "textasciicircum"
  else none

/-- A character in a form that LaTeX prints. -/
def escapeChar (c : Char) : List Char :=
  match commandFor? c with
  | some name => (command name "").toList
  | none => if isBackslashed c then ['\\', c] else [c]

/-- A text in a form that LaTeX prints. -/
def escapeChars (s : List Char) : List Char := s.flatMap escapeChar

/-- A text in a form that LaTeX prints. -/
def escape (s : String) : String := String.ofList (escapeChars s.toList)

/-- The characters that have a command of their own. -/
def commanded : List Char := ['\\', '~', '^']

/-- The character that stands at the beginning of an escaped text, and how many
characters its form takes. -/
def unescapeFirst? : List Char → Option (Char × Nat)
  | [] => none
  | '\\' :: rest =>
    -- the name of a command begins with a letter, and no letter has a backslash of its own
    match commanded.find? fun c => (escapeChar c).isPrefixOf ('\\' :: rest) with
    | some c => some (c, (escapeChar c).length)
    | none =>
      match rest with
      | c :: _ => if isBackslashed c then some (c, 2) else none
      | [] => none
  | c :: _ => if isBackslashed c || (commandFor? c).isSome then none else some (c, 1)

/-- Recovers at most `fuel` characters of an escaped text. -/
def unescapeUpTo : Nat → List Char → Option (List Char)
  | _, [] => some []
  | 0, _ => none
  | fuel + 1, s =>
    match unescapeFirst? s with
    | none => none
    | some (c, taken) => (unescapeUpTo fuel (s.drop taken)).map (c :: ·)

/-- Recovers a text from its escaped form. -/
def unescape? (s : List Char) : Option (List Char) := unescapeUpTo s.length s

/-! ### Numbers -/

/-- A number in groups of three digits, with up to three decimals and no zero at their
end. -/
def thousands (x : Float) : List Char :=
  let chars := Decimal.fixedChars 3 x
  let digits := chars.dropWhile (· = '-')
  -- the words for what is not finite have no point, and no more than three letters
  let whole := digits.takeWhile (· ≠ '.')
  let decimals := ((digits.drop (whole.length + 1)).reverse.dropWhile (· = '0')).reverse
  chars.takeWhile (· = '-') ++ Text.groupThousands whole ++
    if decimals.isEmpty then [] else '.' :: decimals

/-! ### Rows -/

/-- What a row is written from. -/
structure Entry where
  /-- The benchmark. -/
  benchmark : String
  /-- Items that arrive in a second. -/
  streamRate : Float
  /-- Items that are worked through in a second. -/
  rate : Float

/-- The entry of a group's rates. -/
def Entry.ofRates (d : DerivedRates) : Except MissingStreamRate Entry :=
  match d.streamRate with
  | some streamRate => .ok ⟨d.key.name, streamRate, d.processingRate⟩
  | none => .error ⟨d.key.spell⟩

/-- The entries of a list of rates, up to the first without a stream rate. -/
def entries : List DerivedRates → Except MissingStreamRate (List Entry)
  | [] => .ok []
  | d :: rest =>
    match Entry.ofRates d with
    | .error e => .error e
    | .ok entry => (entries rest).map (entry :: ·)

/-- The order of two entries: by benchmark, then by stream rate. -/
def Entry.order (a b : Entry) : Ordering :=
  (compare a.benchmark b.benchmark).then
    (compare (floatRank a.streamRate) (floatRank b.streamRate))

/-- The entries in the order of the table. -/
def sortEntries (descending : Bool) (entries : List Entry) : List Entry :=
  entries.mergeSort fun a b =>
    if descending then (a.order b).isGE else (a.order b).isLE

/-! ### The label -/

/-- Mixes a byte into a fingerprint. -/
def mixByte (hash : UInt32) (byte : UInt8) : UInt32 := (hash ^^^ byte.toUInt32) * 0x01000193

/-- Mixes bytes into a fingerprint. -/
def mix (hash : UInt32) (bytes : List UInt8) : UInt32 := bytes.foldl mixByte hash

/-- The bytes of a double, the least first. -/
def floatBytes (x : Float) : List UInt8 :=
  (List.range 8).map fun i => UInt8.ofNat (x.toBits.toNat >>> (8 * i))

/-- The fingerprint of the content of a table. -/
def fingerprint (subject : String) (metadata : Metadata) (entries : List Entry) : UInt32 :=
  let facts := metadata.flatMap fun fact => Text.encode fact.1 ++ Text.encode fact.2
  let rows := entries.flatMap fun e => Text.encode e.benchmark ++ floatBytes e.streamRate
  mix 0x811c9dc5 (Text.encode subject ++ facts ++ rows)

/-- The eight hexadecimal digits of a fingerprint. -/
def hex (n : UInt32) : List Char :=
  let digits := Nat.toDigits 16 n.toNat
  List.replicate (8 - digits.length) '0' ++ digits

/-- The label made from the content of a table. -/
def derivedLabel (subject : String) (metadata : Metadata) (entries : List Entry) : String :=
  "tab:benchmark_" ++ String.ofList (hex (fingerprint subject metadata entries))

/-! ### The table -/

/-- A fact of the metadata, escaped; one that is missing is called unknown. -/
def fact (metadata : Metadata) (key : String) : String :=
  escape ((Keyed.get? key metadata).getD "unknown")

/-- The caption of a table. -/
def caption (subject : String) (metadata : Metadata) : String :=
  "Benchmark results for " ++ escape subject ++ " on " ++ fact metadata "goos" ++ " (" ++
    fact metadata "goarch" ++ ") for package " ++ command "texttt" (fact metadata "pkg") ++ "."

/-- The line of a row. -/
def rowLine (e : Entry) : String :=
  escape e.benchmark ++ " & " ++ String.ofList (thousands e.streamRate) ++ " & " ++
    Decimal.fixed 3 e.rate ++ " \\\\"

/-- The line of the column headers. -/
def headerLine (valueHeader : String) : String :=
  command "textbf" "Benchmark" ++ " & " ++ command "textbf" "Stream Rate" ++ " & " ++
    command "textbf" (escape valueHeader) ++ " \\\\"

/-- The lines of a table with the given entries, which are in order. -/
def lines (config : LongTableConfig) (metadata : Metadata) (entries : List Entry) :
    List String :=
  let label := config.label.getD (derivedLabel config.subject metadata entries)
  let header := headerLine config.valueHeader
  [command "begin" "center",
    command "begin" "longtable" ++ braced "|l|r|r|",
    command "caption" (caption config.subject metadata) ++ " " ++ command "label" label ++
      " \\\\",
    "\\hline",
    header,
    "\\hline",
    "\\endfirsthead",
    "\\hline " ++ header ++ " \\hline",
    "\\endhead",
    "\\hline " ++ command "multicolumn" "3" ++ braced "r" ++
      braced (braced "Continued on next page") ++ " \\\\",
    "\\endfoot",
    "\\hline",
    "\\endlastfoot"] ++
  entries.map rowLine ++
  [command "end" "longtable", command "end" "center"]

/-- The text of a table of rates, without a newline at its end. -/
def render (config : LongTableConfig) (metadata : Metadata) (rates : List DerivedRates) :
    Except MissingStreamRate String :=
  match entries rates with
  | .error e => .error e
  | .ok found =>
    .ok (String.intercalate "\n"
      (lines config metadata (sortEntries config.descending found)))

end LongTable

end BenchReport
