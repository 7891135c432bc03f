import BenchReport.Csv.Reader
import BenchReport.Csv.Writer
import BenchReport.Event
import BenchReport.Text.Blank

/-!
# Data sets

A **data set** keeps a stream of items as CSV: one row for each, with its place in the
stream as a time stamp. `BenchReport.Dataset.render` writes it, and
`BenchReport.Dataset.readColumn` gets the items back – from any CSV file with a column
of whole numbers, for the columns are found by their headers.

Rows are read in order, and the first one that cannot be used decides the fault. Blanks
around a header or a cell do not count.
-/

namespace BenchReport

/-- Why a data set is not read or written. -/
inductive DatasetFault where
  /-- No column has this header. -/
  | missingColumn (column : String)
  /-- A cell of the column is no item; rows count from one, without the header. -/
  | invalidItem (row : Nat) (value : String)
  /-- A record cannot be read, or the destination refused one. -/
  | record (reason : String)
  /-- The destination refused the rest. -/
  | refused (reason : String)
  deriving DecidableEq, Repr

/-- The wording of a fault. -/
def DatasetFault.message : DatasetFault → String
  | missingColumn column => "Missing column: " ++ column
  | invalidItem row value => "Invalid item '" ++ value ++ "' in row " ++ Nat.repr row
  | record reason => "CSV library error: " ++ reason
  | refused reason => "I/O error: " ++ reason

namespace Dataset

/-- The header of the places in the stream. -/
def timestampColumn : String := "timestamp"

/-- The header of the items. -/
def itemColumn : String := "item_id"

/-! ### Writing -/

/-- The records of a data set. -/
def records (items : List UInt64) : List (List (List Char)) :=
  [timestampColumn.toList, itemColumn.toList] ::
    items.zipIdx.map fun entry =>
      [(Nat.repr entry.2).toList, (Nat.repr entry.1.toNat).toList]

/-- The text of a data set. -/
def render (items : List UInt64) : String :=
  String.ofList (Csv.text .necessary ',' (records items))

/-- What writing a data set to a destination that refuses everything comes to. -/
def refusal (items : List UInt64) (reason : String) : DatasetFault :=
  match Csv.firstOverflow? ((records items).map (Csv.recordSize .default)) with
  | some _ => .record reason
  | none => .refused reason

/-! ### Reading -/

/-- The fault of a record that cannot be read. -/
def unreadable : DatasetFault := .record "unreadable record"

/-- The place of a column, found by its header in the first record. -/
def columnIndex (column : String) : List Csv.Entry → Except DatasetFault (Nat × List Csv.Entry)
  | [] => .error (.missingColumn column)
  | .unreadable :: _ => .error unreadable
  | .record header :: rows =>
    match header.findIdx? fun cell => Text.trim cell = column.toList with
    | some i => .ok (i, rows)
    | none => .error (.missingColumn column)

/-- A cell of a record without the blanks around it; a cell that is not there is empty. -/
def cell (index : Nat) (fields : List (List Char)) : List Char :=
  Text.trim (fields[index]?.getD [])

/-- Reads items behind those read before, the last of which comes first; `row` is the
number of the next row. -/
def readItems (index row : Nat) (items : List UInt64) :
    List Csv.Entry → Except DatasetFault (List UInt64)
  | [] => .ok items.reverse
  | .unreadable :: _ => .error unreadable
  | .record fields :: rest =>
    match Text.readUnsigned (cell index fields) with
    | .ok item => readItems index (row + 1) (item :: items) rest
    | .error _ => .error (.invalidItem row (String.ofList (cell index fields)))

/-- The items in a column of a stream. -/
def readColumn (column : String) (stream : Text.Stream) : Except DatasetFault (List UInt64) :=
  match columnIndex column (Csv.entries stream) with
  | .error fault => .error fault
  | .ok (index, rows) => readItems index 1 [] rows

/-- A cell without the quotes around it. -/
def trimQuotes (cell : List Char) : List Char :=
  ((cell.dropWhile (· = '"')).reverse.dropWhile (· = '"')).reverse

/-- Counts the records with a given value in a column, from a count on. -/
def countFrom (index : Nat) (value : String) (count : Nat) :
    List Csv.Entry → Except DatasetFault Nat
  | [] => .ok count
  | .unreadable :: _ => .error unreadable
  | .record fields :: rest =>
    countFrom index value
      (if trimQuotes (cell index fields) = value.toList then count + 1 else count) rest

/-- How many rows of a stream have a given value in a column. -/
def countMatching (column value : String) (stream : Text.Stream) : Except DatasetFault Nat :=
  match columnIndex column (Csv.entries stream) with
  | .error fault => .error fault
  | .ok (index, rows) => countFrom index value 0 rows

/-- What is told about a column that has been read. -/
def readEvents (column : String) (stream : Text.Stream) : List Event :=
  match readColumn column stream with
  | .error _ => []
  | .ok items =>
    [.debug "read dataset column" [("column", .text column), ("items", .count items.length)]]

end Dataset

end BenchReport
