import BenchReport.Csv.Writer
import BenchReport.Decimal.Layout
import BenchReport.Rate

/-!
# Tables

Groups and rates are written as tables with one row each. The columns depend on the
rows: first the benchmark, then **every parameter that some row has**, in the order of
their names, then the numbers. A row that lacks a parameter or a number has an empty
cell there, so all rows are as long as the header.

A table is made first (`BenchReport.Table.ofGroups`, `BenchReport.Table.ofRates`) and
written afterwards (`BenchReport.Table.csv`); what a cell holds does not depend on how
it is written. Numbers stand in their plain form.
-/

namespace BenchReport

/-- A row of a table. -/
structure Row where
  /-- The group that the row is about. -/
  key : GroupKey
  /-- Its cells. -/
  cells : List String
  deriving DecidableEq, Repr

/-- A table. -/
structure Table where
  /-- The names of the columns. -/
  header : List String
  /-- The rows, in order. -/
  rows : List Row
  deriving DecidableEq, Repr

namespace Table

/-! ### Columns -/

/-- The names of all parameters of the given keys, ascending. -/
def parameterNames (keys : List GroupKey) : List String :=
  (Keyed.groupBy id (keys.flatMap fun key => key.parameters.map Parameter.key)).map Prod.fst

/-- A cell that is empty where there is nothing to write. -/
def optionalCell {α : Type} (text : α → String) : Option α → String
  | none => ""
  | some a => text a

/-- The cells that a key fills: the benchmark and the parameters. -/
def keyCells (names : List String) (key : GroupKey) : List String :=
  key.name :: names.map fun name => optionalCell Text.showSigned (key.parameter? name)

/-- The metrics that some group has a mean of, in the order of the columns. -/
def metricColumns (groups : List Group) : List Metric :=
  Metric.all.filter fun m => groups.any fun g => (g.means.get? m).isSome

/-- The table of averaged groups. -/
def ofGroups (groups : List Group) : Table :=
  let names := parameterNames (groups.map Group.key)
  let metrics := metricColumns groups
  { header := "benchmark" :: names ++ metrics.map Metric.name ++ ["sample_count"]
    rows := groups.map fun g =>
      { key := g.key
        cells := keyCells names g.key ++
          metrics.map (fun m => optionalCell Decimal.plain (g.means.get? m)) ++
          [Nat.repr g.size] } }

/-- The table of derived rates. -/
def ofRates (rates : List DerivedRates) : Table :=
  let names := parameterNames (rates.map DerivedRates.key)
  { header := "benchmark" :: names ++
      ["stream_rate_tuples_per_sec", "processing_rate_tuples_per_sec"]
    rows := rates.map fun d =>
      { key := d.key
        cells := keyCells names d.key ++
          [optionalCell Decimal.plain d.streamRate, Decimal.plain d.processingRate] } }

end Table

/-! ### Writing -/

/-- Why a table is not written. -/
inductive CsvFault where
  /-- The destination refused the row of a group. -/
  | refusedRow (group reason : String)
  /-- The destination refused the header. -/
  | refusedHeader (reason : String)
  /-- The destination refused the rest. -/
  | refused (reason : String)
  /-- What was written is no text. -/
  | invalidText (output : String)
  deriving DecidableEq, Repr

/-- The wording of a fault. -/
def CsvFault.message : CsvFault → String
  | refusedRow group reason => "Failed to write CSV row for '" ++ group ++ "': " ++ reason
  | refusedHeader reason => "CSV library error: " ++ reason
  | refused reason => "I/O error: " ++ reason
  | invalidText output => "Invalid UTF-8 in " ++ output

namespace Table

/-- The records of a table, with or without its header. -/
def records (headed : Bool) (t : Table) : List (List (List Char)) :=
  ((if headed then [t.header] else []) ++ t.rows.map Row.cells).map fun cells =>
    cells.map String.toList

/-- The CSV text of a table. Each record has at least two fields, so a delimiter that
is no character spoils whatever is written with it. -/
def csv (dialect : Csv.Dialect) (headed : Bool) (t : Table) : Except CsvFault String :=
  let records := t.records headed
  match dialect.delimiterChar? with
  | some delimiter => .ok (String.ofList (Csv.text dialect.quotes delimiter records))
  | none => if records.isEmpty then .ok "" else .error (.invalidText "CSV output")

/-- What writing a table to a destination that refuses everything comes to: the fault
of the record that first overflows the buffer, or else of the rest. -/
def refusal (dialect : Csv.Dialect) (headed : Bool) (t : Table) (reason : String) : CsvFault :=
  let places := (if headed then [none] else []) ++ t.rows.map fun row => some row.key
  match Csv.firstOverflow? ((t.records headed).map (Csv.recordSize dialect)) with
  | none => .refused reason
  | some i =>
    match places[i]? with
    | some (some key) => .refusedRow key.spell reason
    | _ => .refusedHeader reason

end Table

end BenchReport
