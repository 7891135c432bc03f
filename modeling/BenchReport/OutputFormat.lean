/-!
# Output formats

A result can be written as comma-separated values, as plain text with a line for each
group, or as a LaTeX table.
-/

namespace BenchReport

/-- How a result is written. -/
inductive OutputFormat where
  /-- Comma-separated values. -/
  | csv
  /-- Plain text. -/
  | text
  /-- A LaTeX table. -/
  | latex
  deriving DecidableEq, Repr

namespace OutputFormat

/-- The name of a format. -/
def name : OutputFormat → String
  | csv => "csv"
  | text => "text"
  | latex => "latex"

/-- The format of a name. -/
def ofName? (name : String) : Option OutputFormat :=
  [csv, text, latex].find? fun format => format.name = name

end OutputFormat

end BenchReport
