import BenchReport.LongTable
import BenchReport.Manifest
import BenchReport.Table
import BenchReport.Workload.Dataset
import BenchReport.Workload.Zipf

/-!
# Why a command fails

A command can fail for a reason of its own, or because a part of the library that it
uses does. In the second case the reason is kept as that part gave it, and the command
only says in front of it what it was about to do.

The last reason of all is no reason to stop: a result is complete without the sources
that could not be read, but the command that made it has not done all it was asked to.
-/

namespace BenchReport

/-- Why a command fails. -/
inductive CommandFault where
  /-- A file cannot be read or written, in the words of the system. -/
  | file (path reason : String)
  /-- A file is larger than allowed. -/
  | tooLarge (path : String) (actual maximum : Nat)
  /-- A line fault was passed on. -/
  | line (cause : LineFault)
  /-- No rates can be derived. -/
  | rates (cause : MissingLatency)
  /-- A table cannot be written as comma-separated values. -/
  | csv (cause : CsvFault)
  /-- A table cannot be written for LaTeX. -/
  | latex (cause : MissingStreamRate)
  /-- A workload cannot be generated. -/
  | workload (cause : ZipfFault)
  /-- A data set cannot be read or written. -/
  | dataset (cause : DatasetFault)
  /-- A manifest cannot be used. -/
  | manifest (path : String) (cause : ManifestFault)
  /-- LaTeX is asked for where no rates are derived. -/
  | needsRates
  /-- Some sources could not be read; the result is complete without them. -/
  | sourcesFailed (failed total : Nat)

namespace CommandFault

/-- The fault of a command whose only source cannot be read. -/
def ofSource : SourceFault → CommandFault
  | .file path cause => file path cause.message
  | .line fault => line fault

/-- How many bytes a mebibyte has. -/
def mebibyte : Nat := 1024 * 1024

/-- The wording of a fault. -/
def message : CommandFault → String
  | file path reason => "I/O error for '" ++ path ++ "': " ++ reason
  | tooLarge path actual maximum =>
    "File '" ++ path ++ "' is too large (" ++ Nat.repr actual ++ " bytes). Maximum allowed: " ++
      Nat.repr maximum ++ " bytes (" ++ Nat.repr (maximum / mebibyte) ++ " MB)"
  | line cause => "Report error: " ++ cause.message
  | rates cause => "Report error: " ++ cause.message
  | csv cause => "CSV output error: " ++ cause.message
  | latex cause => "LaTeX output error: " ++ cause.message
  | workload cause => "Dataset error: " ++ cause.message
  | dataset cause => "Dataset error: " ++ cause.message
  | manifest path cause => "Invalid manifest '" ++ path ++ "': " ++ cause.message
  | needsRates => "Invalid input: LaTeX output needs derived rates; use the rates command"
  | sourcesFailed failed total =>
    Nat.repr failed ++ " of " ++ Nat.repr total ++ " source(s) could not be read"

end CommandFault

end BenchReport
