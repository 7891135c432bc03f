import BenchReport.Command.Outcome
import BenchReport.Decimal.Layout
import BenchReport.Random.ChaCha
import BenchReport.Workload.Frequency

/-!
# Commands on workloads

`generate` draws a workload and writes it as a data set; `analyze` tells which items of
a data set are frequent, and how much of it they make up; `count` counts the rows of a
data set that have a given value in a column.
-/

namespace BenchReport.Command

/-- How many items the last line of an analysis is about. -/
def heavyHitters : Nat := 32

/-- A share, in percent with two decimals. -/
def percentText (x : Float) : String := Decimal.fixed 2 x ++ "%"

/-- The line of an item and its number of occurrences, at a rank counted from zero. -/
def itemLine (total : Nat) (entry : (UInt64 × Nat) × Nat) : String :=
  "  #" ++ Nat.repr (entry.2 + 1) ++ ": Item " ++ Text.showUnsigned entry.1.1 ++ " → " ++
    Text.showGrouped entry.1.2 ++ " times (" ++
    percentText (FrequencyTable.percentage entry.1.2 total) ++ ")\n"

/-- The analysis of a stream: its most frequent items and the share of the heaviest. -/
def analysis (top : Nat) (items : List UInt64) : String :=
  let t := FrequencyTable.ofItems items
  "\n=== Data Analysis ===\nTotal items: " ++ Text.showGrouped t.total ++
    "\nDistinct items: " ++ Text.showGrouped t.distinct ++
    "\n\nTop-" ++ Nat.repr top ++ " most frequent items:\n" ++
    String.join (((t.top top).zipIdx).map (itemLine t.total)) ++
    "\nTop-" ++ Nat.repr heavyHitters ++ " items account for: " ++
    percentText (t.shareOfTop heavyHitters) ++ " of all items\n"

/-- How many items are listed when a workload is analysed on the way. -/
def listedItems : Nat := 10

/-- What is printed before a workload is drawn. -/
def generateNote (config : ZipfConfig) : String :=
  "Generating Zipf data: size=" ++ Text.showGrouped config.size ++ ", distinct=" ++
    Text.showGrouped config.distinct.toNat ++ ", skew=" ++ Decimal.plain config.skew ++ "\n"

/-- Draws a workload and writes it. -/
def generate (s : Setting) (output : String) (config : ZipfConfig) (seed : Option UInt64)
    (analyze : Bool) : Outcome :=
  let events := Zipf.events config
  match Zipf.generate s.power Zipf.maxAttempts config
      (Random.ChaCha.ofSeed (seed.getD s.seed)) with
  | .error fault =>
    { Outcome.failed (.workload fault) events with printed := generateNote config }
  | .ok (items, _) =>
    let printed := generateNote config ++ if analyze then analysis listedItems items else ""
    match s.files.createFault? output with
    | some fault => { Outcome.failed (.file output fault.message) events with printed }
    | none =>
      { printed := printed ++ "✓ Saved " ++ Text.showGrouped items.length ++ " items to " ++
          output ++ "\n"
        reported := ""
        writes := [(output, Dataset.render items)]
        failure := none
        events }

/-- Prints the analysis of a column of a data set. -/
def analyze (s : Setting) (file : String) (top : Nat) (column : String) : Outcome :=
  match s.stream file with
  | .error fault => .failed fault []
  | .ok stream =>
    match Dataset.readColumn column stream with
    | .error fault => .failed (.dataset fault) []
    | .ok items => .ofPrinted (analysis top items) "" (Dataset.readEvents column stream)

/-- Prints how many rows of a data set have a value in a column. -/
def count (s : Setting) (file column value : String) : Outcome :=
  match s.stream file with
  | .error fault => .failed fault []
  | .ok stream =>
    match Dataset.countMatching column value stream with
    | .error fault => .failed (.dataset fault) []
    | .ok n => .ofPrinted (Nat.repr n ++ "\n") "" []

end BenchReport.Command
