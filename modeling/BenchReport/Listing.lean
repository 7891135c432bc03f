import BenchReport.BoxPlot
import BenchReport.Decimal.Layout
import BenchReport.Rate

/-!
# Plain listings

The plain text of a result has one line for each measurement, group or box plot. A line
begins with what it is about; behind it stand the numbers, each with its name, and two
blanks separate one from the next.

Values that were read are written with all their digits, derived ones with three
decimals.
-/

namespace BenchReport

/-- A number under its name. -/
def named (name value : String) : String := name ++ "=" ++ value

/-- The parts of a line, with two blanks between them. -/
def columns (parts : List String) : String := String.intercalate "  " parts

/-- Lines, each with its end. -/
def linesText (lines : List String) : String := String.join (lines.map (· ++ "\n"))

/-- The metrics that have a value, in the order of the columns. -/
def Metrics.spell (values : Metrics) : String :=
  columns (values.toList.map fun entry => named entry.1.name (Decimal.plain entry.2))

/-- The line of a measurement, its parameters in their order. -/
def Measurement.line (m : Measurement) : String :=
  columns
    [m.name ++ "/" ++ String.intercalate "," (m.parameters.map (Parameter.spell "=")),
      m.metrics.spell]

/-- The line of a group. -/
def Group.line (g : Group) : String :=
  columns [g.key.spell, named "n" (Nat.repr g.size), g.means.spell]

/-- A derived number, with three decimals. -/
def derivedText (x : Float) : String := Decimal.fixed 3 x

/-- The line of a group's rates; a dash stands for a stream rate that is not known. -/
def DerivedRates.line (d : DerivedRates) : String :=
  columns
    [d.key.spell, named "stream_rate" ((d.streamRate.map derivedText).getD "-"),
      named "processing_rate" (derivedText d.processingRate)]

/-- The line of a group's box plot. -/
def BoxPlot.line (key : GroupKey) (b : BoxPlot) : String :=
  columns
    [key.spell, named "n" (Nat.repr b.count), named "min" (derivedText b.min),
      named "q1" (derivedText b.q1), named "median" (derivedText b.median),
      named "q3" (derivedText b.q3), named "max" (derivedText b.max),
      named "mean" (derivedText b.mean),
      named "whiskers"
        ("[" ++ derivedText b.lowerWhisker ++ ", " ++ derivedText b.upperWhisker ++ "]"),
      named "outliers" (Nat.repr b.outliers)]

end BenchReport
