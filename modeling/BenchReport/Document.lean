import BenchReport.BoxPlot
import BenchReport.Json
import BenchReport.Rate
import BenchReport.Report.Basic

/-!
# JSON documents

How measurements, groups, rates, box plots and reports are written as JSON. The names
of the fields are a contract with whoever reads the documents; their order is that of
the definitions below, and of a measurement's parameters that of its line.
-/

namespace BenchReport

/-- The parameters of a measurement: an object, in the order of the line. -/
def Parameter.listToJson (parameters : List Parameter) : Json :=
  .object (parameters.map fun p => (p.key, .integer p.value.toInt))

/-- The numbers of a measurement with the name of their layout. -/
def Shape.fields (shape : Shape) : List (String × Json) :=
  ("shape", .text shape.name) :: match shape with
    | .simple latency => [("latency_ms", .number latency)]
    | .sample latency => [("latency_ms", .number latency)]
    | .detailed iterations latency bytes allocs =>
      [("iterations", .nat iterations.toNat), ("latency_ms", .number latency),
        ("bytes_per_op", .nat bytes.toNat), ("allocs_per_op", .nat allocs.toNat)]

/-- A measurement: its numbers stand beside its name. -/
def Measurement.toJson (m : Measurement) : Json :=
  .object ([("benchmark_name", .text m.name), ("params", Parameter.listToJson m.parameters)] ++
    m.shape.fields)

/-- A group key: its parameters as pairs, sorted. -/
def GroupKey.toJson (key : GroupKey) : Json :=
  .object
    [("benchmark_name", .text key.name),
      ("params", .list (key.parameters.map fun p => .list [.text p.key, .integer p.value.toInt]))]

/-- The metrics that have a value, by the names of their columns. -/
def Metrics.toJson (values : Metrics) : Json :=
  .object (values.toList.map fun entry => (entry.1.name, .number entry.2))

/-- A group. -/
def Group.toJson (g : Group) : Json :=
  .object
    [("key", g.key.toJson), ("averaged_metrics", g.means.toJson), ("sample_count", .nat g.size)]

/-- A group's rates. -/
def DerivedRates.toJson (d : DerivedRates) : Json :=
  .object
    [("key", d.key.toJson),
      ("stream_rate_tuples_per_sec", .ofOption .number d.streamRate),
      ("processing_rate_tuples_per_sec", .number d.processingRate)]

/-- A box plot. -/
def BoxPlot.toJson (b : BoxPlot) : Json :=
  .object
    [("count", .nat b.count), ("min", .number b.min), ("q1", .number b.q1),
      ("median", .number b.median), ("q3", .number b.q3), ("max", .number b.max),
      ("mean", .number b.mean), ("lower_whisker", .number b.lowerWhisker),
      ("upper_whisker", .number b.upperWhisker), ("outliers", .nat b.outliers)]

/-- A tally. -/
def Tally.toJson (t : Tally) : Json :=
  .object
    [("lines", .nat t.lines), ("records", .nat t.records), ("metadata", .nat t.metadata),
      ("no_match", .nat t.noMatch), ("malformed", .nat t.malformed),
      ("unknown_shape", .nat t.unknownShape)]

/-- A report, every object of it with its fields sorted by name. -/
def Report.toJson (r : Report) : Json :=
  Json.sortFields <| .object
    [("source", .ofOption .text r.source),
      ("metadata", .object (r.metadata.map fun entry => (entry.1, .text entry.2))),
      ("footnotes", .list (r.footnotes.map .text)),
      ("records", .list (r.measurements.map Measurement.toJson)),
      ("stats", r.tally.toJson)]

end BenchReport
