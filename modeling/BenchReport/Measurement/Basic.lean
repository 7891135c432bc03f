import BenchReport.Fault
import BenchReport.Measurement.Metric
import BenchReport.Measurement.Parameter

/-!
# Measurements

A **measurement** is what one line of a report, or one sample of a latency report,
says: which benchmark, under which parameters, with which numbers. The numbers come
in three layouts (`BenchReport.Shape`), and every one of them has a latency.

The keys of a measurement are pairwise distinct – the type says so – and they keep
the order in which the line gave them. `BenchReport.Measurement.ofParameters` is the
only way in: it refuses a list with a repeated key and names the first one.
-/

namespace BenchReport

/-- The layout of a measurement's numbers. -/
inductive Shape where
  /-- One timing. -/
  | simple (latency : Float)
  /-- A timing with the counts of the memory statistics. -/
  | detailed (iterations : UInt64) (latency : Float) (bytesPerOp allocsPerOp : UInt64)
  /-- One sample of a latency report. -/
  | sample (latency : Float)

namespace Shape

/-- The name of a layout. -/
def name : Shape → String
  | simple _ => "simple_timing"
  | detailed .. => "detailed"
  | sample _ => "sample"

/-- The time of one operation in milliseconds. -/
def latency : Shape → Float
  | simple latency => latency
  | detailed _ latency _ _ => latency
  | sample latency => latency

/-- The metrics that a layout carries, counts as doubles. -/
def metrics : Shape → Metrics
  | simple latency => ⟨some latency, none, none, none⟩
  | detailed iterations latency bytes allocs =>
    ⟨some latency, some iterations.toFloat, some bytes.toFloat, some allocs.toFloat⟩
  | sample latency => ⟨some latency, none, none, none⟩

/-- Every layout carries its latency. -/
theorem get?_latency_metrics (shape : Shape) :
    shape.metrics.get? .latency = some shape.latency := by
  cases shape <;> rfl

end Shape

/-- What a report says about one run of a benchmark. -/
structure Measurement where
  /-- The benchmark. -/
  name : String
  /-- Its parameters, in the order of the line. -/
  parameters : List Parameter
  /-- Its numbers. -/
  shape : Shape
  /-- No key is given twice. -/
  nodup_keys : (parameters.map Parameter.key).Nodup

namespace Measurement

/-- The measurement with the given parts, unless a key is repeated. -/
def ofParameters (name : String) (parameters : List Parameter) (shape : Shape) :
    Except LineFault Measurement :=
  match h : Parameter.firstRepeat? parameters with
  | some key => .error (.duplicateParameter key)
  | none => .ok ⟨name, parameters, shape, Parameter.firstRepeat?_eq_none.1 h⟩

/-- The value of a parameter. -/
def parameter? (m : Measurement) (key : String) : Option Int64 :=
  Parameter.lookup? key m.parameters

/-- The time of one operation in milliseconds. -/
def latency (m : Measurement) : Float := m.shape.latency

/-- The metrics of a measurement. -/
def metrics (m : Measurement) : Metrics := m.shape.metrics

end Measurement

end BenchReport
