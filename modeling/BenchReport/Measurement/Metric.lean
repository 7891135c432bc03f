/-!
# Metrics

A benchmark reports up to four numbers about one operation: how long it took, how
often it was run, and how many bytes and allocations it needed. These are the
**metrics**, and they have a fixed order, the one in which every table lists them.

What a measurement or a group carries is a `BenchReport.Metrics`: a value for some
of the four metrics. It is seen through `BenchReport.Metrics.get?` alone, and built
from any assignment by `BenchReport.Metrics.ofFn`, so that a statement about all
four is a statement about one.
-/

namespace BenchReport

/-- A number that a benchmark reports about one operation. -/
inductive Metric where
  /-- The time it took, in milliseconds. -/
  | latency
  /-- How often the benchmark ran it. -/
  | iterations
  /-- The bytes it allocated. -/
  | bytesPerOp
  /-- The allocations it made. -/
  | allocsPerOp
  deriving DecidableEq, Repr

namespace Metric

/-- All metrics, in the order of the columns. -/
def all : List Metric := [latency, iterations, bytesPerOp, allocsPerOp]

/-- The name of a metric's column. -/
def name : Metric → String
  | latency => "latency_ms"
  | iterations => "iterations"
  | bytesPerOp => "bytes_per_op"
  | allocsPerOp => "allocs_per_op"

theorem mem_all (m : Metric) : m ∈ all := by cases m <;> decide

/-- The place of a metric's column. -/
def place : Metric → Nat
  | latency => 0
  | iterations => 1
  | bytesPerOp => 2
  | allocsPerOp => 3

instance : Ord Metric := ⟨compareOn place⟩

instance : Std.TransOrd Metric := inferInstanceAs (Std.TransCmp (compareOn place))

instance : Std.LawfulEqOrd Metric where
  eq_of_compare {a b} h := by
    have h' : compare a.place b.place = .eq := h
    have hplace : a.place = b.place := Std.LawfulEqCmp.eq_of_compare h'
    cases a <;> cases b <;> first | rfl | cases hplace

end Metric

/-- Values for some of the metrics. -/
structure Metrics where
  /-- The time, if known. -/
  latency : Option Float
  /-- The runs, if known. -/
  iterations : Option Float
  /-- The bytes, if known. -/
  bytesPerOp : Option Float
  /-- The allocations, if known. -/
  allocsPerOp : Option Float

namespace Metrics

/-- The value of one metric. -/
def get? (values : Metrics) : Metric → Option Float
  | .latency => values.latency
  | .iterations => values.iterations
  | .bytesPerOp => values.bytesPerOp
  | .allocsPerOp => values.allocsPerOp

/-- The values that an assignment gives. -/
def ofFn (f : Metric → Option Float) : Metrics :=
  ⟨f .latency, f .iterations, f .bytesPerOp, f .allocsPerOp⟩

@[simp] theorem get?_ofFn (f : Metric → Option Float) (m : Metric) :
    (ofFn f).get? m = f m := by cases m <;> rfl

/-- Values that agree on every metric are the same. -/
theorem ext_get? {a b : Metrics} (h : ∀ m, a.get? m = b.get? m) : a = b := by
  cases a; cases b
  simp only [mk.injEq]
  exact ⟨h .latency, h .iterations, h .bytesPerOp, h .allocsPerOp⟩

/-- The metrics that have a value, with it, in the order of the columns. -/
def toList (values : Metrics) : List (Metric × Float) :=
  Metric.all.filterMap fun m => (values.get? m).map fun x => (m, x)

end Metrics

end BenchReport
