import BenchReport.Group.Basic

/-!
# Box plots

A **box plot** sums up a list of latencies: the extremes, the three quartiles, the
mean, and whiskers that leave the outliers out. A quartile that falls between two
samples is interpolated between them. A sample is an outlier if it lies more than one
and a half times the distance of the outer quartiles beyond them.

Samples are sorted first, by the total order of doubles – in which the negative zero
comes before the positive one – and nothing after that looks at the list that was
given. So a box plot depends on *which* samples there are and not on their order,
down to the last bit of the mean. A sample that is no number has no place in an order,
and a list that holds one has no box plot.
-/

namespace BenchReport

/-! ### The total order of doubles -/

/-- The rank of a double in the total order: the bits read as a number in which the
negative ones run backwards. -/
def floatRank (x : Float) : Nat :=
  let bits := x.toBits.toNat
  -- the sign is the uppermost bit
  if bits < 0x8000000000000000 then bits + 0x8000000000000000 else UInt64.size - 1 - bits

/-- Whether a double comes no later than another in the total order. -/
def floatLe (x y : Float) : Bool := floatRank x ≤ floatRank y

/-- The samples in ascending order. -/
def sortSamples (samples : List Float) : List Float := samples.mergeSort floatLe

/-! ### Box plots -/

/-- A summary of a list of latencies. -/
structure BoxPlot where
  /-- How many samples there are. -/
  count : Nat
  /-- The least sample. -/
  min : Float
  /-- The lower quartile. -/
  q1 : Float
  /-- The median. -/
  median : Float
  /-- The upper quartile. -/
  q3 : Float
  /-- The greatest sample. -/
  max : Float
  /-- The mean. -/
  mean : Float
  /-- The least sample that is no outlier. -/
  lowerWhisker : Float
  /-- The greatest sample that is no outlier. -/
  upperWhisker : Float
  /-- How many outliers there are. -/
  outliers : Nat

namespace BoxPlot

/-- How far beyond a quartile a sample may lie, as a multiple of the distance between
the outer quartiles. -/
def reach : Float := 1.5

/-- The value at a share `p` of the way through a sorted list, interpolated between
the two samples around it. -/
def percentile (sorted : Array Float) (p : Float) : Float :=
  let rank := p * Group.sizeFloat (sorted.size - 1)
  let below := rank.toUInt64.toNat
  let share := rank - Group.sizeFloat below
  -- a rank that falls on a sample needs no other, and the last one has none above it
  let above := if share == 0 then below else below + 1
  let low := sorted.getD below 0
  low + (sorted.getD above 0 - low) * share

/-- The box plot of sorted samples, of which there is at least one. -/
def ofSorted (samples : List Float) : BoxPlot :=
  let sorted := samples.toArray
  let q1 := percentile sorted 0.25
  let q3 := percentile sorted 0.75
  let spread := q3 - q1
  let low := q1 - reach * spread
  let high := q3 + reach * spread
  let inside := samples.filter fun x => low ≤ x && x ≤ high
  { count := samples.length
    min := sorted.getD 0 0
    q1
    median := percentile sorted 0.5
    q3
    max := sorted.getD (sorted.size - 1) 0
    mean := samples.foldl (· + ·) (-0.0) / Group.sizeFloat samples.length
    lowerWhisker := inside.head?.getD q1
    upperWhisker := inside.getLast?.getD q3
    outliers := samples.length - inside.length }

/-- The box plot of a list of samples, if it is not empty and all are numbers. -/
def ofSamples? (samples : List Float) : Option BoxPlot :=
  if samples.isEmpty || samples.any Float.isNaN then none
  else some (ofSorted (sortSamples samples))

/-- The box plot of each group of measurements that has one, sorted by key. -/
def ofMeasurements (measurements : List Measurement) : List (GroupKey × BoxPlot) :=
  (Keyed.groupBy Measurement.key measurements).filterMap fun entry =>
    (ofSamples? (entry.2.map Measurement.latency)).map fun plot => (entry.1, plot)

end BoxPlot

end BenchReport
