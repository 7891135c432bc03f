import BenchReport.Group.Key
import BenchReport.Keyed

/-!
# Groups

Measurements with one key are averaged into a **group**. A metric has a mean only if
*every* member carries it: the mean over some of the members would be a number about
a different set of runs than its neighbours.

A mean is the sum of the members' values in their order, started at zero, divided by
their number. Addition of doubles is not associative, so the order is part of the
rule.

All groups are filled in one pass. A group that is being filled
(`BenchReport.Group.Accumulator`) counts its members and, for each metric apart, the
values; where the two counts differ at the end, some member did not carry the metric.

What is averaged is anything with a key and metrics (`BenchReport.Observation`): a
measurement, or a group that was averaged before and now counts as one observation.
-/

namespace BenchReport

/-- What can be a member of a group. -/
class Observation (α : Type) where
  /-- The group it belongs to. -/
  key : α → GroupKey
  /-- The metrics it carries. -/
  metrics : α → Metrics

instance : Observation Measurement := ⟨Measurement.key, Measurement.metrics⟩

/-- The average of all observations with one key. -/
structure Group where
  /-- The key they share. -/
  key : GroupKey
  /-- The means of the metrics that all of them carry. -/
  means : Metrics
  /-- How many they are. -/
  size : Nat

instance : Observation Group := ⟨Group.key, Group.means⟩

namespace Group

/-- The mean latency, if all members have a latency. -/
def latency? (g : Group) : Option Float := g.means.get? .latency

/-- A size as a double. -/
def sizeFloat (n : Nat) : Float := n.toUInt64.toFloat

/-! ### Averaging -/

/-- What the values of a metric come to. -/
structure Total where
  /-- Their sum. -/
  sum : Float
  /-- How many they are. -/
  count : Nat

namespace Total

/-- The total of no value at all. -/
def zero : Total := ⟨0, 0⟩

/-- The total with one more value. -/
def add (t : Total) (value : Float) : Total := ⟨t.sum + value, t.count + 1⟩

end Total

/-- A group while its members come in. -/
structure Accumulator where
  /-- How many members have come in. -/
  members : Nat
  /-- The total of every metric that one of them carried. -/
  totals : List (Metric × Total)

namespace Accumulator

/-- No member yet. -/
def empty : Accumulator := ⟨0, []⟩

/-- Takes in the metrics of one member. -/
def add (acc : Accumulator) (metrics : Metrics) : Accumulator where
  members := acc.members + 1
  totals := metrics.toList.foldl
    (Keyed.insertWith Prod.fst .zero fun t entry => t.add entry.2) acc.totals

/-- The mean of a metric, if all members carried it. -/
def mean? (acc : Accumulator) (metric : Metric) : Option Float :=
  match Keyed.get? metric acc.totals with
  | none => none
  | some t => if t.count = acc.members then some (t.sum / sizeFloat t.count) else none

/-- The group once all members have come in. -/
def finish (key : GroupKey) (acc : Accumulator) : Group := ⟨key, .ofFn acc.mean?, acc.members⟩

end Accumulator

section

variable {α : Type} [Observation α]

/-- Takes one observation into the group that it belongs to. -/
def take : List (GroupKey × Accumulator) → α → List (GroupKey × Accumulator) :=
  Keyed.insertWith Observation.key .empty fun acc o => acc.add (Observation.metrics o)

/-- The groups of a list of observations, sorted by key. -/
def aggregate (observations : List α) : List Group :=
  (observations.foldl take []).map fun entry => entry.2.finish entry.1

end

end Group

end BenchReport
