import BenchReport.Event
import BenchReport.Group.Basic

/-!
# Rates

From an averaged group two rates are derived. The **stream rate** says how many items
arrive in a second; it is the inverse of the inter-arrival time, which one of the
parameters holds. The **processing rate** says how many items the benchmark gets
through in a second; it is the work of one operation over its latency, times two
factors that the setting may give.

Not every group has rates. `BenchReport.Rate.derive` looks for the obstacles in a
fixed order: a missing latency is an error of the whole, then a time between arrivals
that is not positive, a latency of zero and a missing scaling parameter are reasons to
skip the group.
-/

namespace BenchReport

/-- The unit of the time between two arrivals. -/
inductive ArrivalUnit where
  /-- Nanoseconds. -/
  | nanoseconds
  /-- Microseconds. -/
  | microseconds
  deriving DecidableEq, Repr

namespace ArrivalUnit

/-- How many of the unit make a second. -/
def perSecond : ArrivalUnit → Float
  | nanoseconds => 1e9
  | microseconds => 1e6

/-- The name of a unit. -/
def name : ArrivalUnit → String
  | nanoseconds => "nanoseconds"
  | microseconds => "microseconds"

/-- The unit of a name. -/
def ofName? (name : String) : Option ArrivalUnit :=
  [nanoseconds, microseconds].find? fun unit => unit.name = name

end ArrivalUnit

/-- How rates are derived. -/
structure RateConfig where
  /-- The items that one operation works through. -/
  workload : Float
  /-- A factor of the processing rate. -/
  factor : Float
  /-- The parameter that holds the time between arrivals. -/
  arrivalParameter : String
  /-- The unit of that time. -/
  arrivalUnit : ArrivalUnit
  /-- A parameter whose value is another factor of the processing rate. -/
  scaleBy : Option String

namespace RateConfig

/-- The parameter that usually holds the time between arrivals. -/
def defaultArrivalParameter : String := "StreamRate"

/-- One item to an operation and no further factor. -/
def default : RateConfig := ⟨1, 1, defaultArrivalParameter, .nanoseconds, none⟩

end RateConfig

/-- A group's rates. -/
structure DerivedRates where
  /-- The group. -/
  key : GroupKey
  /-- Items that arrive in a second, if the time between arrivals is known. -/
  streamRate : Option Float
  /-- Items that are worked through in a second. -/
  processingRate : Float

/-- Why a group has no rates. -/
inductive SkipReason where
  /-- The time between arrivals is zero or less. -/
  | nonPositiveArrival (value : Int64)
  /-- The mean latency is zero. -/
  | zeroLatency
  /-- The group has no parameter of the name to scale by. -/
  | missingScale (parameter : String)
  /-- The group's sources use different units. -/
  | mixedUnits
  deriving DecidableEq, Repr

/-- The wording of a reason. -/
def SkipReason.message : SkipReason → String
  | nonPositiveArrival value =>
    "inter-arrival time " ++ Text.showSigned value ++ " is not positive"
  | zeroLatency => "averaged latency is zero"
  | missingScale parameter => "scaling parameter '" ++ parameter ++ "' is missing"
  | mixedUnits => "sources disagree on the inter-arrival unit"

/-- A group without a mean latency, of which no rate can be derived. -/
structure MissingLatency where
  /-- The printed key of the group. -/
  group : String
  deriving DecidableEq, Repr

/-- The wording of a missing latency. -/
def MissingLatency.message (e : MissingLatency) : String :=
  "Group '" ++ e.group ++ "' has no averaged latency metric"

/-- The groups with rates and the groups without. -/
structure RateTable where
  /-- The rates, in the order of the groups. -/
  derived : List DerivedRates
  /-- The skipped groups with the reasons, in their order. -/
  skipped : List (GroupKey × SkipReason)

namespace Rate

/-- A signed integer as a double. -/
def signedFloat (n : Int64) : Float :=
  if n < 0 then -(n.toInt.natAbs.toUInt64.toFloat) else n.toInt.natAbs.toUInt64.toFloat

/-- The factor that the scaling parameter gives. -/
def scale (config : RateConfig) (key : GroupKey) : Except SkipReason Float :=
  match config.scaleBy with
  | none => .ok 1
  | some parameter =>
    match key.parameter? parameter with
    | some value => .ok (signedFloat value)
    | none => .error (.missingScale parameter)

/-- The stream rate that the time between arrivals gives. -/
def streamRate (config : RateConfig) (key : GroupKey) : Except SkipReason (Option Float) :=
  match key.parameter? config.arrivalParameter with
  | none => .ok none
  | some value =>
    if value ≤ 0 then .error (.nonPositiveArrival value)
    else .ok (some (config.arrivalUnit.perSecond / signedFloat value))

/-- The rates of a key with the given mean latency, or the reason why it has none. -/
def ofLatency (config : RateConfig) (key : GroupKey) (latency : Float) :
    Except SkipReason DerivedRates := do
  let streamRate ← streamRate config key
  if latency == 0 then .error .zeroLatency
  else
    let scale ← scale config key
    return ⟨key, streamRate, config.workload / latency * 1000 * config.factor * scale⟩

/-- The rates of a group, or the reason why it has none. -/
def derive (config : RateConfig) (g : Group) :
    Except MissingLatency (Except SkipReason DerivedRates) :=
  match g.latency? with
  | none => .error ⟨g.key.spell⟩
  | some latency => .ok (ofLatency config g.key latency)

/-- A table of outcomes, in their order. -/
def table (outcomes : List (GroupKey × Except SkipReason DerivedRates)) : RateTable where
  derived := outcomes.filterMap fun outcome => outcome.2.toOption
  skipped := outcomes.filterMap fun outcome =>
    match outcome.2 with
    | .ok _ => none
    | .error reason => some (outcome.1, reason)

/-- The outcomes of a list of groups, up to the first without a latency. -/
def outcomes (config : RateConfig) :
    List Group → Except MissingLatency (List (GroupKey × Except SkipReason DerivedRates))
  | [] => .ok []
  | g :: rest =>
    match derive config g with
    | .error e => .error e
    | .ok outcome =>
      match outcomes config rest with
      | .error e => .error e
      | .ok others => .ok ((g.key, outcome) :: others)

/-- The rates of a list of groups. -/
def deriveAll (config : RateConfig) (groups : List Group) : Except MissingLatency RateTable :=
  match outcomes config groups with
  | .error e => .error e
  | .ok found => .ok (table found)

/-- What is told about a group that is skipped. -/
def skipEvent (key : GroupKey) (reason : SkipReason) : Event :=
  .debug "skipping group" [("group", .text key.spell), ("reason", .text reason.message)]

/-- What is told about a list of groups: the skipped ones, up to the first without a
latency. -/
def events (config : RateConfig) : List Group → List Event
  | [] => []
  | g :: rest =>
    match derive config g with
    | .error _ => []
    | .ok (.error reason) => skipEvent g.key reason :: events config rest
    | .ok (.ok _) => events config rest

end Rate

end BenchReport
