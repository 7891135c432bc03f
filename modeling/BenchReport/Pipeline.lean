import BenchReport.Source

/-!
# From sources to rates

The whole chain over several sources: load each, put what was read together in the
order of the sources, group it, and derive the rates of every group. A source that
cannot be read is reported beside the others and contributes nothing; it does not
stop them.

Sources may state their times between arrivals in different units, and a group may
have members from several sources. The unit of a group is therefore decided **by its
members**: if the sources of all of them use one unit, that unit is it, whatever the
setting says, and if they disagree the group has no rates.
-/

namespace BenchReport

/-- What came of a source. -/
structure Loaded where
  /-- The source. -/
  source : Source
  /-- Its report, or why there is none. -/
  result : Except SourceFault Report

namespace Loaded

/-- Loads a source. -/
def ofSource (view : FileView) (options : ReadOptions) (s : Source) : Loaded :=
  ⟨s, s.load view options⟩

/-- The report of a readable source. -/
def report? (l : Loaded) : Option Report := l.result.toOption

/-- What a source says about the units of its groups: one statement for each of its
measurements. -/
def unitsByKey (l : Loaded) : List (GroupKey × ArrivalUnit) :=
  match l.result with
  | .error _ => []
  | .ok report => report.measurements.map fun m => (m.key, l.source.arrivalUnit)

end Loaded

/-- What came of a list of sources. -/
structure PipelineResult where
  /-- Each source's name with what became of its lines, or why it was not read. -/
  sources : List (String × Except SourceFault Tally)
  /-- The metadata of all sources; a later source's value stands. -/
  metadata : Metadata
  /-- The footnotes of all sources. -/
  footnotes : List String
  /-- The measurements of all sources. -/
  measurements : List Measurement
  /-- Their groups. -/
  groups : List Group
  /-- The rates of the groups. -/
  rates : RateTable

namespace PipelineResult

/-- The sources that could not be read. -/
def failed (r : PipelineResult) : List String :=
  r.sources.filterMap fun entry =>
    match entry.2 with
    | .ok _ => none
    | .error _ => some entry.1

/-- What became of the lines of all readable sources. -/
def total (r : PipelineResult) : Tally :=
  Tally.sum (r.sources.filterMap fun entry => entry.2.toOption)

end PipelineResult

namespace Pipeline

/-! ### Putting reports together -/

/-- What became of each source. -/
def outcomes (loaded : List Loaded) : List (String × Except SourceFault Tally) :=
  loaded.map fun l => (l.source.name, l.result.map Report.tally)

/-- The reports of the readable sources. -/
def reports (loaded : List Loaded) : List Report := loaded.filterMap Loaded.report?

/-- The measurements of the readable sources. -/
def measurements (loaded : List Loaded) : List Measurement :=
  (reports loaded).flatMap Report.measurements

/-- The metadata of the readable sources. -/
def metadata (loaded : List Loaded) : Metadata :=
  (reports loaded).foldl (fun known report => Keyed.union known report.metadata) []

/-! ### The unit of a group -/

/-- The unit that a list of statements agrees on. Without any statement it is
nanoseconds. -/
def agreedUnit? : List ArrivalUnit → Option ArrivalUnit
  | [] => some .nanoseconds
  | unit :: others => if others.all (· = unit) then some unit else none

/-- The statements about the unit of each group. -/
def unitStatements (loaded : List Loaded) : List (GroupKey × List (GroupKey × ArrivalUnit)) :=
  Keyed.groupBy Prod.fst (loaded.flatMap Loaded.unitsByKey)

/-- The statements about the unit of one group. -/
def unitsOf (statements : List (GroupKey × List (GroupKey × ArrivalUnit))) (key : GroupKey) :
    List ArrivalUnit :=
  ((Keyed.get? key statements).getD []).map Prod.snd

/-! ### Rates -/

/-- The rates of a group in its own unit. -/
def derive (config : RateConfig) (units : List ArrivalUnit) (g : Group) :
    Except MissingLatency (Except SkipReason DerivedRates) :=
  match agreedUnit? units with
  -- no rate is tried, so not even a missing latency is an error here
  | none => .ok (.error .mixedUnits)
  | some unit => Rate.derive { config with arrivalUnit := unit } g

/-- The outcomes of a list of groups, up to the first without a latency. -/
def deriveAll (config : RateConfig) (unitsOf : GroupKey → List ArrivalUnit) :
    List Group → Except MissingLatency (List (GroupKey × Except SkipReason DerivedRates))
  | [] => .ok []
  | g :: rest =>
    match derive config (unitsOf g.key) g with
    | .error e => .error e
    | .ok outcome =>
      match deriveAll config unitsOf rest with
      | .error e => .error e
      | .ok others => .ok ((g.key, outcome) :: others)

/-- What is told about a list of groups. -/
def groupEvents (config : RateConfig) (unitsOf : GroupKey → List ArrivalUnit) :
    List Group → List Event
  | [] => []
  | g :: rest =>
    match derive config (unitsOf g.key) g with
    | .error _ => []
    | .ok (.error .mixedUnits) =>
      .debug SkipReason.mixedUnits.message [("group", .text g.key.spell)] ::
        groupEvents config unitsOf rest
    | .ok (.error reason) => Rate.skipEvent g.key reason :: groupEvents config unitsOf rest
    | .ok (.ok _) => groupEvents config unitsOf rest

/-! ### The chain -/

/-- What comes of sources that have been loaded. -/
def ofLoaded (config : RateConfig) (loaded : List Loaded) :
    Except MissingLatency PipelineResult :=
  let measurements := measurements loaded
  let groups := Group.aggregate measurements
  match deriveAll config (unitsOf (unitStatements loaded)) groups with
  | .error e => .error e
  | .ok found =>
    .ok
      { sources := outcomes loaded
        metadata := metadata loaded
        footnotes := (reports loaded).flatMap Report.footnotes
        measurements
        groups
        rates := Rate.table found }

/-- What comes of a list of sources. -/
def run (view : FileView) (options : ReadOptions) (config : RateConfig)
    (sources : List Source) : Except MissingLatency PipelineResult :=
  ofLoaded config (sources.map (Loaded.ofSource view options))

/-- What is told on the way: first about every source, then about the groups. -/
def events (view : FileView) (options : ReadOptions) (config : RateConfig)
    (sources : List Source) : List Event :=
  let loaded := sources.map (Loaded.ofSource view options)
  sources.flatMap (Source.loadEventsAmong view options) ++
    groupEvents config (unitsOf (unitStatements loaded)) (Group.aggregate (measurements loaded))

end Pipeline

end BenchReport
