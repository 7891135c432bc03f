import BenchReport.Command.Outcome
import BenchReport.Document
import BenchReport.Listing
import BenchReport.Pipeline

/-!
# Commands on reports

`parse` and `latency` look at one report. `aggregate`, `rates` and `run` put several
together and write one result: the groups of the sources, or the rates derived from
them. What the sources are is said by paths, or by a manifest.

The three that write a result end in one way (`BenchReport.Command.deliver`): the result
is rendered before anything is written, so that what cannot be rendered leaves no trace;
then it goes to its destination, complete; and at last each source is reported, and the
command fails if one of them could not be read.
-/

namespace BenchReport.Command

/-! ### Sources -/

/-- The source at a path, named by the path's stem. -/
def sourceAt (path : String) : Source := .ofPath ((Path.stem? path).getD path) path

/-- What is reported about a source. -/
def sourceLine (outcome : String × Except SourceFault Tally) : String :=
  match outcome.2 with
  | .ok tally =>
    "✓ " ++ outcome.1 ++ ": " ++ Nat.repr tally.records ++ " record(s), " ++
      Nat.repr tally.skipped ++ " line(s) skipped"
  | .error fault => "✗ " ++ outcome.1 ++ ": " ++ fault.message

/-- How many sources could not be read. -/
def failedCount (outcomes : List (String × Except SourceFault Tally)) : Nat :=
  (outcomes.filter fun outcome => outcome.2.toOption.isNone).length

/-- The fault of a command some of whose sources could not be read. -/
def sourcesFault? (outcomes : List (String × Except SourceFault Tally)) :
    Option CommandFault :=
  let failed := failedCount outcomes
  if failed = 0 then none else some (.sourcesFailed failed outcomes.length)

/-! ### Results -/

/-- A result that is ready to be written. -/
structure Rendered where
  /-- Its text. -/
  content : String
  /-- What is reported once it is written. -/
  note : String

/-- Brings a result to its destination – a file, or what is printed – and reports the
sources. -/
def deliver (files : FileView) (output : Option String)
    (outcomes : List (String × Except SourceFault Tally)) (events : List Event)
    (result : Except CommandFault Rendered) : Outcome :=
  match result with
  | .error fault => .failed fault events
  | .ok rendered =>
    let reported := rendered.note ++ linesText (outcomes.map sourceLine)
    let failure := sourcesFault? outcomes
    match output with
    | none => ⟨rendered.content, reported, [], failure, events⟩
    | some path =>
      match files.createFault? path with
      -- nothing is reported about the sources of a result that cannot be kept
      | some fault => .failed (.file path fault.message) events
      | none => ⟨"", reported, [(path, rendered.content)], failure, events⟩

/-- Renders groups. LaTeX is for rates only. -/
def renderGroups (format : OutputFormat) (groups : List Group) : Except CommandFault Rendered :=
  match format with
  | .csv =>
    match (Table.ofGroups groups).csv .default true with
    | .ok content => .ok ⟨content, ""⟩
    | .error fault => .error (.csv fault)
  | .text => .ok ⟨linesText (groups.map Group.line), ""⟩
  | .latex => .error .needsRates

/-- The text of rates. -/
def ratesText (format : OutputFormat) (caption : String) (metadata : Metadata)
    (rates : List DerivedRates) : Except CommandFault String :=
  match format with
  | .csv =>
    match (Table.ofRates rates).csv .default true with
    | .ok content => .ok content
    | .error fault => .error (.csv fault)
  | .text => .ok (linesText (rates.map DerivedRates.line))
  | .latex =>
    match LongTable.render { LongTableConfig.default with subject := caption } metadata rates with
    | .ok content => .ok (content ++ "\n")
    | .error fault => .error (.latex fault)

/-- What is reported about a table of rates. -/
def ratesNote (t : RateTable) : String :=
  "Derived " ++ Nat.repr t.derived.length ++ " group(s), skipped " ++
    Nat.repr t.skipped.length ++ "\n"

/-- Renders the rates of a pipeline. -/
def renderRates (format : OutputFormat) (caption : String) (r : PipelineResult) :
    Except CommandFault Rendered :=
  (ratesText format caption r.metadata r.rates.derived).map fun content =>
    ⟨content, ratesNote r.rates⟩

/-- What is told about the groups that a table of rates skips. -/
def skippedEvents (t : RateTable) : List Event :=
  t.skipped.map fun entry =>
    .info "group skipped"
      [("group", .text entry.1.spell), ("reason", .text entry.2.message)]

/-! ### One report -/

/-- The source of a report that is looked at by itself. -/
def singleSource (file : String) (paired : Bool) (name : Option String) : Source :=
  if paired then { sourceAt file with format := .pairedLine, benchmarkName := name }
  else sourceAt file

/-- What is reported about the lines of a report. -/
def tallyNote (t : Tally) : String :=
  "✓ " ++ Nat.repr t.records ++ " record(s) from " ++ Nat.repr t.lines ++
    " line(s); skipped " ++ Nat.repr t.skipped ++ " (no match " ++ Nat.repr t.noMatch ++
    ", malformed " ++ Nat.repr t.malformed ++ ", unknown shape " ++
    Nat.repr t.unknownShape ++ ")\n"

/-- Prints the measurements of a report, or the whole report as JSON. -/
def parse (s : Setting) (file : String) (paired : Bool) (name : Option String)
    (json : Bool) : Outcome :=
  let source := singleSource file paired name
  let events := source.loadEvents s.files s.options
  match source.load s.files s.options with
  | .error fault => .failed (.ofSource fault) events
  | .ok report =>
    .ofPrinted
      (if json then report.toJson.pretty ++ "\n"
        else linesText (report.measurements.map Measurement.line))
      (tallyNote report.tally) events

/-- Prints the box plots of a latency report. -/
def latency (s : Setting) (file : String) (name : Option String) : Outcome :=
  let source := singleSource file true name
  let events := source.loadEvents s.files s.options
  match source.load s.files s.options with
  | .error fault => .failed (.ofSource fault) events
  | .ok report =>
    let plots := BoxPlot.ofMeasurements report.measurements
    .ofPrinted (linesText (plots.map fun entry => entry.2.line entry.1))
      (if report.tally.malformed = 0 then ""
        else Nat.repr report.tally.malformed ++ " malformed line(s) skipped\n")
      events

/-! ### Several reports -/

/-- Writes the groups of several reports. -/
def aggregate (s : Setting) (files : List String) (format : OutputFormat)
    (output : Option String) : Outcome :=
  let sources := files.map sourceAt
  let loaded := sources.map (Loaded.ofSource s.files s.options)
  deliver s.files output (Pipeline.outcomes loaded)
    (sources.flatMap (Source.loadEventsAmong s.files s.options))
    (renderGroups format (Group.aggregate (Pipeline.measurements loaded)))

/-- Writes the rates of several reports, all of them with the times between arrivals in
the unit of the setting. -/
def rates (s : Setting) (files : List String) (config : RateConfig) (format : OutputFormat)
    (caption : String) (output : Option String) : Outcome :=
  let sources := files.map fun file => { sourceAt file with arrivalUnit := config.arrivalUnit }
  let events := Pipeline.events s.files s.options config sources
  match Pipeline.run s.files s.options config sources with
  | .error fault => .failed (.rates fault) events
  | .ok r =>
    deliver s.files output r.sources (events ++ skippedEvents r.rates)
      (renderRates format caption r)

/-! ### Manifests -/

/-- The manifest at a path. -/
def manifestAt (s : Setting) (path : String) : Except CommandFault Manifest :=
  match s.text path with
  | .error fault => .error fault
  | .ok text =>
    match Manifest.read s.readYaml text with
    | .error fault => .error (.manifest path fault)
    | .ok m => .ok (m.resolveAt path)

/-- How rates are derived for a manifest when a workload size may be given beside it:
it takes the place of the manifest's, and calls for rates where the manifest does not. -/
def ratesOf (m : Manifest) (workload : Option Float) : Option RateConfig :=
  match workload with
  | none => m.rates
  | some workload => some { m.rates.getD .default with workload }

/-- What the caption of a manifest's table names. -/
def manifestCaption : String := "Throughput"

/-- Writes what a manifest asks for. -/
def runManifest (s : Setting) (m : Manifest) (workload : Option Float)
    (format : Option OutputFormat) (output : Option String) : Outcome :=
  let format := (format <|> m.format).getD .csv
  let output := output <|> m.output
  let options := { s.options with nameStart := m.nameStart }
  let config := ratesOf m workload
  let events := Pipeline.events s.files options (config.getD .default) m.sources
  match Pipeline.run s.files options (config.getD .default) m.sources with
  | .error fault => .failed (.rates fault) events
  | .ok r =>
    match config with
    | some _ =>
      deliver s.files output r.sources (events ++ skippedEvents r.rates)
        (renderRates format manifestCaption r)
    | none => deliver s.files output r.sources events (renderGroups format r.groups)

/-- Writes what the manifest at a path asks for. -/
def run (s : Setting) (path : String) (workload : Option Float)
    (format : Option OutputFormat) (output : Option String) : Outcome :=
  match manifestAt s path with
  | .error fault => .failed fault []
  | .ok m => runManifest s m workload format output

end BenchReport.Command
