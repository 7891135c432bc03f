import BenchReport.Command.Arguments
import BenchReport.Command.Reports
import BenchReport.Command.Workloads

/-!
# Invocations

An **invocation** is a command with all it needs. `BenchReport.Invocation.ofArguments`
reads it from the arguments of a call, and `BenchReport.Invocation.perform` says what it
does in a setting. Whatever the second says holds of an invocation however it was
written.

Commands are found by their names. One name stands for a group of commands and is
followed by the name of one of them. A group knows the command `help` besides its own,
which takes the names of the command to be explained.
-/

namespace BenchReport

/-- A command with what it needs. -/
inductive Invocation where
  /-- Prints a report. -/
  | parse (file : String) (paired : Bool) (name : Option String) (json : Bool)
  /-- Writes the groups of reports. -/
  | aggregate (files : List String) (format : OutputFormat) (output : Option String)
  /-- Writes the rates of reports. -/
  | rates (files : List String) (config : RateConfig) (format : OutputFormat)
      (caption : String) (output : Option String)
  /-- Prints the box plots of a latency report. -/
  | latency (file : String) (name : Option String)
  /-- Writes what a manifest asks for. -/
  | run (manifest : String) (workload : Option Float) (format : Option OutputFormat)
      (output : Option String)
  /-- Draws a workload. -/
  | generate (output : String) (config : ZipfConfig) (seed : Option UInt64) (analysed : Bool)
  /-- Prints the analysis of a data set. -/
  | analyze (file : String) (top : Nat) (column : String)
  /-- Counts rows of a data set. -/
  | count (file column value : String)

namespace Invocation

/-- What an invocation does. -/
def perform (s : Setting) : Invocation → Outcome
  | parse file paired name json => Command.parse s file paired name json
  | aggregate files format output => Command.aggregate s files format output
  | rates files config format caption output =>
    Command.rates s files config format caption output
  | latency file name => Command.latency s file name
  | run manifest workload format output => Command.run s manifest workload format output
  | generate output config seed analysed => Command.generate s output config seed analysed
  | analyze file top column => Command.analyze s file top column
  | count file column value => Command.count s file column value

/-- The files that an invocation names itself. -/
def namedFiles : Invocation → List String
  | parse file _ _ _ => [file]
  | aggregate files _ _ => files
  | rates files _ _ _ _ => files
  | latency file _ => [file]
  | run manifest _ _ _ => [manifest]
  | generate _ _ _ _ => []
  | analyze file _ _ => [file]
  | count file _ _ => [file]

/-- The files that the manifest of an invocation names, once it can be seen. -/
def manifestFiles (s : Setting) : Invocation → List String
  | run manifest _ _ _ =>
    match Command.manifestAt s manifest with
    | .ok m => m.sources.map Source.path
    | .error _ => []
  | _ => []

/-! ### From arguments -/

/-- The only argument with a place. -/
def onlyFile (a : Arguments) : Except UsageFault String :=
  match a.placed with
  | [file] => .ok file
  | _ => .error (.missingArgument "FILE")

/-- The arguments with a place, of which there has to be one. -/
def someFiles (a : Arguments) : Except UsageFault (List String) :=
  if a.placed.isEmpty then .error (.missingArgument "FILE") else .ok a.placed

/-- The value of an option that has to be given. -/
def needed {α : Type} (word : String) : Option α → Except UsageFault α
  | some a => .ok a
  | none => .error (.missingArgument ("--" ++ word))

/-- The form of `parse`. -/
def parseForm : CommandForm where
  options := [.help, .flag "paired", .long "name" .text, .flag "json"]
  places := .exactly 1

/-- Reads the arguments of `parse`. A name is for paired reports only. -/
def ofParse (a : Arguments) : Except UsageFault Invocation := do
  let file ← onlyFile a
  if a.has "name" && !a.has "paired" then .error (.missingArgument "--paired")
  else return parse file (a.has "paired") (a.text? "name") (a.has "json")

/-- The form of `aggregate`. -/
def aggregateForm : CommandForm where
  options := [.help, .short 'f' "format" .format, .short 'o' "output" .text]
  places := .any

/-- Reads the arguments of `aggregate`. -/
def ofAggregate (a : Arguments) : Except UsageFault Invocation := do
  let files ← someFiles a
  return aggregate files ((a.format? "format").getD .csv) (a.text? "output")

/-- The form of `rates`. -/
def ratesForm : CommandForm where
  options :=
    [.help, .short 'w' "workload-size" .decimal, .long "factor" .decimal,
      .long "scale-by" .text, .long "inter-arrival-param" .text, .flag "micros",
      .short 'o' "output" .text, .flag "latex", .long "caption" .text]
  places := .any

/-- Reads the arguments of `rates`. -/
def ofRates (a : Arguments) : Except UsageFault Invocation := do
  let files ← someFiles a
  let workload ← needed "workload-size" (a.decimal? "workload-size")
  let base := RateConfig.default
  let config : RateConfig :=
    { workload
      factor := (a.decimal? "factor").getD base.factor
      arrivalParameter := (a.text? "inter-arrival-param").getD base.arrivalParameter
      arrivalUnit := if a.has "micros" then .microseconds else .nanoseconds
      scaleBy := a.text? "scale-by" }
  let format := if a.has "latex" then OutputFormat.latex else .csv
  return rates files config format ((a.text? "caption").getD Command.manifestCaption)
    (a.text? "output")

/-- The form of `latency`. -/
def latencyForm : CommandForm where
  options := [.help, .long "name" .text]
  places := .exactly 1

/-- Reads the arguments of `latency`. -/
def ofLatency (a : Arguments) : Except UsageFault Invocation := do
  let file ← onlyFile a
  return latency file (a.text? "name")

/-- The form of `run`. -/
def runForm : CommandForm where
  options :=
    [.help, .short 'm' "manifest" .text, .long "workload-size" .decimal,
      .short 'f' "format" .format, .short 'o' "output" .text]
  places := .exactly 0

/-- Reads the arguments of `run`. -/
def ofRun (a : Arguments) : Except UsageFault Invocation := do
  let manifest ← needed "manifest" (a.text? "manifest")
  return run manifest (a.decimal? "workload-size") (a.format? "format") (a.text? "output")

/-- The form of `zipf generate`. -/
def generateForm : CommandForm where
  options :=
    [.help, .short 'o' "output" .text, .short 's' "size" .count,
      .short 'd' "distinct" .count, .short 'z' "skew" .decimal, .long "seed" .count,
      .flag "analyze"]
  places := .exactly 0

/-- A million items, a quarter of a million of them different. -/
def defaultWorkload : ZipfConfig := ⟨1000000, 250000, 1.5⟩

/-- Reads the arguments of `zipf generate`. -/
def ofGenerate (a : Arguments) : Except UsageFault Invocation := do
  let output ← needed "output" (a.text? "output")
  let config : ZipfConfig :=
    { size := ((a.count? "size").map UInt64.toNat).getD defaultWorkload.size
      distinct := (a.count? "distinct").getD defaultWorkload.distinct
      skew := (a.decimal? "skew").getD defaultWorkload.skew }
  return generate output config (a.count? "seed") (a.has "analyze")

/-- The form of `zipf analyze`. -/
def analyzeForm : CommandForm where
  options := [.help, .long "top" .count, .long "column" .text]
  places := .exactly 1

/-- Reads the arguments of `zipf analyze`. -/
def ofAnalyze (a : Arguments) : Except UsageFault Invocation := do
  let file ← onlyFile a
  return analyze file (((a.count? "top").map UInt64.toNat).getD Command.listedItems)
    ((a.text? "column").getD Dataset.itemColumn)

/-- The form of `count`. -/
def countForm : CommandForm where
  options := [.help]
  places := .exactly 3

/-- Reads the arguments of `count`. -/
def ofCount (a : Arguments) : Except UsageFault Invocation :=
  match a.placed with
  | [file, column, value] => .ok (count file column value)
  | [_, _] => .error (.missingArgument "VALUE")
  | [_] => .error (.missingArgument "COLUMN")
  | _ => .error (.missingArgument "CSV")

end Invocation

/-! ### Names of commands -/

/-- Commands by their names. -/
inductive CommandTree where
  /-- A command: its form, and how an invocation is made of its arguments. -/
  | leaf (form : CommandForm) (build : Arguments → Except UsageFault Invocation)
  /-- A group of commands, which has flags of its own. -/
  | group (flags : List OptionForm) (members : List (String × CommandTree))

namespace CommandTree

/-- The command of a group that explains the others. -/
def helpName : String := "help"

/-- What comes of asking for help on a command by its names. The command that gives
help has no commands of its own. -/
def explain : CommandTree → List String → UsageFault
  | _, [] => .help
  | leaf _ _, name :: _ => .unknownCommand name
  | group _ members, name :: rest =>
    match members.lookup name with
    | some member => member.explain rest
    | none =>
      match rest with
      | [] => if name = helpName then .help else .unknownCommand name
      | other :: _ => .unknownCommand (if name = helpName then other else name)

/-- What comes of an argument in the place of a command's name behind two dashes that
stand alone: names are not looked for there. -/
def misplaced (members : List (String × CommandTree)) : List String → UsageFault
  | [] => .missingCommand
  | name :: _ =>
    if name = helpName || (members.lookup name).isSome then .unknownArgument name
    else .unknownCommand name

/-- The invocation that arguments make. -/
def parse : CommandTree → List String → Except UsageFault Invocation
  | leaf form build, arguments => (form.scan arguments).bind build
  | group _ _, [] => .error .missingCommand
  | group flags members, argument :: rest =>
    match Look.of argument with
    | .escape => .error (misplaced members rest)
    | .long word attached =>
      match Scan.start.long flags word attached with
      | .error fault => .error fault
      | .ok _ => (group flags members).parse rest
    | .letters cs =>
      match Scan.start.letters flags cs with
      | .error fault => .error fault
      | .ok _ => (group flags members).parse rest
    | .plain =>
      match members.lookup argument with
      | some member => member.parse rest
      | none =>
        if argument = helpName then .error ((group flags members).explain rest)
        else .error (.unknownCommand argument)
termination_by structural _ arguments => arguments

end CommandTree

namespace Invocation

/-- All commands. -/
def commands : CommandTree :=
  .group [.help, .version]
    [("parse", .leaf parseForm ofParse), ("aggregate", .leaf aggregateForm ofAggregate),
      ("rates", .leaf ratesForm ofRates), ("latency", .leaf latencyForm ofLatency),
      ("run", .leaf runForm ofRun),
      ("zipf", .group [.help]
        [("generate", .leaf generateForm ofGenerate), ("analyze", .leaf analyzeForm ofAnalyze)]),
      ("count", .leaf countForm ofCount)]

/-- The invocation that the arguments of a call make. -/
def ofArguments (arguments : List String) : Except UsageFault Invocation :=
  commands.parse arguments

end Invocation

end BenchReport
