import BenchReport.Files.Path
import BenchReport.OutputFormat
import BenchReport.ResultLine
import BenchReport.Source
import BenchReport.Yaml.Basic

/-!
# Manifests

A **manifest** is a document that names the sources of an evaluation and says what is
made of them: with which setting rates are derived, in which format the result is
written, and where to.

It is read in three steps. The text is read as a document, the document as a manifest
(`BenchReport.Manifest.ofYaml?`), and the manifest is checked
(`BenchReport.Manifest.fault?`): it has to list a source, and no two sources may have
one name. Until here paths stand as they were written; for use they are taken relative
to the folder of the manifest (`BenchReport.Manifest.resolve`).

Nothing is settled here about the first step. How a document is written is the concern of
whoever reads it, and all that is said of manifests holds for every reader.

The document itself and its section on rates admit the fields below and no others. A
source may have further fields, which mean nothing. No mapping gives one of its fields
twice. A field that may be left out may also stand for nothing, save those for which a
source names one of several forms.
-/

namespace BenchReport

/-- Which sources there are and what is made of them. -/
structure Manifest where
  /-- The sources, in order. -/
  sources : List Source
  /-- How rates are derived, if they are. -/
  rates : Option RateConfig
  /-- The format of the result, if one is named. -/
  format : Option OutputFormat
  /-- The file that the result goes to, if one is named. -/
  output : Option String
  /-- The beginning that is dropped from benchmark names. -/
  nameStart : Option String

/-- Why a manifest cannot be used. -/
inductive ManifestFault where
  /-- The text is no document, or the document no manifest. -/
  | malformed
  /-- No source is listed. -/
  | noSources
  /-- Two sources have this name. -/
  | repeatedName (name : String)
  deriving DecidableEq, Repr

/-- The wording of a fault. -/
def ManifestFault.message : ManifestFault → String
  | malformed => "the document does not have the form of a manifest"
  | noSources => "no sources listed"
  | repeatedName name => "source name '" ++ name ++ "' is used twice"

/-! ### Fields of a mapping -/

/-- The fields of a mapping by their names. -/
abbrev Fields := List (String × Yaml)

namespace Fields

variable {α : Type}

/-- An entry of a mapping under the text of its key. -/
def ofEntry? (entry : Yaml × Yaml) : Option (String × Yaml) :=
  entry.1.text?.map fun name => (name, entry.2)

/-- Whether a field is given more than once. -/
def repeats (fields : Fields) (name : String) : Bool :=
  1 < (fields.filter fun field => field.1 = name).length

/-- The fields of a node that is a mapping, none of the `known` ones given twice. -/
def ofYaml? (known : List String) : Yaml → Option Fields
  | .mapping entries => (entries.mapM ofEntry?).filter fun fields => !known.any fields.repeats
  | _ => none

/-- The same, all fields being `known` ones. -/
def ofClosedYaml? (known : List String) (node : Yaml) : Option Fields :=
  (ofYaml? known node).filter fun fields => fields.all fun field => known.contains field.1

/-- A field that has to be there. -/
def required? (read : Yaml → Option α) (fields : Fields) (name : String) : Option α :=
  (fields.lookup name).bind read

/-- A field that may be left out for a default. -/
def withDefault? (default : α) (read : Yaml → Option α) (fields : Fields) (name : String) :
    Option α :=
  match fields.lookup name with
  | none => some default
  | some node => read node

/-- What may stand for nothing. -/
def nullable (read : Yaml → Option α) (node : Yaml) : Option (Option α) :=
  if node.isNull then some none else (read node).map some

/-- A field that may be left out, or stand for nothing. -/
def optional? (read : Yaml → Option α) (fields : Fields) (name : String) :
    Option (Option α) :=
  withDefault? none (nullable read) fields name

end Fields

/-! ### Reading the sections -/

namespace Manifest

/-- One of several words. -/
def word? {α : Type} (ofName? : String → Option α) (node : Yaml) : Option α :=
  node.text?.bind ofName?

/-- The fields of a source. -/
def sourceFields : List String :=
  ["name", "path", "format", "inter_arrival_unit", "benchmark_name"]

/-- A source. -/
def source? (node : Yaml) : Option Source := do
  let fields ← Fields.ofYaml? sourceFields node
  let name ← fields.required? Yaml.text? "name"
  let path ← fields.required? Yaml.text? "path"
  let format ← fields.withDefault? .singleLine (word? ReportFormat.ofName?) "format"
  let arrivalUnit ←
    fields.withDefault? .nanoseconds (word? ArrivalUnit.ofName?) "inter_arrival_unit"
  let benchmarkName ← fields.optional? Yaml.text? "benchmark_name"
  return { name, path, format, arrivalUnit, benchmarkName }

/-- The list of sources; nothing is a list without any. -/
def sources? (node : Yaml) : Option (List Source) :=
  match node with
  | .sequence items => items.mapM source?
  | node => if node.isNull then some [] else none

/-- The fields of the section on rates. -/
def rateFields : List String :=
  ["workload_size", "units_per_second_factor", "inter_arrival_param", "scale_by_param"]

/-- The section on rates. Times between arrivals have no unit here: each source has
its own. -/
def rates? (node : Yaml) : Option RateConfig := do
  let fields ← Fields.ofClosedYaml? rateFields node
  let base := RateConfig.default
  let workload ← fields.withDefault? base.workload Yaml.number? "workload_size"
  let factor ← fields.withDefault? base.factor Yaml.number? "units_per_second_factor"
  let arrivalParameter ←
    fields.withDefault? base.arrivalParameter Yaml.text? "inter_arrival_param"
  let scaleBy ← fields.optional? Yaml.text? "scale_by_param"
  return { base with workload, factor, arrivalParameter, scaleBy }

/-- The fields of a manifest. -/
def topFields : List String := ["sources", "rates", "format", "output", "name_prefix"]

/-- The manifest that a document is. -/
def ofYaml? (node : Yaml) : Option Manifest := do
  let fields ← Fields.ofClosedYaml? topFields node
  let sources ← fields.required? sources? "sources"
  let rates ← fields.optional? rates? "rates"
  let format ← fields.optional? (word? OutputFormat.ofName?) "format"
  let output ← fields.optional? Yaml.text? "output"
  let nameStart ←
    fields.withDefault? (some ResultLine.defaultNameStart) (Fields.nullable Yaml.text?)
      "name_prefix"
  return { sources, rates, format, output, nameStart }

/-! ### Checking -/

/-- The first name of an ascending list that stands there twice. -/
def firstTwin? : List String → Option String
  | a :: b :: rest => if a = b then some a else firstTwin? (b :: rest)
  | _ => none

/-- The least name that two sources have. -/
def repeatedName? (m : Manifest) : Option String :=
  firstTwin? ((m.sources.map Source.name).mergeSort fun a b => (compare a b).isLE)

/-- The fault of a manifest, if it has one. -/
def fault? (m : Manifest) : Option ManifestFault :=
  if m.sources.isEmpty then some .noSources else m.repeatedName?.map .repeatedName

/-- The manifest that a document is, if it can be used. -/
def ofYaml (node : Yaml) : Except ManifestFault Manifest :=
  match ofYaml? node with
  | none => .error .malformed
  | some m =>
    match m.fault? with
    | some fault => .error fault
    | none => .ok m

/-- The manifest that a text is, if it can be used, with a given reader of documents. -/
def read (readYaml : String → Option Yaml) (text : String) : Except ManifestFault Manifest :=
  match readYaml text with
  | none => .error .malformed
  | some node => ofYaml node

/-! ### Paths -/

/-- A manifest with its paths taken relative to a folder. -/
def resolve (folder : String) (m : Manifest) : Manifest :=
  { m with
    sources := m.sources.map fun s => { s with path := Path.join folder s.path }
    output := m.output.map (Path.join folder) }

/-- A manifest with its paths taken relative to the folder of its own path. -/
def resolveAt (path : String) (m : Manifest) : Manifest :=
  m.resolve ((Path.parent? path).getD "")

end Manifest

end BenchReport
