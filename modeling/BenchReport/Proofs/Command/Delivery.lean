import Mathlib
import BenchReport.Command.Invocation
import BenchReport.Files.Tree
import BenchReport.Proofs.Pipeline.Readable
import BenchReport.Proofs.Table.Lines
import BenchReport.Yaml.Reader

/-!
# A result is rendered before it is written

Three commands write a result made of several sources, and they come to it by different ways:
two are given paths and one a manifest, and one does not derive rates. What they are asked for
is the same kind of thing, a **request** (`BenchReport.Request`), and what is done about it does
not depend on the way: the sources are run, the table is rendered, and the rendered table is
delivered (`BenchReport.Request.perform_eq_deliver`).

Rendering can fail, and a table of groups or rates fails for no other reason than that LaTeX was
asked for: a table of groups always, and a table of rates for the first group without a stream
rate (`BenchReport.Request.render_eq_error_iff`). Nothing has been written then. Otherwise the
whole table is written, line by line as in `BenchReport.Proofs.Table.Lines`, be there sources that
could not be read or not, and these are counted last
(`BenchReport.Request.perform_renders_then_writes`).
-/

namespace BenchReport

open Command

/-! ### Tables that cannot be rendered -/

theorem Table.csv_default (headed : Bool) (t : Table) :
    t.csv .default headed =
      .ok (String.ofList (Csv.text Csv.Dialect.default.quotes ',' (t.records headed))) :=
  rfl

/-! ### Sources that could not be read -/

namespace Pipeline

theorem length_outcomes_loadAll (view : FileView) (options : ReadOptions) (sources : List Source) :
    (outcomes (loadAll view options sources)).length = sources.length := by
  rw [outcomes, loadAll, List.length_map, List.length_map]

theorem failedCount_outcomes (view : FileView) (options : ReadOptions) (sources : List Source) :
    failedCount (outcomes (loadAll view options sources)) =
      sources.countP fun source => !(source.load view options).isOk := by
  rw [failedCount, ← List.countP_eq_length_filter, outcomes, loadAll, List.map_map,
    List.countP_map]
  refine List.countP_congr fun source _ => ?_
  simp only [Function.comp, Loaded.ofSource]
  cases source.load view options <;> simp [Except.map, Except.toOption, Except.isOk, Except.toBool]

/-- **A command fails at last if a source could not be read**, and counts these. -/
theorem sourcesFault?_outcomes (view : FileView) (options : ReadOptions) (sources : List Source) :
    sourcesFault? (outcomes (loadAll view options sources)) =
      if ∀ source ∈ sources, (source.load view options).isOk then none
      else some (.sourcesFailed (sources.countP fun source => !(source.load view options).isOk)
        sources.length) := by
  have hnone : (sources.countP fun source => !(source.load view options).isOk) = 0 ↔
      ∀ source ∈ sources, (source.load view options).isOk := by
    simp [List.countP_eq_zero]
  simp only [sourcesFault?, failedCount_outcomes, length_outcomes_loadAll, hnone]

end Pipeline

/-! ### Commands that deliver the result of a run -/

namespace Command

variable {s : Setting} {r : PipelineResult} {output : Option String}

theorem rates_eq_deliver {files : List String} {config : RateConfig} {format : OutputFormat}
    {caption : String} (hrun : Pipeline.run s.files s.options config
      (files.map fun file => { sourceAt file with arrivalUnit := config.arrivalUnit }) = .ok r) :
    ∃ events, rates s files config format caption output =
      deliver s.files output r.sources events (renderRates format caption r) := by
  simp only [rates, hrun]
  exact ⟨_, rfl⟩

theorem runManifest_eq_deliver {m : Manifest} {workload : Option Float}
    {format : Option OutputFormat} (hrun : Pipeline.run s.files
      { s.options with nameStart := m.nameStart } ((ratesOf m workload).getD .default) m.sources =
        .ok r) :
    ∃ events, runManifest s m workload format output =
      deliver s.files (output <|> m.output) r.sources events
        (match ratesOf m workload with
        | some _ => renderRates ((format <|> m.format).getD .csv) manifestCaption r
        | none => renderGroups ((format <|> m.format).getD .csv) r.groups) := by
  simp only [runManifest, hrun]
  cases ratesOf m workload <;> exact ⟨_, rfl⟩

end Command

/-! ### Requests -/

/-- What a table is about. -/
inductive TableSubject where
  /-- The groups. -/
  | groups
  /-- The rates of the groups, under a caption. -/
  | rates (config : RateConfig) (caption : String)

/-- **What a command on several reports is asked for.** -/
structure Request where
  /-- The sources. -/
  sources : List Source
  /-- How they are read. -/
  options : ReadOptions
  /-- What the table is about. -/
  subject : TableSubject
  /-- How it is written. -/
  format : OutputFormat
  /-- The file that it goes to, if it is not printed. -/
  output : Option String

namespace Request

/-- How rates are derived; where the table is not about them it does not matter. -/
def config (q : Request) : RateConfig :=
  match q.subject with
  | .groups => .default
  | .rates config _ => config

/-- What a manifest asks for, with what is given beside it. -/
def ofManifest (s : Setting) (m : Manifest) (workload : Option Float)
    (format : Option OutputFormat) (output : Option String) : Request where
  sources := m.sources
  options := { s.options with nameStart := m.nameStart }
  subject :=
    match ratesOf m workload with
    | none => .groups
    | some config => .rates config manifestCaption
  format := (format <|> m.format).getD .csv
  output := output <|> m.output

theorem config_ofManifest (s : Setting) (m : Manifest) (workload : Option Float)
    (format : Option OutputFormat) (output : Option String) :
    (ofManifest s m workload format output).config = (ratesOf m workload).getD .default := by
  rw [config, ofManifest]
  cases ratesOf m workload <;> rfl

/-- What an invocation asks for. One that names a manifest needs one that can be used. -/
def of? (s : Setting) : Invocation → Option Request
  | .aggregate files format output =>
    some ⟨files.map sourceAt, s.options, .groups, format, output⟩
  | .rates files config format caption output =>
    some ⟨files.map fun file => { sourceAt file with arrivalUnit := config.arrivalUnit },
      s.options, .rates config caption, format, output⟩
  | .run path workload format output =>
    match manifestAt s path with
    | .ok m => some (ofManifest s m workload format output)
    | .error _ => none
  | _ => none

/-- A result, rendered as it was asked for. -/
def render (q : Request) (r : PipelineResult) : Except CommandFault Rendered :=
  match q.subject with
  | .groups => renderGroups q.format r.groups
  | .rates _ caption => renderRates q.format caption r

/-- **The lines of the table of a result**: those of its groups, or those of their rates. -/
def IsLinesOf (q : Request) (r : PipelineResult) (lines : List String) : Prop :=
  match q.subject with
  | .groups => Table.IsLinesOfGroups q.format r.groups lines
  | .rates _ caption => Table.IsLinesOfRates q.format caption r.metadata r.rates.derived lines

/-- The table of a result. -/
def table (q : Request) (r : PipelineResult) : Except CommandFault String :=
  (q.render r).map Rendered.content

/-- **Why the table of a result cannot be rendered**: LaTeX is for rates, and for those of groups
that all have a stream rate. -/
def fault? (q : Request) (r : PipelineResult) : Option CommandFault :=
  match q.format, q.subject with
  | .latex, .groups => some .needsRates
  | .latex, .rates _ _ =>
    (r.rates.derived.find? fun d => d.streamRate.isNone).map fun d => .latex ⟨d.key.spell⟩
  | _, _ => none

theorem render_eq_error_iff {q : Request} {r : PipelineResult} {fault : CommandFault} :
    q.render r = .error fault ↔ q.fault? r = some fault := by
  rw [render, fault?]
  cases q.subject with
  | groups => cases q.format <;> simp [renderGroups, Table.csv_default]
  | rates config caption =>
    have htext : renderRates q.format caption r = .error fault ↔
        ratesText q.format caption r.metadata r.rates.derived = .error fault := by
      rw [renderRates]
      cases ratesText q.format caption r.metadata r.rates.derived <;> simp [Except.map]
    simp only [htext]
    cases q.format with
    | csv => simp [ratesText, Table.csv_default]
    | text => simp [ratesText]
    | latex =>
      have hcause : ∀ cause, LongTable.render { LongTableConfig.default with subject := caption }
          r.metadata r.rates.derived = .error cause ↔
          (r.rates.derived.find? fun d => d.streamRate.isNone).map (fun d => ⟨d.key.spell⟩) =
            some cause :=
        fun cause => LongTable.render_eq_error_iff.trans LongTable.entries_eq_error_iff
      have hfault : (r.rates.derived.find? fun d => d.streamRate.isNone).map
            (fun d => CommandFault.latex ⟨d.key.spell⟩) =
          ((r.rates.derived.find? fun d => d.streamRate.isNone).map
            fun d => ⟨d.key.spell⟩).map .latex :=
        (Option.map_map ..).symm
      simp only [ratesText, hfault, Option.map_eq_some_iff, ← hcause]
      cases LongTable.render _ _ _ <;> simp

/-- **What is rendered is a text of lines**, and each of them is known. -/
theorem lines_of_render {q : Request} {r : PipelineResult} {rendered : Rendered}
    (h : q.render r = .ok rendered) :
    ∃ lines, q.IsLinesOf r lines ∧ (∀ lines', q.IsLinesOf r lines' → lines' = lines) ∧
      rendered.content = String.join (lines.map (· ++ "\n")) := by
  simp only [render, IsLinesOf] at h ⊢
  cases hsubject : q.subject with
  | groups =>
    rw [hsubject] at h
    obtain ⟨lines, hlines, hcontent⟩ := Table.lines_of_renderGroups h
    exact ⟨lines, hlines, fun _ hlines' => hlines'.unique hlines, hcontent⟩
  | rates config caption =>
    rw [hsubject] at h
    cases htext : ratesText q.format caption r.metadata r.rates.derived with
    | error fault => simp [renderRates, htext, Except.map] at h
    | ok text =>
      obtain ⟨lines, hlines, hcontent⟩ := Table.lines_of_ratesText htext
      simp only [renderRates, htext, Except.map, Except.ok.injEq] at h
      subst h
      exact ⟨lines, hlines, fun _ hlines' => hlines'.unique hlines, hcontent⟩

/-! ### Carrying out a request -/

/-- **What is done about a request**: its sources are run, the result is rendered, and what has
been rendered is delivered. -/
theorem perform_eq_deliver {s : Setting} {i : Invocation} {q : Request} (h : of? s i = some q) :
    ∃ found events, Pipeline.Settles q.config (Pipeline.loadAll s.files q.options q.sources) found ∧
      let r := Pipeline.resultOf (Pipeline.loadAll s.files q.options q.sources) found
      i.perform s = deliver s.files q.output r.sources events (q.render r) := by
  obtain ⟨found, hfound, hrun⟩ :=
    Pipeline.exists_settles q.config (Pipeline.loadAll s.files q.options q.sources)
  cases i with
  | aggregate files format output =>
    obtain rfl := Option.some.inj h
    exact ⟨found, _, hfound, rfl⟩
  | rates files config format caption output =>
    obtain rfl := Option.some.inj h
    obtain ⟨events, hdelivered⟩ := rates_eq_deliver hrun
    exact ⟨found, events, hfound, hdelivered⟩
  | run path workload format output =>
    cases hm : manifestAt s path with
    | error fault => simp [of?, hm] at h
    | ok m =>
      obtain rfl : ofManifest s m workload format output = q := by simpa [of?, hm] using h
      rw [config_ofManifest] at hrun
      obtain ⟨events, hdelivered⟩ := runManifest_eq_deliver hrun
      refine ⟨found, events, hfound, ?_⟩
      simp only [Invocation.perform, run, hm, render, ofManifest]
      refine hdelivered.trans ?_
      cases ratesOf m workload <;> rfl
  | _ => cases h

/-- **A table says only what was read**: it is the same without the sources that were not. -/
theorem isLinesOf_filter_isRead (q : Request) (loaded : List Loaded) (found : Rate.Outcomes)
    (lines : List String) :
    q.IsLinesOf (Pipeline.resultOf (loaded.filter Pipeline.isRead) found) lines ↔
      q.IsLinesOf (Pipeline.resultOf loaded found) lines := by
  rw [Pipeline.resultOf_filter_isRead]
  exact Iff.rfl

theorem fault?_filter_isRead (q : Request) (loaded : List Loaded) (found : Rate.Outcomes) :
    q.fault? (Pipeline.resultOf (loaded.filter Pipeline.isRead) found) =
      q.fault? (Pipeline.resultOf loaded found) := by
  rw [Pipeline.resultOf_filter_isRead, fault?, fault?]

/-- **A result is rendered before it is written.** Let an invocation ask for a table that goes
where it can go, and let the sources that can be read be run. If the table of that result cannot
be rendered the invocation fails for this reason and has neither printed nor written anything.
Otherwise it has brought exactly the lines of this table to its destination, and it fails if and
only if some source could not be read, with the number of those and of all. -/
theorem perform_renders_then_writes {s : Setting} {i : Invocation} {q : Request}
    (h : of? s i = some q) (hw : ∀ path ∈ q.output, s.files.createFault? path = none) :
    ∃ r, Pipeline.run s.files q.options q.config
        (Pipeline.readable s.files q.options q.sources) = .ok r ∧
      match q.fault? r with
      | some fault =>
        (i.perform s).failure = some fault ∧ (i.perform s).printed = "" ∧ (i.perform s).writes = []
      | none =>
        ∃ lines, q.IsLinesOf r lines ∧ (∀ lines', q.IsLinesOf r lines' → lines' = lines) ∧
          let table := String.join (lines.map (· ++ "\n"))
          (match q.output with
            | none => (i.perform s).printed = table ∧ (i.perform s).writes = []
            | some path => (i.perform s).printed = "" ∧ (i.perform s).writes = [(path, table)]) ∧
          (i.perform s).failure =
            if ∀ source ∈ q.sources, (source.load s.files q.options).isOk then none
            else some (.sourcesFailed
              (q.sources.countP fun source => !(source.load s.files q.options).isOk)
              q.sources.length) := by
  obtain ⟨found, events, hfound, hperform⟩ := perform_eq_deliver h
  have hsettles := Pipeline.settles_filter_isRead.mpr hfound
  rw [← Pipeline.loadAll_readable] at hsettles
  refine ⟨_, hsettles.ofLoaded_eq, ?_⟩
  rw [Pipeline.loadAll_readable, fault?_filter_isRead, ← Pipeline.sourcesFault?_outcomes]
  simp only [isLinesOf_filter_isRead]
  generalize hr : Pipeline.resultOf (Pipeline.loadAll s.files q.options q.sources) found = r at *
  have hsources : r.sources = Pipeline.outcomes (Pipeline.loadAll s.files q.options q.sources) :=
    hr ▸ rfl
  rw [← hsources]
  cases hrender : q.render r with
  | error fault =>
    rw [render_eq_error_iff.mp hrender, hperform, hrender]
    exact ⟨rfl, rfl, rfl⟩
  | ok rendered =>
    have hnone : q.fault? r = none := by
      refine Option.eq_none_iff_forall_ne_some.mpr fun fault hfault => ?_
      rw [render_eq_error_iff.mpr hfault] at hrender
      cases hrender
    obtain ⟨lines, hlines, hunique, hcontent⟩ := lines_of_render hrender
    rw [hnone, hperform, hrender]
    refine ⟨lines, hlines, hunique, ?_⟩
    rw [← hcontent]
    cases houtput : q.output with
    | none => exact ⟨⟨rfl, rfl⟩, rfl⟩
    | some path =>
      simp only [deliver, hw path (by simp [houtput])]
      exact ⟨⟨trivial, trivial⟩, trivial⟩

/-- One of two reports is missing: the rates of the other are written, and then the command
fails. -/
theorem rates_of_one_report_of_two :
    let s : Setting :=
      ⟨(FileTree.ofPaths [("a", Text.encode "X/A:_1-4 0.1m")] []).view, 100, Yaml.read?,
        fun x _ => x, 0⟩
    let i := Invocation.rates ["a", "b"] .default .csv manifestCaption (some "out")
    ∃ q, of? s i = some q ∧ (∀ path ∈ q.output, s.files.createFault? path = none) ∧
      ∃ table, (i.perform s).printed = "" ∧ (i.perform s).writes = [("out", table)] ∧
        (i.perform s).failure = some (.sourcesFailed 1 2) := by
  intro s i
  have hw : ∀ path ∈ some "out", s.files.createFault? path = none := by decide +kernel
  have hmissing : ¬∀ source ∈ ["a", "b"].map sourceAt, (source.load s.files s.options).isOk := by
    decide +kernel
  have hcount : (["a", "b"].map sourceAt).countP
      (fun source => !(source.load s.files s.options).isOk) = 1 := by decide +kernel
  refine ⟨_, rfl, hw, ?_⟩
  obtain ⟨r, -, lines, -, -, ⟨hprinted, hwrites⟩, hfailure⟩ :=
    perform_renders_then_writes (s := s) (i := i) rfl hw
  refine ⟨_, hprinted, hwrites, hfailure.trans ((if_neg hmissing).trans ?_)⟩
  exact congrArg (fun failed => some (CommandFault.sourcesFailed failed 2)) hcount

end Request

end BenchReport
