import Mathlib
import BenchReport.Proofs.Command.Delivery
import BenchReport.Proofs.Manifest.Names
import BenchReport.Proofs.Pipeline.Units

/-!
# Paths and manifests ask for the same

A table of several reports can be asked for by their paths or by a manifest that lists them.
The two ways make different sources: those of paths are named by the stems of the paths, and
those of a manifest as the manifest likes. But a name is only ever reported; what is read of a
source depends on its path and its form (`BenchReport.Source.readsLike_of_look_eq`). Sources
that read alike have the same measurements and the same facts, one by one, and from there on a
run does not look at the sources any more, but for their units.

The unit of a setting has no say in a run, and where all sources have one unit the rates are
those in this unit (`BenchReport.Pipeline.groupRule_eq_of_forall`). So it does not matter that a
manifest gives the unit with the sources and the arguments of a command with the setting.
-/

namespace BenchReport

open Command

/-! ### Sources that read alike -/

/-- A report without the name of its source. -/
def Report.anonymous (r : Report) : Report := { r with source := none }

namespace Source

/-- **Sources read alike** if both have the same report but for the name, or neither has one. -/
def ReadsLike (view : FileView) (options : ReadOptions) (a b : Source) : Prop :=
  (a.load view options).toOption.map Report.anonymous =
    (b.load view options).toOption.map Report.anonymous

variable {view : FileView} {options : ReadOptions} {a b : Source}

/-- What is read of a single-line report depends on what its path leads to. -/
theorem readsLike_of_look_eq (ha : a.format = .singleLine) (hb : b.format = .singleLine)
    (hlook : view.look a.path = view.look b.path) : a.ReadsLike view options b := by
  rw [ReadsLike, load, load, stream, stream, hlook]
  cases view.look b.path with
  | error fault => rfl
  | ok entry =>
    cases entry with
    | folder => rfl
    | file size content =>
      dsimp only
      split_ifs
      · rfl
      · simp only [read, ha, hb]
        cases SingleLine.readStream options content <;> rfl

theorem ReadsLike.isOk_eq (h : a.ReadsLike view options b) :
    (a.load view options).isOk = (b.load view options).isOk := by
  rw [ReadsLike] at h
  cases ha : a.load view options <;> cases hb : b.load view options <;>
    simp_all [Except.toOption, Except.isOk, Except.toBool]

end Source

namespace Pipeline

variable {view : FileView} {options : ReadOptions} {config config' : RateConfig}
  {sources sources' : List Source}

section Alike

variable (h : List.Forall₂ (Source.ReadsLike view options) sources sources')

include h

theorem anonymous_reports_congr :
    (reports (loadAll view options sources)).map Report.anonymous =
      (reports (loadAll view options sources')).map Report.anonymous := by
  rw [reports_loadAll, reports_loadAll, List.map_filterMap, List.map_filterMap]
  induction h with
  | nil => rfl
  | cons hab _ ih => rw [List.filterMap_cons, List.filterMap_cons, ih, hab]

theorem measurements_congr :
    measurements (loadAll view options sources) = measurements (loadAll view options sources') := by
  have hnames : ∀ reports : List Report, reports.flatMap Report.measurements =
      (reports.map Report.anonymous).flatMap Report.measurements := by
    intro reports
    rw [List.flatMap_map]
    rfl
  rw [measurements, measurements, hnames, anonymous_reports_congr h, ← hnames]

theorem metadata_congr :
    metadata (loadAll view options sources) = metadata (loadAll view options sources') := by
  have hnames : ∀ (reports : List Report) (known : Metadata),
      reports.foldl (fun known report => Keyed.union known report.metadata) known =
        (reports.map Report.anonymous).foldl
          (fun known report => Keyed.union known report.metadata) known := by
    intro reports known
    rw [List.foldl_map]
    rfl
  rw [metadata, metadata, hnames, anonymous_reports_congr h, ← hnames]

theorem failedCount_congr :
    (sources.countP fun source => !(source.load view options).isOk) =
      sources'.countP fun source => !(source.load view options).isOk := by
  induction h with
  | nil => rfl
  | cons hab _ ih => rw [List.countP_cons, List.countP_cons, ih, hab.isOk_eq]

theorem sourcesFault?_congr :
    sourcesFault? (outcomes (loadAll view options sources)) =
      sourcesFault? (outcomes (loadAll view options sources')) := by
  simp only [sourcesFault?, failedCount_outcomes, failedCount_congr h, length_outcomes_loadAll,
    h.length_eq]

end Alike

section Units

variable {unit : ArrivalUnit}

/-- Where the sources have one unit, a run derives its groups in this unit. -/
theorem groupRule_eq_of_forall {g : Group}
    (hunit : ∀ source ∈ sources, source.arrivalUnit = unit)
    (hg : g ∈ Group.aggregate (measurements (loadAll view options sources))) :
    groupRule config (loadAll view options sources) g =
      Rate.derive { config with arrivalUnit := unit } g := by
  refine groupRule_of_forall (nonempty_memberUnits hg) ?_
  rintro _ ⟨source, hsource, _, _, _, rfl⟩
  exact hunit source hsource

/-- **Runs on sources that read alike and have one unit come to the same outcomes**, if their
settings are the same but for the unit. -/
theorem Settles.eq_of_readsLike {found found' : Rate.Outcomes}
    (hfound : Settles config (loadAll view options sources) found)
    (hfound' : Settles config' (loadAll view options sources') found')
    (h : List.Forall₂ (Source.ReadsLike view options) sources sources')
    (hunit : ∀ source ∈ sources, source.arrivalUnit = unit)
    (hunit' : ∀ source ∈ sources', source.arrivalUnit = unit)
    (hconfig : { config with arrivalUnit := unit } = { config' with arrivalUnit := unit }) :
    found = found' := by
  have hrules : ∀ g ∈ Group.aggregate (measurements (loadAll view options sources)),
      groupRule config (loadAll view options sources) g =
        groupRule config' (loadAll view options sources') g := by
    intro g hg
    have hg' := measurements_congr h ▸ hg
    rw [groupRule_eq_of_forall hunit hg, groupRule_eq_of_forall hunit' hg', hconfig]
  have hsame : (Except.ok found : Except MissingLatency Rate.Outcomes) = .ok found' := calc
    .ok found = _ := hfound.symm
    _ = _ := Rate.mapM_ruled_congr hrules
    _ = _ := by rw [measurements_congr h]
    _ = .ok found' := hfound'
  exact Except.ok.inj hsame

end Units

end Pipeline

/-! ### Commands that end alike -/

namespace Outcome

/-- The text of a result, wherever it went. -/
def text (o : Outcome) : String := o.printed ++ String.join (o.writes.map Prod.snd)

/-- **Two commands end alike.** If they have one destination they print and write the same there.
If they have two, and both can take what comes, the same text goes to each. They fail for the same
reason, or both do not. -/
structure EndsLike (files : FileView) (output output' : Option String) (o o' : Outcome) : Prop where
  of_eq : output = output' →
    o.printed = o'.printed ∧ o.writes = o'.writes ∧ o.failure = o'.failure
  of_writable : (∀ path ∈ output, files.createFault? path = none) →
    (∀ path ∈ output', files.createFault? path = none) →
    o.text = o'.text ∧ o.failure = o'.failure

end Outcome

section Deliver

variable {files : FileView} {output output' : Option String}
  {outcomes outcomes' : List (String × Except SourceFault Tally)} {events events' : List Event}
  {result result' : Except CommandFault Rendered}

/-- What is delivered is the content of a result, whether it is printed or written. -/
theorem text_deliver {rendered : Rendered}
    (hw : ∀ path ∈ output, files.createFault? path = none) :
    (deliver files output outcomes events (.ok rendered)).text = rendered.content ∧
      (deliver files output outcomes events (.ok rendered)).failure = sourcesFault? outcomes := by
  cases output with
  | none => exact ⟨String.append_empty, rfl⟩
  | some path =>
    simp only [deliver, hw path rfl]
    exact ⟨by simp [Outcome.text, String.join], trivial⟩

/-- Results with the same content end alike if the same number of sources could not be read. -/
theorem endsLike_deliver
    (hresult : result.map Rendered.content = result'.map Rendered.content)
    (hfault : sourcesFault? outcomes = sourcesFault? outcomes') :
    Outcome.EndsLike files output output' (deliver files output outcomes events result)
      (deliver files output' outcomes' events' result') := by
  cases result with
  | error fault =>
    cases result' with
    | error fault' =>
      obtain rfl := Except.error.inj hresult
      exact ⟨fun _ => ⟨rfl, rfl, rfl⟩, fun _ _ => ⟨rfl, rfl⟩⟩
    | ok rendered' => cases hresult
  | ok rendered =>
    cases result' with
    | error fault' => cases hresult
    | ok rendered' =>
      have hcontent : rendered.content = rendered'.content := Except.ok.inj hresult
      constructor
      · rintro rfl
        simp only [deliver, hfault, hcontent]
        cases output with
        | none => exact ⟨rfl, rfl, rfl⟩
        | some path =>
          dsimp only
          cases files.createFault? path <;> exact ⟨rfl, rfl, rfl⟩
      · intro hw hw'
        rw [(text_deliver hw).1, (text_deliver hw').1, (text_deliver hw).2, (text_deliver hw').2]
        exact ⟨hcontent, hfault⟩

end Deliver

namespace Request

variable {s : Setting} {i i' : Invocation} {q q' : Request}

section Table

variable {r r' : PipelineResult}

theorem table_congr_of_groups (h : q.subject = .groups) (h' : q'.subject = .groups)
    (hformat : q.format = q'.format) (hgroups : r.groups = r'.groups) :
    q.table r = q'.table r' := by
  simp only [table, render, h, h', hformat, hgroups]

theorem table_congr_of_rates {config config' : RateConfig} {caption caption' : String}
    (h : q.subject = .rates config caption) (h' : q'.subject = .rates config' caption')
    (hformat : q.format = q'.format) (hcaption : q.format = .latex → caption = caption')
    (hmetadata : r.metadata = r'.metadata) (hrates : r.rates = r'.rates) :
    q.table r = q'.table r' := by
  simp only [table, render, h, h', ← hformat, renderRates, hmetadata, hrates]
  cases hf : q.format with
  | csv => rfl
  | text => rfl
  | latex => rw [hcaption hf]

end Table

/-- Requests for tables that are the same end alike if their sources read alike. -/
theorem endsLike_perform (h : of? s i = some q) (h' : of? s i' = some q')
    (hoptions : q'.options = q.options)
    (hsources : List.Forall₂ (Source.ReadsLike s.files q.options) q.sources q'.sources)
    (htable : ∀ found found',
      Pipeline.Settles q.config (Pipeline.loadAll s.files q.options q.sources) found →
      Pipeline.Settles q'.config (Pipeline.loadAll s.files q.options q'.sources) found' →
      q.table (Pipeline.resultOf (Pipeline.loadAll s.files q.options q.sources) found) =
        q'.table (Pipeline.resultOf (Pipeline.loadAll s.files q.options q'.sources) found')) :
    Outcome.EndsLike s.files q.output q'.output (i.perform s) (i'.perform s) := by
  obtain ⟨found, events, hfound, hperform⟩ := perform_eq_deliver h
  obtain ⟨found', events', hfound', hperform'⟩ := perform_eq_deliver h'
  rw [hoptions] at hfound' hperform'
  rw [hperform, hperform']
  exact endsLike_deliver (htable found found' hfound hfound')
    (Pipeline.sourcesFault?_congr hsources)

end Request

/-! ### Manifests -/

namespace Manifest

/-- **A manifest is at a path** if the file there is not too large and can be read to its end,
and its text is that of the manifest. -/
def IsAt (s : Setting) (path : String) (m : Manifest) : Prop :=
  ∃ size bytes chars node, s.files.look path = .ok (.file size (.ofBytes bytes)) ∧
    size ≤ s.maxFileSize ∧ Text.decodeStrict? bytes = some chars ∧
    s.readYaml (String.ofList chars) = some node ∧ ofYaml? node = some m

/-- **A path is in the working folder** if what is seen from its folder is found by its own
path. -/
def IsHere (files : FileView) (path : String) : Prop :=
  ∀ file, files.look (Path.join ((Path.parent? path).getD "") file) = files.look file

/-- **A manifest lists reports by their paths**, each with one result on a line, and does not
change how they are read. -/
structure ListsReports (m : Manifest) (files : List String) : Prop where
  paths : m.sources.map Source.path = files
  formats : ∀ source ∈ m.sources, source.format = .singleLine
  names : (m.sources.map Source.name).Nodup
  nameStart : m.nameStart = some ResultLine.defaultNameStart

/-- **A manifest sets rates like a setting** but for the unit: it has the workload of the setting,
or this is given beside it, and all the rest. -/
def SetsRates (m : Manifest) (config : RateConfig) (workload : Option Float) : Prop :=
  ∃ held : RateConfig,
    (workload = none ∧ m.rates = some held ∧ held.workload = config.workload ∨
      workload = some config.workload ∧ m.rates.getD .default = held) ∧
    held.factor = config.factor ∧ held.arrivalParameter = config.arrivalParameter ∧
    held.scaleBy = config.scaleBy

variable {s : Setting} {path : String} {m : Manifest} {files : List String}

theorem isHere_of_not_mem (view : FileView) (h : '/' ∉ path.toList) : IsHere view path := by
  have hmem : '/' ∉ path.toList.reverse := fun hc => h (List.mem_reverse.mp hc)
  have hdrop : path.toList.reverse.dropWhile (· ≠ '/') = [] := by
    refine List.dropWhile_eq_nil_iff.mpr fun c hc => decide_eq_true fun heq => hmem ?_
    rwa [← heq]
  have htrim : Path.trimBackward path.toList.reverse = path.toList.reverse := by
    rw [Path.trimBackward]
    · rintro rest heq
      exact hmem (by simp [heq])
    · rintro rest heq
      exact hmem (by simp [heq])
  have hparent : (Path.parent? path).getD "" = "" := by
    rw [Path.parent?, htrim, hdrop]
    split_ifs <;> rfl
  intro file
  rw [hparent, Path.join]
  simp

/-- A manifest that names its sources differently is the one that is found. -/
theorem IsAt.manifestAt_eq (h : m.IsAt s path) (hfault : m.fault? = none) :
    manifestAt s path = .ok (m.resolveAt path) := by
  obtain ⟨size, bytes, chars, node, hlook, hsize, hchars, hnode, hm⟩ := h
  have hstream : s.stream path = .ok (.ofBytes bytes) := by
    rw [Setting.stream, Setting.entry, hlook]
    exact congrArg _ (if_neg (Nat.not_lt.mpr hsize))
  have htext : s.text path = .ok (String.ofList chars) := by
    simp only [Setting.text, hstream, Text.Stream.ofBytes, hchars]
  simp only [manifestAt, htext, Manifest.read, hnode, ofYaml, hm, hfault]

theorem ListsReports.fault?_eq_none (h : m.ListsReports files) (hne : files ≠ []) :
    m.fault? = none := by
  refine Manifest.fault?_eq_none ?_ h.names
  rintro hnil
  exact hne (by rw [← h.paths, hnil]; rfl)

/-- **The sources of a manifest read like the reports that it lists**, whatever their names are
and wherever it finds them. -/
theorem ListsReports.forall₂_readsLike (h : m.ListsReports files) (hhere : IsHere s.files path)
    {options : ReadOptions} {sourceOf : String → Source}
    (hformat : ∀ file, (sourceOf file).format = .singleLine)
    (hpath : ∀ file, (sourceOf file).path = file) :
    List.Forall₂ (Source.ReadsLike s.files options) (files.map sourceOf)
      (m.resolveAt path).sources := by
  rw [← h.paths, List.map_map, resolveAt, resolve, List.forall₂_map_left_iff,
    List.forall₂_map_right_iff, List.forall₂_same]
  intro source hsource
  refine Source.readsLike_of_look_eq (hformat _) (h.formats source hsource) ?_
  exact (congrArg s.files.look (hpath _)).trans (hhere source.path).symm

/-- Rates are derived with the workload that is given, or else with the one of the manifest. -/
theorem SetsRates.ratesOf_eq {config : RateConfig} {workload : Option Float}
    (h : m.SetsRates config workload) :
    ∃ held, ratesOf m workload = some held ∧
      ∀ unit, { config with arrivalUnit := unit } = { held with arrivalUnit := unit } := by
  obtain ⟨held, ⟨rfl, hrates, hworkload⟩ | ⟨rfl, rfl⟩, hfactor, hparameter, hscale⟩ := h
  · refine ⟨held, hrates, fun unit => ?_⟩
    rw [hworkload, hfactor, hparameter, hscale]
  · refine ⟨_, rfl, fun unit => ?_⟩
    rw [hfactor, hparameter, hscale]

end Manifest

section Run

variable {s : Setting} {path : String} {m : Manifest} {files : List String}
  {format : OutputFormat} {given : Option OutputFormat}

/-- What is asked for by paths and by a manifest that lists them ends alike, if the tables are the
same wherever the sources read alike. -/
theorem endsLike_run {i : Invocation} {q : Request} {workload : Option Float}
    {output' : Option String} {sourceOf : String → Source} (hat : m.IsAt s path)
    (hhere : Manifest.IsHere s.files path) (hlists : m.ListsReports files) (hne : files ≠ [])
    (h : Request.of? s i = some q) (hsources : q.sources = files.map sourceOf)
    (hformats : ∀ file, (sourceOf file).format = .singleLine)
    (hpaths : ∀ file, (sourceOf file).path = file) (hoptions : q.options = s.options)
    (htable : ∀ found found',
      let q' := Request.ofManifest s (m.resolveAt path) workload given output'
      List.Forall₂ (Source.ReadsLike s.files q.options) q.sources q'.sources →
      Pipeline.Settles q.config (Pipeline.loadAll s.files q.options q.sources) found →
      Pipeline.Settles q'.config (Pipeline.loadAll s.files q.options q'.sources) found' →
      q.table (Pipeline.resultOf (Pipeline.loadAll s.files q.options q.sources) found) =
        q'.table (Pipeline.resultOf (Pipeline.loadAll s.files q.options q'.sources) found')) :
    Outcome.EndsLike s.files q.output (output' <|> (m.resolveAt path).output) (i.perform s)
      (run s path workload given output') := by
  have hmanifest := hat.manifestAt_eq (hlists.fault?_eq_none hne)
  have hrun : Request.of? s (.run path workload given output') =
      some (.ofManifest s (m.resolveAt path) workload given output') := by
    simp only [Request.of?, hmanifest]
  have hstart : (m.resolveAt path).nameStart = some ResultLine.defaultNameStart :=
    hlists.nameStart
  have hsame : (Request.ofManifest s (m.resolveAt path) workload given output').options =
      q.options := by
    rw [Request.ofManifest, hstart, hoptions]
    rfl
  have hreads : List.Forall₂ (Source.ReadsLike s.files q.options) q.sources
      (m.resolveAt path).sources := by
    rw [hsources]
    exact hlists.forall₂_readsLike hhere hformats hpaths
  exact Request.endsLike_perform h hrun hsame hreads fun found found' =>
    htable found found' hreads

/-- **Paths and a manifest ask for the same.** Let a manifest in the working folder list reports
by their paths, and let the format be one. The rates that are asked for by the paths end like
those of the manifest, if its sources all have the unit of the setting and it sets rates like it,
and if a long table has the caption of manifests. The groups that are asked for by the paths end
like those of the manifest, if it sets no rates. -/
theorem run_endsLike_rates_and_aggregate (hat : m.IsAt s path)
    (hhere : Manifest.IsHere s.files path) (hlists : m.ListsReports files) (hne : files ≠ [])
    (hformat : (given <|> m.format).getD .csv = format) (output output' : Option String) :
    (∀ config caption workload, (∀ source ∈ m.sources, source.arrivalUnit = config.arrivalUnit) →
      m.SetsRates config workload → (format = .latex → caption = manifestCaption) →
      Outcome.EndsLike s.files output (output' <|> (m.resolveAt path).output)
        (rates s files config format caption output) (run s path workload given output')) ∧
    (m.rates = none →
      Outcome.EndsLike s.files output (output' <|> (m.resolveAt path).output)
        (aggregate s files format output) (run s path none given output')) := by
  constructor
  · intro config caption workload hunit hset hcaption
    obtain ⟨held, hheld, hconfig⟩ := hset.ratesOf_eq
    have hrates : ratesOf (m.resolveAt path) workload = some held := hheld
    have hsubject : (Request.ofManifest s (m.resolveAt path) workload given output').subject =
        .rates held manifestCaption := by
      rw [Request.ofManifest, hrates]
    have hunits : ∀ source ∈ files.map fun file =>
        { sourceAt file with arrivalUnit := config.arrivalUnit },
        source.arrivalUnit = config.arrivalUnit :=
      List.forall_mem_map.mpr fun _ _ => rfl
    have hunits' : ∀ source ∈ (m.resolveAt path).sources,
        source.arrivalUnit = config.arrivalUnit :=
      List.forall_mem_map.mpr hunit
    refine endsLike_run (i := .rates files config format caption output) hat hhere hlists hne rfl
      rfl (fun _ => rfl) (fun _ => rfl) rfl fun found found' hreads hfound hfound' => ?_
    rw [Request.config_ofManifest, hrates] at hfound'
    obtain rfl := hfound.eq_of_readsLike hfound' hreads hunits hunits' (hconfig _)
    exact Request.table_congr_of_rates rfl hsubject hformat.symm hcaption
      (Pipeline.metadata_congr hreads) rfl
  · intro hnone
    refine endsLike_run (i := .aggregate files format output) hat hhere hlists hne rfl rfl
      (fun _ => rfl) (fun _ => rfl) rfl fun found found' hreads _ _ => ?_
    have hsubject : (Request.ofManifest s (m.resolveAt path) none given output').subject =
        .groups := by
      have hrates : ratesOf (m.resolveAt path) none = none := hnone
      rw [Request.ofManifest, hrates]
    refine Request.table_congr_of_groups rfl hsubject hformat.symm ?_
    exact congrArg Group.aggregate (Pipeline.measurements_congr hreads)

/-- A manifest of two reports, one of which is missing. -/
theorem run_endsLike_two_reports :
    let text := "sources:\n  - name: first\n    path: a\n  - name: second\n    path: b\n"
    let files := ["a", "b"]
    let view : FileView :=
      { look path :=
          if path = "m" then .ok (.ofBytes (Text.encode text))
          else if path = "a" then .ok (.ofBytes (Text.encode "X/A:_1-4 0.1m"))
          else .error .notFound
        createFault? _ := none }
    let s : Setting := ⟨view, 100, Yaml.read?, fun x _ => x, 0⟩
    ∃ m : Manifest, m.IsAt s "m" ∧ Manifest.IsHere s.files "m" ∧ m.ListsReports files ∧
      files ≠ [] ∧ (none <|> m.format).getD .csv = OutputFormat.csv ∧
      (∀ source ∈ m.sources, source.arrivalUnit = RateConfig.default.arrivalUnit) ∧
      m.SetsRates .default (some RateConfig.default.workload) ∧ m.rates = none ∧
      Outcome.EndsLike s.files none (none <|> (m.resolveAt "m").output)
        (rates s files .default .csv manifestCaption none)
        (run s "m" (some RateConfig.default.workload) none none) ∧
      Outcome.EndsLike s.files none (none <|> (m.resolveAt "m").output)
        (aggregate s files .csv none) (run s "m" none none none) := by
  intro text files view s
  have hread : ((Yaml.read? text).bind Manifest.ofYaml?).map
      (fun m => (m.sources, m.rates.isNone, m.format, m.nameStart)) =
      some ([.ofPath "first" "a", .ofPath "second" "b"], true, none,
        some ResultLine.defaultNameStart) := by decide +kernel
  obtain ⟨m, hm, hfields⟩ := Option.map_eq_some_iff.mp hread
  obtain ⟨node, hnode, hm⟩ := Option.bind_eq_some_iff.mp hm
  simp only [Prod.mk.injEq, Option.isNone_iff_eq_none] at hfields
  obtain ⟨hsources, hrates, hformat, hstart⟩ := hfields
  have hchars : Text.decodeStrict? (Text.encode text) = some text.toList := by decide +kernel
  have hat : m.IsAt s "m" :=
    ⟨_, Text.encode text, text.toList, node, rfl, by decide +kernel, hchars,
      by rwa [String.ofList_toList], hm⟩
  have hhere : Manifest.IsHere s.files "m" := Manifest.isHere_of_not_mem _ (by decide)
  have hlists : m.ListsReports files := by
    constructor <;> simp [hsources, hstart, files, Source.ofPath]
  have hgiven : (none <|> m.format).getD .csv = OutputFormat.csv := by rw [hformat]; rfl
  have hunit : ∀ source ∈ m.sources, source.arrivalUnit = RateConfig.default.arrivalUnit := by
    simp [hsources, Source.ofPath, RateConfig.default]
  have hset : m.SetsRates .default (some RateConfig.default.workload) :=
    ⟨_, .inr ⟨rfl, by rw [hrates]; rfl⟩, rfl, rfl, rfl⟩
  obtain ⟨hrun, hrun'⟩ :=
    run_endsLike_rates_and_aggregate hat hhere hlists (by simp [files]) hgiven none none
  exact ⟨m, hat, hhere, hlists, by simp [files], hgiven, hunit, hset, hrates,
    hrun .default manifestCaption _ hunit hset nofun, hrun' hrates⟩

end Run

end BenchReport
