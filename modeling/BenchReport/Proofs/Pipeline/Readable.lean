import Mathlib
import BenchReport.Proofs.Pipeline.Run
import BenchReport.Proofs.Report.LineByLine

/-!
# A source that cannot be read stands by itself

A run sees a source in three places: in the list of what came of the sources, where every
source has a line of its own, among the reports that are put together, and among the
statements about units. To the last two a source that cannot be read adds nothing, even if its
stream has failed when some of its lines were taken in already, so they are the same without it
(`BenchReport.Pipeline.reports_filter_isRead`,
`BenchReport.Pipeline.unitStatements_filter_isRead`), and all that is computed from them is
the same, too. A run on some sources is thus the run on those of them that can be read, but
for the lines about the others (`BenchReport.Pipeline.run_isolates_failures`).

Reports are put together in the order of the sources. Of two facts with one key the later
stands, so a fact is looked for in the last report first
(`BenchReport.Pipeline.get?_metadata`).
-/

namespace BenchReport

/-- The metadata of a source are a keyed list, whatever its form. -/
theorem Source.sorted_metadata_of_load {view : FileView} {options : ReadOptions} {s : Source}
    {report : Report} (h : s.load view options = .ok report) : Keyed.Sorted report.metadata := by
  obtain ⟨bytes, -, rfl⟩ := load_eq_ok_iff.mp h
  dsimp only [reportOf]
  cases s.format with
  | singleLine => exact SingleLine.sorted_metadata_ofLines _
  | pairedLine => exact List.Pairwise.nil

namespace Pipeline

variable {view : FileView} {options : ReadOptions} {config : RateConfig}

/-! ### Leaving out what was not read -/

/-- Whether there is a report of a source. -/
def isRead (l : Loaded) : Bool := l.result.isOk

theorem reports_filter_isRead (loaded : List Loaded) :
    reports (loaded.filter isRead) = reports loaded := by
  rw [reports, reports, List.filterMap_filter]
  refine List.filterMap_congr fun l _ => ?_
  obtain ⟨s, fault | report⟩ := l <;> rfl

theorem unitStatements_filter_isRead (loaded : List Loaded) :
    unitStatements (loaded.filter isRead) = unitStatements loaded := by
  have hstated : (loaded.filter isRead).flatMap Loaded.unitsByKey =
      loaded.flatMap Loaded.unitsByKey := by
    induction loaded with
    | nil => rfl
    | cons l loaded ih =>
      obtain ⟨s, fault | report⟩ := l
      · exact ih
      · exact congrArg (_ ++ ·) ih
  rw [unitStatements, unitStatements, hstated]

/-- **A run settles its groups by what was read.** -/
theorem settles_filter_isRead {loaded : List Loaded} {found : Rate.Outcomes} :
    Settles config (loaded.filter isRead) found ↔ Settles config loaded found := by
  have hrule : groupRule config (loaded.filter isRead) = groupRule config loaded := by
    funext g
    rw [groupRule, groupRule, unitStatements_filter_isRead]
  rw [Settles, Settles, measurements, measurements, reports_filter_isRead, hrule]

/-- **The result of a run is that of what was read**, but for what came of the sources. -/
theorem resultOf_filter_isRead (loaded : List Loaded) (found : Rate.Outcomes) :
    resultOf (loaded.filter isRead) found =
      { resultOf loaded found with sources := outcomes (loaded.filter isRead) } := by
  simp only [resultOf, metadata, measurements, reports_filter_isRead]

theorem outcomes_filter_isRead (loaded : List Loaded) :
    outcomes (loaded.filter isRead) = (outcomes loaded).filter fun entry => entry.2.isOk := by
  rw [outcomes, outcomes, List.filter_map]
  refine congrArg (List.map _) (List.filter_congr fun l _ => ?_)
  obtain ⟨s, fault | report⟩ := l <;> rfl

/-! ### Facts of several reports -/

/-- Facts are put on top of known ones report by report, and the last report is on top. -/
theorem get?_foldl_union {reports : List Report} (h : ∀ r ∈ reports, Keyed.Sorted r.metadata)
    {known : Metadata} (hknown : Keyed.Sorted known) (key : String) :
    Keyed.get? key (reports.foldl (fun known r => Keyed.union known r.metadata) known) =
      (reports.reverse.findSome? fun r => Keyed.get? key r.metadata).or
        (Keyed.get? key known) := by
  induction reports generalizing known with
  | nil => rfl
  | cons r reports ih =>
    have hr : Keyed.Sorted r.metadata := h r (by simp)
    rw [List.foldl_cons, ih (fun r' hr' => h r' (List.mem_cons_of_mem _ hr'))
        (Keyed.sorted_union hknown _), Keyed.get?_union hknown hr, ← Option.or_assoc,
      List.reverse_cons, List.findSome?_append, List.findSome?_singleton]

/-- **A fact of several sources is that of the last source which states it.** -/
theorem get?_metadata (sources : List Source) (key : String) :
    Keyed.get? key (metadata (loadAll view options sources)) =
      (reports (loadAll view options sources)).reverse.findSome? fun r =>
        Keyed.get? key r.metadata := by
  have hsorted : ∀ r ∈ reports (loadAll view options sources), Keyed.Sorted r.metadata := by
    intro r hr
    obtain ⟨l, hl, hresult⟩ := mem_reports_iff.mp hr
    obtain ⟨s, -, rfl⟩ := List.mem_map.mp hl
    exact Source.sorted_metadata_of_load hresult
  have hempty : Keyed.Sorted ([] : Metadata) := List.Pairwise.nil
  rw [metadata, get?_foldl_union hsorted hempty]
  exact Option.or_none

/-! ### Runs -/

/-- The sources that can be read. -/
def readable (view : FileView) (options : ReadOptions) (sources : List Source) : List Source :=
  sources.filter fun s => (s.load view options).isOk

theorem loadAll_readable (sources : List Source) :
    loadAll view options (readable view options sources) =
      (loadAll view options sources).filter isRead := by
  rw [loadAll, loadAll, List.filter_map]
  rfl

theorem reports_loadAll (sources : List Source) :
    reports (loadAll view options sources) =
      sources.filterMap fun s => (s.load view options).toOption := by
  rw [reports, loadAll, List.filterMap_map]
  rfl

/-- **A source that cannot be read changes nothing but its own line.** Every source has its
outcome, in the order of the sources: what became of its lines, or why it was not read. A stream
that fails, behind whatever bytes, is such a reason, in the words of the stream. All else is as
if only the readable sources had been given: their measurements and footnotes, one report behind
the other, the groups and rates of these measurements, and the facts, each from the last report
that states it. -/
theorem run_isolates_failures (view : FileView) (options : ReadOptions) (config : RateConfig)
    (sources : List Source) :
    ∃ r r', run view options config sources = .ok r ∧
      run view options config (readable view options sources) = .ok r' ∧
      r.sources = sources.map (fun s => (s.name, (s.load view options).map Report.tally)) ∧
      r'.sources = r.sources.filter (fun entry => entry.2.isOk) ∧
      (∀ s ∈ sources, ∀ size bytes fault,
        view.look s.path = .ok (.file size ⟨bytes, some fault⟩) →
        size ≤ options.limits.maxFileSize →
        (s.name, .error (.file s.path (.access (.other fault.text)))) ∈ r.sources) ∧
      r.measurements = r'.measurements ∧ r.metadata = r'.metadata ∧
      r.footnotes = r'.footnotes ∧ r.groups = r'.groups ∧ r.rates = r'.rates ∧
      let reports := sources.filterMap fun s => (s.load view options).toOption
      r.measurements = reports.flatMap Report.measurements ∧
      r.footnotes = reports.flatMap Report.footnotes ∧
      ∀ key, Keyed.get? key r.metadata =
        reports.reverse.findSome? fun report => Keyed.get? key report.metadata := by
  obtain ⟨found, hfound, hrun⟩ := exists_settles config (loadAll view options sources)
  obtain ⟨found', hfound', hrun'⟩ :=
    exists_settles config (loadAll view options (readable view options sources))
  rw [loadAll_readable] at hfound' hrun'
  obtain rfl : found' = found :=
    Except.ok.inj ((settles_filter_isRead.mp hfound').symm.trans hfound)
  have hreports := @reports_loadAll view options sources
  rw [resultOf_filter_isRead, ← loadAll_readable] at hrun'
  refine ⟨_, _, hrun, hrun', ?_, ?_, ?_, rfl, rfl, rfl, rfl, rfl, ?_, ?_, ?_⟩
  · exact List.map_map
  · rw [loadAll_readable]
    exact outcomes_filter_isRead _
  · intro s hs size bytes fault hlook hsize
    have hload := Source.load_of_failure (Source.stream_eq_ok_iff.mpr ⟨size, hsize, hlook⟩) rfl
    refine List.mem_map.mpr ⟨.ofSource view options s, List.mem_map_of_mem hs, ?_⟩
    rw [Loaded.ofSource, hload]
    rfl
  · exact congrArg (List.flatMap Report.measurements) hreports
  · exact congrArg (List.flatMap Report.footnotes) hreports
  · intro key
    rw [← hreports]
    exact get?_metadata sources key

end Pipeline

end BenchReport
