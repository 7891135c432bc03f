import Mathlib
import BenchReport.Proofs.Group.Aggregate
import BenchReport.Proofs.Rate
import BenchReport.Proofs.Report.Count

/-!
# A run comes to its end and loses nothing

The only fault that a run can report is a group without a mean latency, and there is no
such group: every layout of a measurement has a latency, and a metric that all members of
a group carry has a mean (`BenchReport.Group.isSome_latency?_of_mem_aggregate`). So every
list of sources comes to a result (`BenchReport.Pipeline.exists_settles`), sources that
cannot be read included.

What a result holds is accounted for at each stage
(`BenchReport.Pipeline.run_accounts_for_all`): the measurements that the sources counted
are those that were put together, the groups share them out, and the groups themselves
are shared out between those with rates and those without.
-/

namespace BenchReport

/-! ### Every group has a latency -/

/-- **A group of measurements has a mean latency**, whatever their layouts. -/
theorem Group.isSome_latency?_of_mem_aggregate {measurements : List Measurement} {g : Group}
    (h : g ∈ aggregate measurements) : g.latency?.isSome := by
  obtain ⟨⟨key, acc⟩, hmem, rfl⟩ := List.mem_map.mp h
  obtain ⟨hne, hholds⟩ := holds_of_mem hmem
  have hall : ∀ metrics ∈ (membersOf key measurements).map Observation.metrics,
      (metrics.get? .latency).isSome := by
    intro metrics hmetrics
    obtain ⟨m, -, rfl⟩ := List.mem_map.mp hmetrics
    exact Option.isSome_of_eq_some m.shape.get?_latency_metrics
  have hmean : acc.mean? .latency = some _ :=
    (hholds.mean?_eq_some_iff (by simpa using hne)).mpr ⟨hall, rfl⟩
  exact Option.isSome_of_eq_some hmean

namespace Pipeline

/-! ### Every group has an outcome -/

theorem exists_derive (config : RateConfig) (units : List ArrivalUnit) {g : Group}
    (h : g.latency?.isSome) : ∃ outcome, derive config units g = .ok outcome := by
  obtain ⟨latency, hlatency⟩ := Option.isSome_iff_exists.mp h
  rw [derive]
  cases agreedUnit? units with
  | none => exact ⟨_, rfl⟩
  | some unit =>
    simp only [Rate.derive, hlatency]
    exact ⟨_, rfl⟩

theorem key_of_derive {config : RateConfig} {units : List ArrivalUnit} {g : Group}
    {rates : DerivedRates} (h : derive config units g = .ok (.ok rates)) : rates.key = g.key := by
  rw [derive] at h
  split at h
  · cases h
  · exact Rate.key_of_derive h

/-- What comes of each of a list of sources. -/
def loadAll (view : FileView) (options : ReadOptions) (sources : List Source) : List Loaded :=
  sources.map (Loaded.ofSource view options)

/-- What a run does with a group. -/
def groupRule (config : RateConfig) (loaded : List Loaded) (g : Group) :
    Except MissingLatency (Except SkipReason DerivedRates) :=
  derive config (unitsOf (unitStatements loaded) g.key) g

/-- What a run makes of its groups, one after the other. -/
def Settles (config : RateConfig) (loaded : List Loaded) (found : Rate.Outcomes) : Prop :=
  (Group.aggregate (measurements loaded)).mapM (Rate.ruled (groupRule config loaded)) = .ok found

/-- The result of a run that has come to the given outcomes. -/
def resultOf (loaded : List Loaded) (found : Rate.Outcomes) : PipelineResult where
  sources := outcomes loaded
  metadata := metadata loaded
  footnotes := (reports loaded).flatMap Report.footnotes
  measurements := measurements loaded
  groups := Group.aggregate (measurements loaded)
  rates := Rate.table found

/-- **Every run comes to a result**, and every group to an outcome. -/
theorem exists_settles (config : RateConfig) (loaded : List Loaded) :
    ∃ found, Settles config loaded found ∧
      ofLoaded config loaded = .ok (resultOf loaded found) := by
  have hrule : ∀ g ∈ Group.aggregate (measurements loaded),
      ∃ outcome, groupRule config loaded g = .ok outcome :=
    fun g hg => exists_derive config _ (Group.isSome_latency?_of_mem_aggregate hg)
  obtain ⟨found, hfound⟩ := Rate.exists_mapM_ruled hrule
  have hall : deriveAll config (unitsOf (unitStatements loaded))
      (Group.aggregate (measurements loaded)) = .ok found :=
    (deriveAll_eq ..).trans hfound
  refine ⟨found, hfound, ?_⟩
  simp only [ofLoaded, hall]
  rfl

section Settles

variable {config : RateConfig} {loaded : List Loaded} {found : Rate.Outcomes}

theorem Settles.ofLoaded_eq (h : Settles config loaded found) :
    ofLoaded config loaded = .ok (resultOf loaded found) := by
  obtain ⟨found', hfound', hrun⟩ := exists_settles config loaded
  rwa [Except.ok.inj (hfound'.symm.trans h)] at hrun

theorem Settles.namesItsKey (h : Settles config loaded found) :
    ∀ entry ∈ found, Rate.NamesItsKey entry :=
  Rate.namesItsKey_of_mapM_ruled h fun _ _ => key_of_derive

theorem Settles.keys (h : Settles config loaded found) :
    found.map Prod.fst = (Group.aggregate (measurements loaded)).map Group.key :=
  Rate.keys_of_mapM_ruled h

theorem Settles.sorted (h : Settles config loaded found) : Keyed.Sorted found :=
  Rate.sorted_of_mapM_ruled h (Group.pairwise_aggregate _)

/-- **The table says of every group what the run did with it**, and nothing else. -/
theorem Settles.outcomesAt (h : Settles config loaded found) {g : Group}
    (hg : g ∈ Group.aggregate (measurements loaded)) :
    ∃ outcome, groupRule config loaded g = .ok outcome ∧
      (Rate.table found).outcomesAt g.key = [outcome] := by
  obtain ⟨outcome, hrule, hget⟩ := Rate.get?_of_mapM_ruled h (Group.pairwise_aggregate _) hg
  refine ⟨outcome, hrule, ?_⟩
  rw [RateTable.outcomesAt_table h.namesItsKey h.sorted, hget]
  rfl

end Settles

/-! ### Counts -/

/-- The reports put together are those of the sources that could be read. -/
theorem mem_reports_iff {loaded : List Loaded} {report : Report} :
    report ∈ reports loaded ↔ ∃ l ∈ loaded, l.result = .ok report := by
  rw [reports, List.mem_filterMap]
  refine exists_congr fun l => and_congr_right fun _ => ?_
  rw [Loaded.report?]
  cases l.result <;> simp [Except.toOption]

/-- The tallies of a result are those of the reports that were read. -/
theorem total_resultOf (loaded : List Loaded) (found : Rate.Outcomes) :
    (resultOf loaded found).total = ((reports loaded).map Report.tally).sum := by
  have htallies : (outcomes loaded).filterMap (fun entry => entry.2.toOption) =
      (reports loaded).map Report.tally := by
    rw [outcomes, reports, List.filterMap_map, List.map_filterMap]
    refine List.filterMap_congr fun l _ => ?_
    obtain ⟨source, fault | report⟩ := l <;> rfl
  rw [PipelineResult.total, Tally.sum_eq, ← htallies]
  rfl

/-- **All measurements that the sources counted are in the result.** -/
theorem records_total_resultOf (view : FileView) (options : ReadOptions) (sources : List Source)
    (found : Rate.Outcomes) :
    (resultOf (loadAll view options sources) found).total.records =
      (measurements (loadAll view options sources)).length := by
  rw [total_resultOf, Tally.records_sum, List.map_map, measurements, List.length_flatMap]
  refine congrArg List.sum (List.map_congr_left fun report hreport => ?_)
  obtain ⟨l, hl, hresult⟩ := mem_reports_iff.mp hreport
  obtain ⟨s, -, rfl⟩ := List.mem_map.mp hl
  exact Source.records_of_load hresult

/-- **A run fails for no sources, and accounts for all that it has read.** Every group has
a mean latency. The measurements that the sources counted are those of the result, and
the groups share them out. Of the groups in turn each is either derived or skipped, and
only once; both lists ascend. -/
theorem run_accounts_for_all (view : FileView) (options : ReadOptions) (config : RateConfig)
    (sources : List Source) :
    ∃ r, run view options config sources = .ok r ∧
      (∀ g ∈ r.groups, g.latency?.isSome) ∧
      r.total.records = r.measurements.length ∧
      (r.groups.map Group.size).sum = r.measurements.length ∧
      (∀ g ∈ r.groups, ∃ outcome, r.rates.outcomesAt g.key = [outcome]) ∧
      (r.rates.derived.map DerivedRates.key ++ r.rates.skipped.map Prod.fst).Perm
        (r.groups.map Group.key) ∧
      r.groups.Pairwise (fun a b => compare a.key b.key = .lt) ∧
      r.rates.derived.Pairwise (fun a b => compare a.key b.key = .lt) ∧
      r.rates.skipped.Pairwise (fun a b => compare a.1 b.1 = .lt) := by
  obtain ⟨found, hfound, hrun⟩ := exists_settles config (loadAll view options sources)
  have hkeys : (found.map Prod.fst).Pairwise fun a b => compare a b = .lt :=
    List.pairwise_map.mpr hfound.sorted
  have hperm := RateTable.perm_keys_table hfound.namesItsKey
  rw [hfound.keys] at hperm
  refine ⟨_, hrun, fun g hg => Group.isSome_latency?_of_mem_aggregate hg,
    records_total_resultOf view options sources found, Group.sum_size_aggregate _, fun g hg => ?_,
    hperm, Group.pairwise_aggregate _, ?_, ?_⟩
  · obtain ⟨outcome, -, houtcome⟩ := hfound.outcomesAt hg
    exact ⟨outcome, houtcome⟩
  · exact List.pairwise_map.mp (hkeys.sublist (RateTable.sublist_derived_table hfound.namesItsKey))
  · exact List.pairwise_map.mp (hkeys.sublist (RateTable.sublist_skipped_table found))

end Pipeline

end BenchReport
