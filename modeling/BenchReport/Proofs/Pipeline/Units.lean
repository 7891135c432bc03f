import Mathlib
import BenchReport.Proofs.Pipeline.Run

/-!
# A group is derived in the unit of its members

Units are stated by sources and asked for by groups, and the two meet in the key of a
measurement: each source states its unit once for every measurement that it gives, at the
key under which that measurement is averaged. So the statements about a group come from
the sources of its members and from no others
(`BenchReport.Pipeline.mem_unitsOf_iff`), however the measurements of different sources
are mixed, and a group has at least one
(`BenchReport.Pipeline.nonempty_memberUnits`).

Only whether the statements agree matters, not how many there are
(`BenchReport.Pipeline.agreedUnit?_eq_some_iff`); the unit of the setting has no say
(`BenchReport.Pipeline.run_derives_in_member_unit`).
-/

namespace BenchReport.Pipeline

/-! ### Agreement -/

theorem agreedUnit?_eq_some_iff {units : List ArrivalUnit} (h : units ≠ []) {unit : ArrivalUnit} :
    agreedUnit? units = some unit ↔ ∀ other ∈ units, other = unit := by
  obtain ⟨first, others, rfl⟩ := List.exists_cons_of_ne_nil h
  rw [agreedUnit?, List.forall_mem_cons]
  constructor
  · intro hagreed
    split at hagreed
    · rename_i hall
      obtain rfl : first = unit := Option.some.inj hagreed
      exact ⟨rfl, by simpa using hall⟩
    · cases hagreed
  · rintro ⟨rfl, hall⟩
    exact if_pos (by simpa using hall)

theorem agreedUnit?_eq_none_of_ne {units : List ArrivalUnit} {unit other : ArrivalUnit}
    (hunit : unit ∈ units) (hother : other ∈ units) (hne : unit ≠ other) :
    agreedUnit? units = none := by
  refine Option.eq_none_iff_forall_ne_some.mpr fun agreed hagreed => hne ?_
  have hall := (agreedUnit?_eq_some_iff (List.ne_nil_of_mem hunit)).mp hagreed
  rw [hall unit hunit, hall other hother]

/-! ### The units of a group -/

/-- **The units of a group's members**: those of the sources that can be read and that
have a measurement of its key. -/
def memberUnits (view : FileView) (options : ReadOptions) (sources : List Source)
    (key : GroupKey) : Set ArrivalUnit :=
  {unit | ∃ s ∈ sources, ∃ report, s.load view options = .ok report ∧
    (∃ m ∈ report.measurements, m.key = key) ∧ s.arrivalUnit = unit}

/-- What a source says about units, it says about its measurements. -/
theorem mem_unitsByKey_iff {l : Loaded} {key : GroupKey} {unit : ArrivalUnit} :
    (key, unit) ∈ l.unitsByKey ↔ ∃ report, l.result = .ok report ∧
      (∃ m ∈ report.measurements, m.key = key) ∧ l.source.arrivalUnit = unit := by
  rw [Loaded.unitsByKey]
  cases l.result with
  | error fault => exact iff_of_false (by simp) (by simp)
  | ok report =>
    simp only [List.mem_map, Prod.mk.injEq, Except.ok.injEq, exists_eq_left']
    constructor
    · rintro ⟨m, hm, hkey, hunit⟩
      exact ⟨⟨m, hm, hkey⟩, hunit⟩
    · rintro ⟨⟨m, hm, hkey⟩, hunit⟩
      exact ⟨m, hm, hkey, hunit⟩

variable {view : FileView} {options : ReadOptions} {config : RateConfig} {sources : List Source}

/-- **The statements about a group come from the sources of its members.** -/
theorem mem_unitsOf_iff {key : GroupKey} {unit : ArrivalUnit} :
    unit ∈ unitsOf (unitStatements (loadAll view options sources)) key ↔
      unit ∈ memberUnits view options sources key := by
  rw [unitsOf, unitStatements, Keyed.get?_groupBy]
  constructor
  · intro h
    obtain ⟨⟨k, u⟩, hfiltered, rfl⟩ := List.mem_map.mp h
    obtain ⟨hstatement, hkey⟩ := List.mem_filter.mp hfiltered
    obtain rfl : k = key := of_decide_eq_true hkey
    obtain ⟨l, hl, hstated⟩ := List.mem_flatMap.mp hstatement
    obtain ⟨s, hs, rfl⟩ := List.mem_map.mp hl
    obtain ⟨report, hreport, hm, hunit⟩ := mem_unitsByKey_iff.mp hstated
    exact ⟨s, hs, report, hreport, hm, hunit⟩
  · rintro ⟨s, hs, report, hreport, hm, hunit⟩
    have hstated : (key, unit) ∈ (Loaded.ofSource view options s).unitsByKey :=
      mem_unitsByKey_iff.mpr ⟨report, hreport, hm, hunit⟩
    have hstatement := List.mem_flatMap.mpr ⟨_, List.mem_map_of_mem hs, hstated⟩
    exact List.mem_map.mpr ⟨_, List.mem_filter.mpr ⟨hstatement, decide_eq_true rfl⟩, rfl⟩

/-- **Every group has a unit**: that of a source of one of its members. -/
theorem nonempty_memberUnits {g : Group}
    (h : g ∈ Group.aggregate (measurements (loadAll view options sources))) :
    (memberUnits view options sources g.key).Nonempty := by
  obtain ⟨m, hm, hkey⟩ := Group.mem_keys_aggregate.mp (List.mem_map_of_mem h)
  obtain ⟨report, hreport, hm⟩ := List.mem_flatMap.mp hm
  obtain ⟨l, hl, hresult⟩ := mem_reports_iff.mp hreport
  obtain ⟨s, hs, rfl⟩ := List.mem_map.mp hl
  exact ⟨s.arrivalUnit, s, hs, report, hresult, ⟨m, hm, hkey⟩, rfl⟩

/-! ### What a run does with a group -/

section Rule

variable {g : Group}

theorem groupRule_of_ne {unit other : ArrivalUnit}
    (hunit : unit ∈ memberUnits view options sources g.key)
    (hother : other ∈ memberUnits view options sources g.key) (hne : unit ≠ other) :
    groupRule config (loadAll view options sources) g =
      .ok (.error .mixedUnits) := by
  have hnone :=
    agreedUnit?_eq_none_of_ne (mem_unitsOf_iff.mpr hunit) (mem_unitsOf_iff.mpr hother) hne
  simp only [groupRule, derive, hnone]

theorem groupRule_of_forall {unit : ArrivalUnit}
    (hne : (memberUnits view options sources g.key).Nonempty)
    (hall : ∀ other ∈ memberUnits view options sources g.key, other = unit) :
    groupRule config (loadAll view options sources) g =
      Rate.derive { config with arrivalUnit := unit } g := by
  obtain ⟨used, hused⟩ := hne
  have hagreed := (agreedUnit?_eq_some_iff (List.ne_nil_of_mem (mem_unitsOf_iff.mpr hused))).mpr
    fun other hother => hall other (mem_unitsOf_iff.mp hother)
  simp only [groupRule, derive, hagreed]

end Rule

/-- **A group is derived in the unit of its members.** Where the sources of the members
use two units the group is skipped for that reason, and where they use one the outcome is
that of the group in this unit, whatever the setting names. If one unit is used by all
sources that have measurements at all, the rates are those of the groups in this unit. -/
theorem run_derives_in_member_unit (view : FileView) (options : ReadOptions) (config : RateConfig)
    (sources : List Source) :
    ∃ r, run view options config sources = .ok r ∧
      (∀ g ∈ r.groups,
        (memberUnits view options sources g.key).Nonempty ∧
        ((memberUnits view options sources g.key).Nontrivial →
          r.rates.outcomesAt g.key = [.error .mixedUnits]) ∧
        ∀ unit, memberUnits view options sources g.key = {unit} →
          ∃ outcome, Rate.derive { config with arrivalUnit := unit } g = .ok outcome ∧
            r.rates.outcomesAt g.key = [outcome]) ∧
      ∀ unit, (∀ s ∈ sources, ∀ report, s.load view options = .ok report →
          report.measurements ≠ [] → s.arrivalUnit = unit) →
        Rate.deriveAll { config with arrivalUnit := unit } r.groups = .ok r.rates := by
  obtain ⟨found, hfound, hrun⟩ := exists_settles config (loadAll view options sources)
  refine ⟨_, hrun, fun g hg => ⟨nonempty_memberUnits hg, ?_, fun unit hunit => ?_⟩,
    fun unit hall => ?_⟩
  · rintro ⟨unit, hunit, other, hother, hne⟩
    obtain ⟨outcome, hrule, houtcome⟩ := hfound.outcomesAt hg
    rw [groupRule_of_ne hunit hother hne] at hrule
    rw [← Except.ok.inj hrule] at houtcome
    exact houtcome
  · have hall : ∀ other ∈ memberUnits view options sources g.key, other = unit := by
      rw [hunit]
      exact fun other hother => hother
    obtain ⟨outcome, hrule, houtcome⟩ := hfound.outcomesAt hg
    rw [groupRule_of_forall (nonempty_memberUnits hg) hall] at hrule
    exact ⟨outcome, hrule, houtcome⟩
  · have hmembers : ∀ key, ∀ other ∈ memberUnits view options sources key, other = unit := by
      rintro key _ ⟨s, hs, report, hreport, ⟨m, hm, -⟩, rfl⟩
      exact hall s hs report hreport (List.ne_nil_of_mem hm)
    have hrules : ∀ g ∈ Group.aggregate (measurements (loadAll view options sources)),
        Rate.derive { config with arrivalUnit := unit } g =
          groupRule config (loadAll view options sources) g :=
      fun g hg => (groupRule_of_forall (nonempty_memberUnits hg) (hmembers g.key)).symm
    have hfound' : ((resultOf (loadAll view options sources) found).groups.mapM
        (Rate.ruled (Rate.derive { config with arrivalUnit := unit }))) = .ok found :=
      (Rate.mapM_ruled_congr hrules).trans hfound
    rw [Rate.deriveAll_eq, hfound']
    rfl

end BenchReport.Pipeline
