import Mathlib
import BenchReport.Proofs.BoxPlot
import BenchReport.Proofs.Group.Aggregate

/-!
# Box plots and averages have the same groups

Measurements are brought together twice, once to be averaged and once to be plotted. The first
pass adds up what comes in, the second keeps it, and they share nothing but the keys. Still they
cannot disagree on what the groups are: both tables ascend by key and have the keys that occur,
so their keys are the same list (`BenchReport.BoxPlot.keys_groupBy_eq`), and behind each key
both have what `BenchReport.Group.membersOf` says, in the order of the measurements.

A box plot is left out only if there is none, which for the latencies of a group means that one
of them is no number: no group is empty.
-/

namespace BenchReport

open BenchReport.Group

namespace BoxPlot

variable {measurements : List Measurement} {key : GroupKey}

/-- **Plots and averages have the same keys**, in the same order, as long as none is left out. -/
theorem keys_groupBy_eq (measurements : List Measurement) :
    (Keyed.groupBy Measurement.key measurements).map Prod.fst =
      (aggregate measurements).map Group.key := by
  have : Std.Asymm fun a b : GroupKey => compare a b = .lt := Keyed.asymm_compare id
  have hplots : ((Keyed.groupBy Measurement.key measurements).map Prod.fst).Pairwise
      fun a b => compare a b = .lt := List.pairwise_map.mpr (Keyed.sorted_groupBy _ _)
  have haverages : ((aggregate measurements).map Group.key).Pairwise
      fun a b => compare a b = .lt := List.pairwise_map.mpr (pairwise_aggregate measurements)
  refine hplots.eq_of_mem_iff haverages fun key => ?_
  rw [Keyed.mem_keys_groupBy, mem_keys_aggregate]
  rfl

/-- The latencies of a group, in the order of the measurements. -/
def latenciesOf (key : GroupKey) (measurements : List Measurement) : List Float :=
  (membersOf key measurements).map Measurement.latency

/-- The groups are plotted one by one. -/
theorem ofMeasurements_eq_filterMap (measurements : List Measurement) :
    ofMeasurements measurements =
      ((aggregate measurements).map Group.key).filterMap fun key =>
        (ofSamples? (latenciesOf key measurements)).map fun plot => (key, plot) := by
  rw [ofMeasurements, Keyed.groupBy_eq_map, List.filterMap_map, keys_groupBy_eq]
  rfl

/-- **A group has a box plot unless one of its latencies is no number.** -/
theorem isSome_ofSamples?_latenciesOf (h : key ∈ (aggregate measurements).map Group.key) :
    (ofSamples? (latenciesOf key measurements)).isSome ↔
      ∀ m ∈ measurements, m.key = key → m.latency.isNaN = false := by
  obtain ⟨m, hm, hkey⟩ := mem_keys_aggregate.mp h
  have hne : latenciesOf key measurements ≠ [] := by
    refine List.ne_nil_of_mem (List.mem_map_of_mem (f := Measurement.latency) (a := m) ?_)
    exact List.mem_filter.mpr ⟨hm, decide_eq_true hkey⟩
  rw [Option.isSome_iff_ne_none, Ne, ofSamples?_eq_none_iff, or_iff_right hne]
  simp only [latenciesOf, List.mem_map, membersOf, List.mem_filter, decide_eq_true_eq]
  constructor
  · intro hnone m hm hkey
    by_contra hnan
    exact hnone ⟨m.latency, ⟨m, ⟨hm, hkey⟩, rfl⟩, by simpa using hnan⟩
  · rintro hall ⟨_, ⟨m, ⟨hm, hkey⟩, rfl⟩, hnan⟩
    rw [hall m hm hkey] at hnan
    cases hnan

/-- A filter that puts something behind what it keeps keeps the same. -/
theorem map_fst_filterMap {α β : Type} (f : α → Option β) (xs : List α) :
    (xs.filterMap fun a => (f a).map fun b => (a, b)).map Prod.fst =
      xs.filter fun a => (f a).isSome := by
  induction xs with
  | nil => rfl
  | cons a xs ih => cases h : f a <;> simp [h, ih]

/-- **Box plots and averages have the same groups.** The keys of the box plots are those of the
averages, in the same order, but for the groups with a latency that is no number. A group and
its box plot count the same members, and the box plot is that of their latencies, in the order
of the measurements. -/
theorem plots_have_groups_of_averages (measurements : List Measurement) :
    (ofMeasurements measurements).map Prod.fst =
        ((aggregate measurements).map Group.key).filter (fun key =>
          ∀ m ∈ measurements, m.key = key → m.latency.isNaN = false) ∧
      ∀ g ∈ aggregate measurements, ∀ plot, (g.key, plot) ∈ ofMeasurements measurements →
        plot.count = g.size ∧
          ofSamples? ((measurements.filter fun m => m.key = g.key).map Measurement.latency) =
            some plot := by
  rw [ofMeasurements_eq_filterMap]
  refine ⟨?_, fun g hg plot hplot => ?_⟩
  · rw [map_fst_filterMap]
    refine List.filter_congr fun key hkey => ?_
    rw [Bool.eq_iff_iff, decide_eq_true_iff]
    exact isSome_ofSamples?_latenciesOf hkey
  · obtain ⟨key, -, hentry⟩ := List.mem_filterMap.mp hplot
    obtain ⟨plot', hplot', heq⟩ := Option.map_eq_some_iff.mp hentry
    obtain ⟨rfl, rfl⟩ := Prod.mk.inj heq
    refine ⟨?_, hplot'⟩
    rw [(says_of_ofSamples? hplot').1, (says_of_mem_aggregate hg).1, latenciesOf, List.length_map]

end BoxPlot

end BenchReport
