import Mathlib
import BenchReport.Group.Basic
import BenchReport.Proofs.Keyed

/-!
# Groups are averages

`BenchReport.Group.aggregate` fills all groups in one pass, whatever order the members
of different groups come in. Two counts decide what a group says in the end: how many
members came in, and how many values of a metric. The invariant of the pass
(`BenchReport.Group.Accumulator.Holds`) is that they are counts of the same thing, the
second one of those members that carry the metric, so that they agree exactly when
every member carries it (`BenchReport.Group.Accumulator.Holds.mean?_eq_some_iff`).

Sums are taken in the order of the list, started at zero. Addition of doubles is not
associative, and nothing here changes the order of a sum.
-/

namespace BenchReport.Group

/-- The values of a metric among the members that carry it, in their order. -/
def valuesOf (metric : Metric) (members : List Metrics) : List Float :=
  members.filterMap fun m => m.get? metric

/-- **What values come to**: nothing if there are none, and else their sum and their
number. -/
def totalOf (values : List Float) : Option Total :=
  if values = [] then none else some ⟨values.foldl (· + ·) 0, values.length⟩

/-- One value more. -/
theorem totalOf_concat (values : List Float) (value : Float) :
    totalOf (values ++ [value]) = some (((totalOf values).getD .zero).add value) := by
  rw [totalOf, if_neg (by simp), totalOf]
  by_cases hvalues : values = []
  · subst hvalues
    rfl
  · rw [if_neg hvalues, List.foldl_append, List.length_append]
    rfl

namespace Accumulator

/-- **The invariant of a group that is being filled**: it has counted these members, and
added up the values that they carry. -/
structure Holds (acc : Accumulator) (members : List Metrics) : Prop where
  members_eq : acc.members = members.length
  sorted : Keyed.Sorted acc.totals
  totals_eq : ∀ metric, Keyed.get? metric acc.totals = totalOf (valuesOf metric members)

theorem holds_empty : empty.Holds [] where
  members_eq := rfl
  sorted := List.Pairwise.nil
  totals_eq _ := rfl

/-- Of the metrics of a member, those that are a given one. -/
theorem filter_toList (metrics : Metrics) (metric : Metric) :
    metrics.toList.filter (fun entry => entry.1 = metric) =
      ((metrics.get? metric).map fun value => (metric, value)).toList := by
  obtain ⟨latency, iterations, bytes, allocs⟩ := metrics
  cases metric <;> cases latency <;> cases iterations <;> cases bytes <;> cases allocs <;> rfl

/-- **A member that comes in keeps the invariant.** -/
theorem Holds.add {acc : Accumulator} {members : List Metrics} (h : acc.Holds members)
    (metrics : Metrics) : (acc.add metrics).Holds (members ++ [metrics]) where
  members_eq := by simp [Accumulator.add, h.members_eq]
  sorted := Keyed.sorted_foldl_insertWith h.sorted _
  totals_eq metric := by
    have hvalues : valuesOf metric (members ++ [metrics]) =
        valuesOf metric members ++ (metrics.get? metric).toList := by
      rw [valuesOf, List.filterMap_append]
      cases hvalue : metrics.get? metric <;> simp [valuesOf, hvalue]
    rw [Accumulator.add, Keyed.get?_foldl_insertWith h.sorted, filter_toList, h.totals_eq, hvalues]
    cases metrics.get? metric with
    | none => simp
    | some value => simp [totalOf_concat]

/-- **The invariant of a whole run.** -/
theorem Holds.foldl {acc : Accumulator} {members : List Metrics} (h : acc.Holds members)
    (more : List Metrics) : (more.foldl Accumulator.add acc).Holds (members ++ more) := by
  induction more generalizing acc members with
  | nil => simpa using h
  | cons metrics more ih => simpa using ih (h.add metrics)

/-- **A group has a mean of a metric exactly when every member carries it**, and then it
is the sum of their values divided by their number. -/
theorem Holds.mean?_eq_some_iff {acc : Accumulator} {members : List Metrics}
    (h : acc.Holds members) (hne : members ≠ []) {metric : Metric} {value : Float} :
    acc.mean? metric = some value ↔
      (∀ m ∈ members, (m.get? metric).isSome) ∧
        value = (valuesOf metric members).foldl (· + ·) 0 / sizeFloat members.length := by
  have hcount : (valuesOf metric members).length = members.length ↔
      ∀ m ∈ members, (m.get? metric).isSome := List.filterMap_length_eq_length
  rw [mean?, h.totals_eq, totalOf, h.members_eq, ← hcount]
  by_cases hvalues : valuesOf metric members = []
  · have hlength : (valuesOf metric members).length ≠ members.length := by
      rw [hvalues]
      exact fun heq => hne (List.length_eq_zero_iff.mp heq.symm)
    rw [if_pos hvalues]
    exact iff_of_false (by simp) fun hmean => hlength hmean.1
  · rw [if_neg hvalues]
    simp only
    split
    · rename_i heq
      simp [heq, eq_comm]
    · rename_i hdiff
      simp [hdiff]

end Accumulator

section Aggregate

variable {α : Type} [Observation α]

/-- The members of a key, in the order of the list. -/
def membersOf (key : GroupKey) (observations : List α) : List α :=
  observations.filter fun o => Observation.key o = key

theorem sorted_foldl_take (observations : List α) : Keyed.Sorted (observations.foldl take []) :=
  Keyed.sorted_foldl_insertWith List.Pairwise.nil observations

/-- The groups ascend. -/
theorem pairwise_aggregate (observations : List α) :
    (aggregate observations).Pairwise fun a b => compare a.key b.key = .lt :=
  List.pairwise_map.mpr (sorted_foldl_take observations)

/-- **What is filled at a key holds the members of that key**, and there is one. -/
theorem holds_of_mem {observations : List α} {key : GroupKey} {acc : Accumulator}
    (h : (key, acc) ∈ observations.foldl take []) :
    membersOf key observations ≠ [] ∧
      acc.Holds ((membersOf key observations).map Observation.metrics) := by
  have hget : Keyed.get? key (observations.foldl take []) = some acc :=
    (Keyed.get?_eq_some_iff (sorted_foldl_take observations)).mpr h
  rw [take, Keyed.get?_foldl_insertWith List.Pairwise.nil] at hget
  split at hget
  · cases hget
  · rename_i hne
    refine ⟨hne, ?_⟩
    have hacc : ((membersOf key observations).map Observation.metrics).foldl Accumulator.add
        .empty = acc := by
      rw [List.foldl_map]
      exact Option.some.inj hget
    rw [← hacc]
    simpa using Accumulator.holds_empty.foldl
      ((membersOf key observations).map Observation.metrics)

/-- The sum of a metric over the members of a key, in the order of the list. -/
def sumOf (metric : Metric) (key : GroupKey) (observations : List α) : Float :=
  (valuesOf metric ((membersOf key observations).map Observation.metrics)).foldl (· + ·) 0

/-- **What a group says of its members**: their number, and the mean of a metric that all
of them carry. -/
theorem says_of_mem_aggregate {observations : List α} {g : Group} (h : g ∈ aggregate observations) :
    g.size = (membersOf g.key observations).length ∧ ∀ metric value,
      g.means.get? metric = some value ↔
        (∀ o ∈ membersOf g.key observations, ((Observation.metrics o).get? metric).isSome) ∧
          value = sumOf metric g.key observations /
            sizeFloat (membersOf g.key observations).length := by
  obtain ⟨⟨key, acc⟩, hmem, rfl⟩ := List.mem_map.mp h
  obtain ⟨hne, hholds⟩ := holds_of_mem hmem
  have hsize : acc.members = (membersOf key observations).length := by
    rw [hholds.members_eq, List.length_map]
  refine ⟨hsize, fun metric value => ?_⟩
  have hmean := @Accumulator.Holds.mean?_eq_some_iff acc _ hholds (by simpa using hne) metric value
  rwa [List.forall_mem_map, List.length_map, ← Metrics.get?_ofFn acc.mean?] at hmean

/-- The groups are those of the keys that occur. -/
theorem mem_keys_aggregate {observations : List α} {key : GroupKey} :
    key ∈ (aggregate observations).map Group.key ↔ ∃ o ∈ observations, Observation.key o = key := by
  have hkeys : (aggregate observations).map Group.key =
      (observations.foldl take []).map Prod.fst := by
    rw [aggregate, List.map_map]
    rfl
  rw [hkeys, take, Keyed.mem_keys_foldl_insertWith]
  simp

/-- **Every observation is counted in one group.** -/
theorem sum_size_aggregate (observations : List α) :
    ((aggregate observations).map Group.size).sum = observations.length := by
  have hempty : Accumulator.members .empty = 0 := rfl
  have hadd : ∀ (acc : Accumulator) (o : α),
      (acc.add (Observation.metrics o)).members = acc.members + 1 := fun _ _ => rfl
  have hsum : ((observations.foldl take []).map fun e => e.2.members).sum =
      0 + observations.length := Keyed.sum_foldl_insertWith hempty hadd observations []
  rw [Nat.zero_add] at hsum
  rw [aggregate, List.map_map, ← hsum]
  rfl

/-- **Aggregation is grouping and averaging.** The groups have the keys that occur, in
ascending order, and share out the observations. Each counts the members of its key and
has a mean of just those metrics that all of them carry. -/
theorem aggregate_averages_members (observations : List α) :
    (aggregate observations).Pairwise (fun a b => compare a.key b.key = .lt) ∧
      (∀ key, key ∈ (aggregate observations).map Group.key ↔
        ∃ o ∈ observations, Observation.key o = key) ∧
      ((aggregate observations).map Group.size).sum = observations.length ∧
      ∀ g ∈ aggregate observations,
        let members := observations.filter fun o => Observation.key o = g.key
        1 ≤ g.size ∧ g.size = members.length ∧
          ∀ metric value, g.means.get? metric = some value ↔
            (∀ o ∈ members, ((Observation.metrics o).get? metric).isSome) ∧
              value = (members.filterMap fun o => (Observation.metrics o).get? metric).foldl
                (· + ·) 0 / sizeFloat members.length := by
  refine ⟨List.pairwise_map.mpr (sorted_foldl_take observations), fun _ => mem_keys_aggregate,
    sum_size_aggregate observations, fun g hg => ?_⟩
  obtain ⟨⟨key, acc⟩, hmem, rfl⟩ := List.mem_map.mp hg
  obtain ⟨hne, hholds⟩ := holds_of_mem hmem
  have hsize : acc.members = (membersOf key observations).length := by
    rw [hholds.members_eq, List.length_map]
  refine ⟨?_, hsize, fun metric value => ?_⟩
  · change 1 ≤ acc.members
    rw [hsize]
    exact List.length_pos_iff.mpr hne
  · change (Metrics.ofFn acc.mean?).get? metric = some value ↔ _
    rw [Metrics.get?_ofFn, hholds.mean?_eq_some_iff (by simpa using hne)]
    simp only [List.forall_mem_map, valuesOf, List.filterMap_map, List.length_map]
    rfl

end Aggregate

end BenchReport.Group
