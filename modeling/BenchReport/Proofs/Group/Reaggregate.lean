import Mathlib
import BenchReport.Proofs.Binary64.Neutral
import BenchReport.Proofs.Group.Aggregate

/-!
# Averaging averages

A group counts as one observation when groups are aggregated. The keys of groups ascend, so
no two of them have one key, and each group becomes a group of its own, in the place where it
was (`BenchReport.Group.aggregate_eq_map_alone`). All its metrics are kept, since the only
member carries them.

The mean of one number is not quite the number. It is added to zero, which turns the negative
zero into the positive one, and divided by one, which changes nothing
(`BenchReport.Group.mean_of_one`). As no mean of one number is the negative zero, the means
stay as they are from the second aggregation on.
-/

namespace BenchReport.Group

/-! ### A group of one -/

/-- **The mean of one number** is the number, up to the sign of a zero. -/
theorem mean_of_one (value : Float) :
    (0.0 + value) / 1.0 = if value = -0.0 then 0.0 else value := by
  rw [Binary64.div_one_eq, Binary64.zero_add_eq]

/-- The mean of one number compares equal to it. -/
theorem beq_mean_of_one {value : Float} (h : value.isNaN = false) :
    ((0.0 + value) / 1.0 == value) = true := by
  rw [mean_of_one]
  split
  · rename_i hzero
    subst hzero
    rfl
  · rw [Float.isNaN_eq_decide_eq_nan, decide_eq_false_iff_not] at h
    exact Float.beq_self_iff.mpr h

/-- The mean of a mean of one number is that mean. -/
theorem mean_of_one_idem (value : Float) :
    (0.0 + (0.0 + value) / 1.0) / 1.0 = (0.0 + value) / 1.0 := by
  have hne : (0.0 + value) / 1.0 ≠ -0.0 := by
    rw [mean_of_one]
    split
    · decide
    · assumption
  rw [mean_of_one ((0.0 + value) / 1.0), if_neg hne]

section Alone

variable {α : Type} [Observation α]

/-- The group of one observation. -/
def alone (o : α) : Group where
  key := Observation.key o
  means := .ofFn fun metric =>
    ((Observation.metrics o).get? metric).map fun value => (0.0 + value) / 1.0
  size := 1

/-- A group of one is the group of itself. -/
theorem alone_alone (o : α) : alone (alone o) = alone o := by
  have hmeans : (alone (alone o)).means = (alone o).means := by
    refine Metrics.ext_get? fun metric => ?_
    simp only [alone, Observation.metrics, Metrics.get?_ofFn, Option.map_map, Function.comp_def,
      mean_of_one_idem]
  rw [alone, alone, mk.injEq]
  exact ⟨rfl, hmeans, rfl⟩

/-! ### Keys without repetition -/

/-- Whether the keys of observations ascend, none of them repeated. -/
def Ascending (observations : List α) : Prop :=
  observations.Pairwise fun a b => compare (Observation.key a) (Observation.key b) = .lt

variable {observations : List α}

/-- **An observation is the only member of its key.** -/
theorem Ascending.membersOf_eq (h : Ascending observations) {o : α} (ho : o ∈ observations) :
    membersOf (Observation.key o) observations = [o] := by
  have hne : ∀ {a b : α}, compare (Observation.key a) (Observation.key b) = .lt →
      Observation.key a ≠ Observation.key b := fun hlt heq => by
    rw [Std.LawfulEqOrd.compare_eq_iff_eq.mpr heq] at hlt
    cases hlt
  -- on the list: what stands behind an observation has greater keys, what stands before it
  -- smaller ones
  induction observations with
  | nil => cases ho
  | cons a rest ih =>
    obtain ⟨hhead, hrest⟩ := List.pairwise_cons.mp h
    rw [membersOf]
    rcases List.mem_cons.mp ho with rfl | hmem
    · have hnone : membersOf (Observation.key o) rest = [] :=
        List.filter_eq_nil_iff.mpr fun b hb => by simpa using (hne (hhead b hb)).symm
      rw [List.filter_cons_of_pos (by simp)]
      exact congrArg (o :: ·) hnone
    · rw [List.filter_cons_of_neg (by simpa using hne (hhead o hmem))]
      exact ih hrest hmem

/-- The group at the key of an observation is that of the observation. -/
theorem Ascending.eq_alone (h : Ascending observations) {o : α} (ho : o ∈ observations)
    {g : Group} (hg : g ∈ aggregate observations) (hkey : Observation.key o = g.key) :
    g = alone o := by
  have hmembers : membersOf g.key observations = [o] := hkey ▸ h.membersOf_eq ho
  obtain ⟨hsize, hmeans⟩ := says_of_mem_aggregate hg
  rw [hmembers] at hsize hmeans
  have hget : g.means = (alone o).means := by
    refine Metrics.ext_get? fun metric => Option.ext fun value => ?_
    rw [hmeans, sumOf, hmembers, alone, Metrics.get?_ofFn]
    cases hvalue : (Observation.metrics o).get? metric with
    | none => simp [hvalue]
    | some a =>
      have hvalues : valuesOf metric ([o].map Observation.metrics) = [a] := by
        simp [valuesOf, hvalue]
      have hone : sizeFloat 1 = 1.0 := rfl
      have hzero : (0 : Float) = 0.0 := rfl
      rw [hvalues, List.length_singleton, hone, List.foldl_cons, List.foldl_nil, hzero,
        Option.map_some, Option.some.injEq, and_iff_right (by simp [hvalue]), eq_comm]
  obtain ⟨key, means, size⟩ := g
  rw [alone, mk.injEq]
  exact ⟨hkey.symm, hget, hsize⟩

/-- **Observations with ascending keys make up a group each.** -/
theorem aggregate_eq_map_alone (h : Ascending observations) :
    aggregate observations = observations.map alone := by
  have := Keyed.asymm_compare Group.key
  refine (pairwise_aggregate observations).eq_of_mem_iff (List.pairwise_map.mpr h) fun g => ?_
  constructor
  · intro hg
    obtain ⟨o, ho, hkey⟩ := mem_keys_aggregate.mp (List.mem_map_of_mem hg)
    exact List.mem_map.mpr ⟨o, ho, (h.eq_alone ho hg hkey).symm⟩
  · intro hg
    obtain ⟨o, ho, rfl⟩ := List.mem_map.mp hg
    obtain ⟨g, hg, hkey⟩ := List.mem_map.mp (mem_keys_aggregate.mpr ⟨o, ho, rfl⟩)
    exact h.eq_alone ho hg hkey.symm ▸ hg

/-! ### Aggregating again -/

/-- Groups are observations with ascending keys. -/
theorem ascending_aggregate (observations : List α) : Ascending (aggregate observations) :=
  pairwise_aggregate observations

/-- From the second time on, aggregating changes nothing. -/
theorem aggregate_aggregate_aggregate (observations : List α) :
    aggregate (aggregate (aggregate observations)) = aggregate (aggregate observations) := by
  rw [aggregate_eq_map_alone (ascending_aggregate (aggregate observations)),
    aggregate_eq_map_alone (ascending_aggregate observations), List.map_map]
  exact List.map_congr_left fun g _ => alone_alone g

/-- **Aggregating groups changes next to nothing.** The groups that groups are aggregated to
stand in the same order under the same keys, each of one member, with means of the same
metrics. A mean is `(0.0 + a) / 1.0` where it was `a`: the same double unless `a` is the
negative zero, and one that compares equal unless `a` is no number. Aggregating any number of
times more changes nothing at all. -/
theorem reaggregation_is_stable (observations : List α) :
    List.Forall₂ (fun g g' => g'.key = g.key ∧ g'.size = 1 ∧ ∀ metric,
        g'.means.get? metric = (g.means.get? metric).map (fun a => (0.0 + a) / 1.0) ∧
          ∀ a ∈ g.means.get? metric, (a ≠ -0.0 → (0.0 + a) / 1.0 = a) ∧
            (a.isNaN = false → ((0.0 + a) / 1.0 == a) = true))
      (aggregate observations) (aggregate (aggregate observations)) ∧
    ∀ n, (aggregate (α := Group))^[n] (aggregate (aggregate observations)) =
      aggregate (aggregate observations) := by
  refine ⟨?_, Function.iterate_fixed (aggregate_aggregate_aggregate observations)⟩
  rw [aggregate_eq_map_alone (ascending_aggregate observations), List.forall₂_map_right_iff,
    List.forall₂_same]
  refine fun g _ => ⟨rfl, rfl, fun metric => ⟨Metrics.get?_ofFn .., fun a _ => ⟨?_, ?_⟩⟩⟩
  · intro hne
    rw [mean_of_one, if_neg hne]
  · exact beq_mean_of_one

end Alone

end BenchReport.Group
