import Mathlib
import BenchReport.BoxPlot

/-!
# Box plots do not depend on the order of samples

What is computed of samples is computed of the sorted samples, down to the mean. Sums of
doubles depend on the order in which they are taken, and so do the places of samples that
compare equal; that the given order leaves no trace therefore rests on the order by which is
sorted. It is one of bits: doubles of one rank are the same
(`BenchReport.floatRank_injective`), the two zeros included, so that a list of samples can be
sorted in one way only (`BenchReport.sortSamples_eq_of_perm`).

In sorted samples the first of those with any property is the least of them, and the last the
greatest (`BenchReport.isFirst_head`, `BenchReport.isLast_getLast`). This gives the extremes,
with no property asked for, and the whiskers, with that of lying between the fences
(`BenchReport.BoxPlot.IsInside`).
-/

namespace BenchReport

/-! ### A total order of bits -/

/-- **Doubles of one rank are the same.** -/
theorem floatRank_injective : Function.Injective floatRank := by
  intro x y h
  have hx : x.toBits.toNat < 2 ^ 64 := x.toBits.toNat_lt
  have hy : y.toBits.toNat < 2 ^ 64 := y.toBits.toNat_lt
  have hsize : UInt64.size = 2 ^ 64 := rfl
  refine Float.toBits_inj.mp (UInt64.toNat_inj.mp ?_)
  simp only [floatRank] at h
  -- positive doubles have the upper half of the ranks, negative ones the lower half
  split at h <;> split at h <;> omega

theorem floatLe_refl (x : Float) : floatLe x x = true := decide_eq_true le_rfl

theorem floatLe_trans (x y z : Float) (hxy : floatLe x y = true) (hyz : floatLe y z = true) :
    floatLe x z = true :=
  decide_eq_true ((of_decide_eq_true hxy).trans (of_decide_eq_true hyz))

theorem floatLe_total (x y : Float) : (floatLe x y || floatLe y x) = true := by
  simpa [floatLe] using Nat.le_total (floatRank x) (floatRank y)

theorem floatLe_antisymm {x y : Float} (hxy : floatLe x y = true) (hyx : floatLe y x = true) :
    x = y :=
  floatRank_injective (Nat.le_antisymm (of_decide_eq_true hxy) (of_decide_eq_true hyx))

/-! ### Sorted samples -/

section Sorted

variable {samples samples' : List Float} {x : Float}

theorem sortSamples_perm (samples : List Float) : (sortSamples samples).Perm samples :=
  List.mergeSort_perm samples floatLe

theorem pairwise_sortSamples (samples : List Float) :
    (sortSamples samples).Pairwise fun x y => floatLe x y = true :=
  List.pairwise_mergeSort floatLe_trans floatLe_total samples

/-- **Samples are sorted in one way only**, whatever order they are given in. -/
theorem sortSamples_eq_of_perm (h : samples.Perm samples') :
    sortSamples samples = sortSamples samples' := by
  have hsorted : (sortSamples samples).Perm (sortSamples samples') :=
    (sortSamples_perm samples).trans (h.trans (sortSamples_perm samples').symm)
  exact hsorted.eq_of_pairwise (fun _ _ _ _ hxy hyx => floatLe_antisymm hxy hyx)
    (pairwise_sortSamples samples) (pairwise_sortSamples samples')

/-- Whether a double is the least of some samples. -/
structure IsFirst (x : Float) (samples : List Float) : Prop where
  /-- It is one of them. -/
  mem : x ∈ samples
  /-- None comes before it. -/
  le : ∀ y ∈ samples, floatLe x y = true

/-- Whether a double is the greatest of some samples. -/
structure IsLast (x : Float) (samples : List Float) : Prop where
  /-- It is one of them. -/
  mem : x ∈ samples
  /-- None comes after it. -/
  ge : ∀ y ∈ samples, floatLe y x = true

/-- **In sorted samples the first is the least.** -/
theorem isFirst_head (h : samples.Pairwise fun x y => floatLe x y = true)
    (hne : samples ≠ []) : IsFirst (samples.head hne) samples := by
  refine ⟨List.head_mem hne, fun y hy => ?_⟩
  cases samples with
  | nil => exact absurd rfl hne
  | cons x rest =>
    rcases List.mem_cons.mp hy with rfl | hmem
    · exact floatLe_refl y
    · exact List.rel_of_pairwise_cons h hmem

/-- **In sorted samples the last is the greatest.** -/
theorem isLast_getLast (h : samples.Pairwise fun x y => floatLe x y = true)
    (hne : samples ≠ []) : IsLast (samples.getLast hne) samples := by
  refine ⟨List.getLast_mem hne, fun y hy => ?_⟩
  rw [← List.dropLast_concat_getLast hne] at h hy
  rcases List.mem_append.mp hy with hmem | hmem
  · exact (List.pairwise_append.mp h).2.2 y hmem _ (List.mem_singleton_self _)
  · rw [List.mem_singleton.mp hmem]
    exact floatLe_refl _

theorem IsFirst.perm (h : IsFirst x samples) (hperm : samples.Perm samples') :
    IsFirst x samples' :=
  ⟨hperm.mem_iff.mp h.mem, fun y hy => h.le y (hperm.mem_iff.mpr hy)⟩

theorem IsLast.perm (h : IsLast x samples) (hperm : samples.Perm samples') :
    IsLast x samples' :=
  ⟨hperm.mem_iff.mp h.mem, fun y hy => h.ge y (hperm.mem_iff.mpr hy)⟩

end Sorted

/-! ### What a box plot says -/

namespace BoxPlot

variable {samples : List Float}

/-- Whether a sample lies between the fences, or on one of them. -/
def IsInside (plot : BoxPlot) (x : Float) : Prop :=
  plot.q1 - 1.5 * (plot.q3 - plot.q1) ≤ x ∧ x ≤ plot.q3 + 1.5 * (plot.q3 - plot.q1)

instance (plot : BoxPlot) (x : Float) : Decidable (plot.IsInside x) :=
  inferInstanceAs (Decidable (_ ∧ _))

/-- The samples that are no outliers. -/
def inside (plot : BoxPlot) (samples : List Float) : List Float :=
  samples.filter fun x => plot.IsInside x

/-- What is left out by the fences of sorted samples, and where what is left begins and
ends. -/
theorem ofSorted_inside (samples : List Float) :
    let plot := ofSorted samples
    plot.outliers = samples.length - (plot.inside samples).length ∧
      plot.lowerWhisker = (plot.inside samples).head?.getD plot.q1 ∧
      plot.upperWhisker = (plot.inside samples).getLast?.getD plot.q3 := by
  intro plot
  have hinside : plot.inside samples = samples.filter fun x =>
      plot.q1 - reach * (plot.q3 - plot.q1) ≤ x && x ≤ plot.q3 + reach * (plot.q3 - plot.q1) :=
    List.filter_congr fun x _ => Bool.decide_and ..
  rw [hinside]
  exact ⟨rfl, rfl, rfl⟩

theorem ofSorted_min (hne : samples ≠ []) : (ofSorted samples).min = samples.head hne := by
  cases samples with
  | nil => exact absurd rfl hne
  | cons => rfl

theorem ofSorted_max (hne : samples ≠ []) : (ofSorted samples).max = samples.getLast hne := by
  change samples.toArray.getD (samples.toArray.size - 1) 0 = _
  rw [List.getLast_eq_getElem, List.size_toArray, Array.getD_eq_getD_getElem?,
    List.getElem?_toArray, List.getElem?_eq_getElem (by have := List.length_pos_iff.mpr hne; omega)]
  rfl

/-- **A box plot of sorted samples says of them** how many they are, which are the extremes,
how many lie beyond the fences, and which are the extremes of the others. -/
theorem ofSorted_says (h : samples.Pairwise fun x y => floatLe x y = true) (hne : samples ≠ []) :
    let plot := ofSorted samples
    IsFirst plot.min samples ∧ IsLast plot.max samples ∧
      plot.outliers + (plot.inside samples).length = samples.length ∧
      (plot.inside samples ≠ [] → IsFirst plot.lowerWhisker (plot.inside samples) ∧
        IsLast plot.upperWhisker (plot.inside samples)) := by
  intro plot
  obtain ⟨houtliers, hlower, hupper⟩ := ofSorted_inside samples
  have hinside : (plot.inside samples).Pairwise fun x y => floatLe x y = true := h.filter _
  refine ⟨ofSorted_min hne ▸ isFirst_head h hne, ofSorted_max hne ▸ isLast_getLast h hne, ?_,
    fun hsome => ⟨?_, ?_⟩⟩
  · rw [houtliers]
    exact Nat.sub_add_cancel (List.length_filter_le ..)
  · rw [hlower, List.head?_eq_some_head hsome]
    exact isFirst_head hinside hsome
  · rw [hupper, List.getLast?_eq_some_getLast hsome]
    exact isLast_getLast hinside hsome

/-- Whether samples have no box plot, as it is asked. -/
theorem isEmpty_or_any_iff : (samples.isEmpty || samples.any Float.isNaN) = true ↔
    samples = [] ∨ ∃ x ∈ samples, x.isNaN = true := by
  rw [Bool.or_eq_true, List.isEmpty_iff, List.any_eq_true]

/-- There is a box plot of samples unless there are none or one is no number. -/
theorem ofSamples?_eq_none_iff :
    ofSamples? samples = none ↔ samples = [] ∨ ∃ x ∈ samples, x.isNaN = true := by
  rw [ofSamples?, ← isEmpty_or_any_iff]
  split <;> simp_all only [reduceCtorEq]

/-- A box plot is that of the sorted samples. -/
theorem ofSamples?_eq_some_iff {plot : BoxPlot} :
    ofSamples? samples = some plot ↔
      ¬(samples = [] ∨ ∃ x ∈ samples, x.isNaN = true) ∧ ofSorted (sortSamples samples) = plot := by
  rw [ofSamples?, ← isEmpty_or_any_iff]
  split <;> simp_all only [reduceCtorEq, not_true_eq_false, false_and, Option.some.injEq,
    Bool.not_eq_true, not_false_eq_true, true_and, Bool.false_eq_true]

/-- **Samples that are given in another order have the same box plot.** -/
theorem ofSamples?_eq_of_perm {samples' : List Float} (h : samples.Perm samples') :
    ofSamples? samples = ofSamples? samples' := by
  have hempty : samples = [] ↔ samples' = [] := by
    rw [← List.length_eq_zero_iff, h.length_eq, List.length_eq_zero_iff]
  refine Option.ext fun plot => ?_
  rw [ofSamples?_eq_some_iff, ofSamples?_eq_some_iff, sortSamples_eq_of_perm h, hempty]
  simp only [h.mem_iff]

/-- **A box plot says of samples what it says of them sorted.** -/
theorem says_of_ofSamples? {plot : BoxPlot} (h : ofSamples? samples = some plot) :
    plot.count = samples.length ∧ IsFirst plot.min samples ∧ IsLast plot.max samples ∧
      plot.outliers + (plot.inside samples).length = plot.count ∧
      (plot.inside samples ≠ [] → IsFirst plot.lowerWhisker (plot.inside samples) ∧
        IsLast plot.upperWhisker (plot.inside samples)) := by
  obtain ⟨hsome, rfl⟩ := ofSamples?_eq_some_iff.mp h
  have hsort := sortSamples_perm samples
  have hne : sortSamples samples ≠ [] := fun hnil =>
    hsome (.inl (List.perm_nil.mp (hnil ▸ hsort.symm)))
  obtain ⟨hmin, hmax, houtliers, hwhiskers⟩ := ofSorted_says (pairwise_sortSamples samples) hne
  have hcount : (ofSorted (sortSamples samples)).count = (sortSamples samples).length := rfl
  -- from here on only what the plot says of the sorted samples is used, not what it is
  generalize ofSorted (sortSamples samples) = plot at *
  have hinside : (plot.inside (sortSamples samples)).Perm (plot.inside samples) := hsort.filter _
  rw [hinside.length_eq] at houtliers
  refine ⟨hcount.trans hsort.length_eq, hmin.perm hsort, hmax.perm hsort,
    houtliers.trans hcount.symm, fun hmany => ?_⟩
  obtain ⟨hlower, hupper⟩ := hwhiskers fun hnil =>
    hmany (List.perm_nil.mp (hnil ▸ hinside.symm))
  exact ⟨hlower.perm hinside, hupper.perm hinside⟩

/-- **A box plot is one of a multiset.** Samples that are given in another order have the same
box plot, bit for bit, or none in either order: there is none of no samples and none if one of
them is no number. A box plot counts the samples; its extremes are the least and the greatest
of them in the order of bits, its outliers are all that do not lie between the fences, and if
any do, then the whiskers are the least and the greatest of these. -/
theorem plot_is_of_multiset :
    (∀ samples samples' : List Float, samples.Perm samples' →
        ofSamples? samples = ofSamples? samples') ∧
      (∀ samples : List Float, ofSamples? samples = none ↔
        samples = [] ∨ ∃ x ∈ samples, x.isNaN = true) ∧
      ∀ (samples : List Float) (plot : BoxPlot), ofSamples? samples = some plot →
        plot.count = samples.length ∧ IsFirst plot.min samples ∧ IsLast plot.max samples ∧
          plot.outliers + (plot.inside samples).length = plot.count ∧
          (plot.inside samples ≠ [] → IsFirst plot.lowerWhisker (plot.inside samples) ∧
            IsLast plot.upperWhisker (plot.inside samples)) :=
  ⟨fun _ _ hperm => ofSamples?_eq_of_perm hperm, fun _ => ofSamples?_eq_none_iff,
    fun _ _ hplot => says_of_ofSamples? hplot⟩

end BoxPlot

end BenchReport
