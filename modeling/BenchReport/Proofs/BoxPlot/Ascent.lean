import Mathlib
import BenchReport.Proofs.BoxPlot.Mean

/-!
# When the numbers of a box plot are in order

A box plot is made of any samples that are numbers, infinities among them. One would expect its
numbers to be in order: the quartiles between the extremes, the whiskers between these too, and
the outliers beyond the whiskers. They are, for all samples of a finite range. But a quartile is
interpolated by a difference, and a difference of infinities is no number, just as one of large
samples can be infinite. So it has to be asked of each quartile whether it can be interpolated
(`BenchReport.BoxPlot.IsInterpolable`), and this is all that has to be asked
(`BenchReport.BoxPlot.isOrdered_of_isInterpolable`).

With the quartiles in order the fences enclose them (`BenchReport.BoxPlot.Ascends.fences`), and the
whiskers, which are the last samples within the fences or else quartiles, part the outliers from
the other samples (`BenchReport.BoxPlot.Ascends.not_isInside_iff`). This fails in one case: if the
lower quartile is infinite, then the spread is no number and neither are the fences. Nothing lies
between them, and every sample is counted as an outlier
(`BenchReport.BoxPlot.Ascends.outliers_eq_iff`).
-/

namespace BenchReport.BoxPlot

open Binary64

/-! ### Fences -/

/-- The fence below the quartiles. -/
def lowFence (plot : BoxPlot) : Float := plot.q1 - 1.5 * (plot.q3 - plot.q1)

/-- The fence above the quartiles. -/
def highFence (plot : BoxPlot) : Float := plot.q3 + 1.5 * (plot.q3 - plot.q1)

/-- **The outer quartiles are in order**: they are numbers between the extremes, and none is the
negative infinity. -/
structure Ascends (plot : BoxPlot) : Prop where
  min_isNaN : plot.min.isNaN = false
  q1_isNaN : plot.q1.isNaN = false
  q3_isNaN : plot.q3.isNaN = false
  max_isNaN : plot.max.isNaN = false
  bound_lt : -overflow < place plot.q1
  min_le : place plot.min ≤ place plot.q1
  q1_le : place plot.q1 ≤ place plot.q3
  le_max : place plot.q3 ≤ place plot.max

section Fences

variable {plot : BoxPlot} {x : Float}

theorem value_reach : value 1.5 = 3 / 2 :=
  (value_of_unpack (3 * 2 ^ 51) (-52) rfl).trans (by norm_num)

/-- **The fences enclose the quartiles**, if the lower quartile is finite. -/
theorem Ascends.fences (h : plot.Ascends) (hq1 : plot.q1.isFinite = true) :
    plot.lowFence.isNaN = false ∧ place plot.lowFence ≤ place plot.q1 ∧
      plot.highFence.isNaN = false ∧ place plot.q3 ≤ place plot.highFence := by
  have hspread := isNaN_sub_of_isFinite h.q3_isNaN hq1
  have hpos : 0 < value 1.5 := by rw [value_reach]; norm_num
  obtain ⟨hmargin, hnonneg⟩ :=
    place_mul_nonneg (x := 1.5) rfl hpos hspread (place_sub_nonneg hspread h.q1_le)
  have hlow : plot.lowFence = plot.q1 + -(1.5 * (plot.q3 - plot.q1)) := sub_eq_add_neg _ _
  have hlowNumber := isNaN_add_of_isFinite hq1 ((isNaN_neg _).trans hmargin)
  have hhighNumber :=
    isNaN_add_of_nonneg h.q3_isNaN (h.bound_lt.trans_le h.q1_le) hmargin hnonneg
  rw [hlow]
  refine ⟨hlowNumber, place_add_le hlowNumber ?_, hhighNumber, place_le_add hhighNumber hnonneg⟩
  rw [place_neg]
  exact neg_nonpos.mpr hnonneg

/-- Without a finite lower quartile both outer quartiles are the positive infinity. -/
theorem Ascends.unpack_quartiles (h : plot.Ascends) (hq1 : plot.q1.isFinite = false) :
    plot.q1.toModel.unpack = .infinity .positive ∧
      plot.q3.toModel.unpack = .infinity .positive := by
  have hone : overflow ≤ place plot.q1 := not_lt.mp fun hlt => by
    rw [isFinite_of_place_mem h.q1_isNaN h.bound_lt hlt] at hq1
    cases hq1
  exact ⟨unpack_of_overflow_le h.q1_isNaN hone,
    unpack_of_overflow_le h.q3_isNaN (hone.trans h.q1_le)⟩

/-- **Without a finite lower quartile there are no fences**, and nothing lies between them. -/
theorem Ascends.not_isInside (h : plot.Ascends) (hq1 : plot.q1.isFinite = false) (x : Float) :
    ¬plot.IsInside x := by
  obtain ⟨hone, hthree⟩ := h.unpack_quartiles hq1
  have hspread : (plot.q3 - plot.q1).isNaN = true := by
    rw [sub_eq_add_neg]
    exact add_infinity_neg hthree (by rw [neg_unpack, hone]; rfl)
  have hfence : plot.lowFence.isNaN = true := by
    rw [lowFence, sub_eq_add_neg]
    exact isNaN_add_of_isNaN (.inr ((isNaN_neg _).trans (isNaN_mul_of_isNaN (.inr hspread))))
  exact fun hinside => not_le_of_isNaN (.inl hfence) hinside.1

end Fences

/-! ### Whiskers -/

section Whiskers

variable {samples : List Float} {x : Float}

theorem Ascending.place_mem (h : Ascending samples) (hx : x ∈ samples) :
    place (ofSorted samples).min ≤ place x ∧ place x ≤ place (ofSorted samples).max := by
  obtain ⟨i, hi, rfl⟩ := List.getElem_of_mem hx
  have hlast : i ≤ samples.length - 1 := by omega
  rw [← sampleAt_eq_getElem hi]
  exact ⟨h.place_mono (Nat.zero_le i) hlast, h.place_mono hlast le_rfl⟩

/-- The whiskers are samples between the fences, or without such a sample quartiles. -/
theorem whiskers_cases (h : Ascending samples) :
    let plot := ofSorted samples
    (plot.inside samples = [] ∧ plot.lowerWhisker = plot.q1 ∧ plot.upperWhisker = plot.q3) ∨
      IsFirst plot.lowerWhisker (plot.inside samples) ∧
        IsLast plot.upperWhisker (plot.inside samples) := by
  intro plot
  obtain ⟨-, hlower, hupper⟩ := ofSorted_inside samples
  by_cases hnil : plot.inside samples = []
  · refine .inl ⟨hnil, ?_, ?_⟩
    · rw [hlower, hnil]
      rfl
    · rw [hupper, hnil]
      rfl
  · obtain ⟨-, -, -, hends⟩ := ofSorted_says h.pairwise h.ne_nil
    exact .inr (hends hnil)

theorem mem_inside : x ∈ (ofSorted samples).inside samples ↔
    x ∈ samples ∧ (ofSorted samples).IsInside x := by
  rw [inside, List.mem_filter, decide_eq_true_iff]

/-- **Whiskers lie between the extremes.** -/
theorem Ascends.whiskers_mem (hplot : (ofSorted samples).Ascends) (h : Ascending samples) :
    ((ofSorted samples).lowerWhisker.isNaN = false ∧
        place (ofSorted samples).min ≤ place (ofSorted samples).lowerWhisker ∧
        place (ofSorted samples).lowerWhisker ≤ place (ofSorted samples).max) ∧
      (ofSorted samples).upperWhisker.isNaN = false ∧
        place (ofSorted samples).min ≤ place (ofSorted samples).upperWhisker ∧
        place (ofSorted samples).upperWhisker ≤ place (ofSorted samples).max := by
  have hquartiles := hplot.q1_le
  have hmin := hplot.min_le
  have hmax := hplot.le_max
  have hsample : ∀ x ∈ (ofSorted samples).inside samples, x.isNaN = false ∧
      place (ofSorted samples).min ≤ place x ∧ place x ≤ place (ofSorted samples).max :=
    fun x hx => ⟨h.isNaN x (mem_inside.mp hx).1, h.place_mem (mem_inside.mp hx).1⟩
  obtain ⟨-, hlower, hupper⟩ | ⟨hfirst, hlast⟩ := whiskers_cases h
  · rw [hlower, hupper]
    exact ⟨⟨hplot.q1_isNaN, hmin, hquartiles.trans hmax⟩,
      hplot.q3_isNaN, hmin.trans hquartiles, hmax⟩
  · exact ⟨hsample _ hfirst.mem, hsample _ hlast.mem⟩

/-- The whiskers do not reach beyond the fences. -/
theorem Ascends.whiskers_le (hplot : (ofSorted samples).Ascends) (h : Ascending samples)
    (hq1 : (ofSorted samples).q1.isFinite = true) :
    place (ofSorted samples).lowFence ≤ place (ofSorted samples).lowerWhisker ∧
      place (ofSorted samples).upperWhisker ≤ place (ofSorted samples).highFence := by
  obtain ⟨hlowNumber, hlow, hhighNumber, hhigh⟩ := hplot.fences hq1
  obtain ⟨-, hlower, hupper⟩ | ⟨hfirst, hlast⟩ := whiskers_cases h
  · rw [hlower, hupper]
    exact ⟨hlow, hhigh⟩
  · obtain ⟨hfirstMem, hfirstInside, -⟩ := mem_inside.mp hfirst.mem
    obtain ⟨hlastMem, -, hlastInside⟩ := mem_inside.mp hlast.mem
    exact ⟨(le_iff_place_le hlowNumber (h.isNaN _ hfirstMem)).mp hfirstInside,
      (le_iff_place_le (h.isNaN _ hlastMem) hhighNumber).mp hlastInside⟩

/-- **With a finite lower quartile the samples beyond the fences are those beyond the whiskers.** -/
theorem Ascends.not_isInside_iff (hplot : (ofSorted samples).Ascends) (h : Ascending samples)
    (hq1 : (ofSorted samples).q1.isFinite = true) (hx : x ∈ samples) :
    ¬(ofSorted samples).IsInside x ↔
      x < (ofSorted samples).lowerWhisker ∨ (ofSorted samples).upperWhisker < x := by
  have hxn := h.isNaN x hx
  obtain ⟨hlowNumber, -, hhighNumber, -⟩ := hplot.fences hq1
  obtain ⟨hlow, hhigh⟩ := hplot.whiskers_le h hq1
  obtain ⟨⟨hlower, -⟩, hupper, -⟩ := hplot.whiskers_mem h
  rw [lt_iff_place_lt hxn hlower, lt_iff_place_lt hupper hxn]
  constructor
  · intro hout
    by_contra hbetween
    obtain ⟨hleft, hright⟩ := not_or.mp hbetween
    exact hout ⟨(le_iff_place_le hlowNumber hxn).mpr (hlow.trans (not_lt.mp hleft)),
      (le_iff_place_le hxn hhighNumber).mpr ((not_lt.mp hright).trans hhigh)⟩
  · intro hbeyond hinside
    have hmem := mem_inside.mpr ⟨hx, hinside⟩
    obtain ⟨hnil, -⟩ | ⟨hfirst, hlast⟩ := whiskers_cases h
    · rw [hnil] at hmem
      cases hmem
    · have hleft := place_le_of_floatLe hlower hxn (hfirst.le x hmem)
      have hright := place_le_of_floatLe hxn hupper (hlast.ge x hmem)
      exact hbeyond.elim hleft.not_gt hright.not_gt

/-- The samples that lie strictly beyond the whiskers of a box plot. -/
def beyond (plot : BoxPlot) (samples : List Float) : ℕ :=
  samples.countP fun x => x < plot.lowerWhisker || plot.upperWhisker < x

/-- **The outliers are the samples beyond the whiskers, if and only if the lower quartile is
finite.** -/
theorem Ascends.outliers_eq_iff (hplot : (ofSorted samples).Ascends) (h : Ascending samples) :
    (ofSorted samples).outliers = (ofSorted samples).beyond samples ↔
      (ofSorted samples).q1.isFinite = true := by
  have houtliers : (ofSorted samples).outliers =
      samples.countP fun x => !decide ((ofSorted samples).IsInside x) := by
    have hall := samples.length_eq_countP_add_countP fun x => (ofSorted samples).IsInside x
    rw [(ofSorted_inside samples).1, inside, ← List.countP_eq_length_filter]
    simp only [decide_eq_true_eq, decide_not] at hall
    omega
  rw [houtliers, beyond]
  constructor
  · -- otherwise every sample is an outlier, but the greatest is not beyond the whiskers
    intro heq
    by_contra hinfinite
    rw [Bool.not_eq_true] at hinfinite
    have hnone := hplot.not_isInside hinfinite
    have hall : samples.countP (fun x => !decide ((ofSorted samples).IsInside x)) =
        samples.length := List.countP_eq_length.mpr fun x _ => by simpa using hnone x
    obtain ⟨-, hlower, hupper⟩ | ⟨hfirst, -⟩ := whiskers_cases h
    · obtain ⟨-, hlast, -⟩ := ofSorted_says h.pairwise h.ne_nil
      have hbeyond := List.countP_eq_length.mp (heq.symm.trans hall) _ hlast.mem
      rw [hlower, hupper, Bool.or_eq_true, decide_eq_true_eq, decide_eq_true_eq,
        lt_iff_place_lt hplot.max_isNaN hplot.q1_isNaN,
        lt_iff_place_lt hplot.q3_isNaN hplot.max_isNaN] at hbeyond
      have hthree := place_of_infinity (hplot.unpack_quartiles hinfinite).2
      have hmost := place_le_overflow hplot.max_isNaN
      exact hbeyond.elim (hplot.q1_le.trans hplot.le_max).not_gt (hmost.trans hthree.ge).not_gt
    · exact hnone _ (mem_inside.mp hfirst.mem).2
  · intro hq1
    refine List.countP_congr fun x hx => ?_
    simp only [Bool.not_eq_true', decide_eq_false_iff_not, Bool.or_eq_true, decide_eq_true_eq]
    exact hplot.not_isInside_iff h hq1 hx

end Whiskers

/-! ### Quartiles -/

section Quartiles

variable {samples : List Float} {p : Float}

/-- A percentile that lies on an interpolable way lies between the extremes, and it is not the
negative infinity. -/
theorem IsQuarters.percentile_mem (hp : IsQuarters p) (h : Ascending samples)
    (hway : IsInterpolable samples p) :
    (percentile samples.toArray p).isNaN = false ∧
      -overflow < place (percentile samples.toArray p) ∧
      place (ofSorted samples).min ≤ place (percentile samples.toArray p) ∧
      place (percentile samples.toArray p) ≤ place (ofSorted samples).max := by
  have hends := hp.ends h
  obtain ⟨hleft, hright⟩ := hends.interpolate_mem hway
  have hbound := lt_place_of_isFinite hway.1
  rw [percentile_eq]
  refine ⟨?_, hbound.trans_le hleft, ?_, ?_⟩
  · rw [hends.isNaN_interpolate, hway.1]
    rfl
  · exact (h.place_mono (Nat.zero_le _)
      ((hp.below_le_above _).trans (hp.above_le _))).trans hleft
  · exact hright.trans (h.place_mono (hp.above_le _) le_rfl)

/-- The three percentiles that are quartiles. -/
def quartiles : List Float := [0.25, 0.5, 0.75]

theorem isQuarters_of_mem (hp : p ∈ quartiles) : IsQuarters p := by
  simp only [quartiles, List.mem_cons, List.not_mem_nil, or_false] at hp
  obtain rfl | rfl | rfl := hp
  · exact isQuarters_one
  · exact isQuarters_two
  · exact isQuarters_three

/-- **Quartiles on interpolable ways are in order.** -/
theorem ascends_of_isInterpolable (h : Ascending samples)
    (hways : ∀ p ∈ quartiles, IsInterpolable samples p) :
    (ofSorted samples).Ascends ∧ (ofSorted samples).median.isNaN = false ∧
      place (ofSorted samples).q1 ≤ place (ofSorted samples).median ∧
      place (ofSorted samples).median ≤ place (ofSorted samples).q3 := by
  have hone := hways 0.25 (by simp [quartiles])
  have htwo := hways 0.5 (by simp [quartiles])
  have hthree := hways 0.75 (by simp [quartiles])
  obtain ⟨hq1, hbound, hmin, -⟩ := isQuarters_one.percentile_mem h hone
  obtain ⟨hmedian, -⟩ := isQuarters_two.percentile_mem h htwo
  obtain ⟨hq3, -, -, hmax⟩ := isQuarters_three.percentile_mem h hthree
  have hlower : place (ofSorted samples).q1 ≤ place (ofSorted samples).median :=
    isQuarters_one.percentile_mono isQuarters_two h
      (by rw [value_quarters.1, value_quarters.2.1]; norm_num) hone htwo
  have hupper : place (ofSorted samples).median ≤ place (ofSorted samples).q3 :=
    isQuarters_two.percentile_mono isQuarters_three h
      (by rw [value_quarters.2.1, value_quarters.2.2]; norm_num) htwo hthree
  refine ⟨⟨?_, hq1, hq3, ?_, hbound, hmin, hlower.trans hupper, hmax⟩, hmedian, hlower, hupper⟩
  · exact h.isNaN_sampleAt (Nat.zero_le _)
  · exact h.isNaN_sampleAt le_rfl

/-- **Within a finite range every way is interpolable.** -/
theorem Ascending.isInterpolable_of_range (h : Ascending samples) (hp : IsQuarters p)
    (hrange : ((ofSorted samples).max - (ofSorted samples).min).isFinite = true) :
    IsInterpolable samples p ∧ (percentile samples.toArray p).isFinite = true := by
  obtain ⟨hmax, hmin⟩ := isFinite_of_sub hrange
  have hfinite : ∀ x : Float, x.isNaN = false → place (ofSorted samples).min ≤ place x →
      place x ≤ place (ofSorted samples).max → x.isFinite = true := fun x hx hleft hright =>
    isFinite_of_place_mem hx ((lt_place_of_isFinite hmin).trans_le hleft)
      (hright.trans_lt (place_lt_of_isFinite hmax))
  have hbelow : below p samples.length ≤ samples.length - 1 :=
    (hp.below_le_above _).trans (hp.above_le _)
  have hlow : (sampleAt samples (below p samples.length)).isFinite = true :=
    hfinite _ (h.isNaN_sampleAt hbelow) (h.place_mono (Nat.zero_le _) hbelow)
      (h.place_mono hbelow le_rfl)
  have hway : IsInterpolable samples p := by
    refine ⟨hlow, fun hhigh => isFinite_sub_of_le hrange hlow hhigh ?_ ?_ ?_⟩
    · rw [← place_of_isFinite hmin, ← place_of_isFinite hlow]
      exact h.place_mono (Nat.zero_le _) hbelow
    · rw [← place_of_isFinite hlow, ← place_of_isFinite hhigh]
      exact h.place_mono (hp.below_le_above _) (hp.above_le _)
    · rw [← place_of_isFinite hhigh, ← place_of_isFinite hmax]
      exact h.place_mono (hp.above_le _) le_rfl
  obtain ⟨hnumber, -, hleft, hright⟩ := hp.percentile_mem h hway
  exact ⟨hway, hfinite _ hnumber hleft hright⟩

end Quartiles

/-! ### The numbers of a box plot -/

/-- **The numbers of a box plot are in order**: they are numbers, the quartiles ascend between the
extremes, and the whiskers lie between these. -/
structure IsOrdered (plot : BoxPlot) : Prop where
  numbers : ∀ x ∈ [plot.min, plot.q1, plot.median, plot.q3, plot.max, plot.lowerWhisker,
    plot.upperWhisker], x.isNaN = false
  quartiles : plot.min ≤ plot.q1 ∧ plot.q1 ≤ plot.median ∧ plot.median ≤ plot.q3 ∧
    plot.q3 ≤ plot.max
  lowerWhisker : plot.min ≤ plot.lowerWhisker ∧ plot.lowerWhisker ≤ plot.max
  upperWhisker : plot.min ≤ plot.upperWhisker ∧ plot.upperWhisker ≤ plot.max

section Plot

variable {samples : List Float} {p : Float}

theorem IsQuarters.percentile_mem_iff (hp : IsQuarters p) (h : Ascending samples) :
    let low := sampleAt samples (below p samples.length)
    let high := sampleAt samples (above p samples.length)
    (percentile samples.toArray p).isNaN = !low.isFinite ∧
      (low ≤ percentile samples.toArray p ∧ percentile samples.toArray p ≤ high ↔
        Interpolable low high) := by
  intro low high
  rw [percentile_eq]
  exact ⟨(hp.ends h).isNaN_interpolate, (hp.ends h).interpolate_mem_iff⟩

theorem isOrdered_of_isInterpolable (h : Ascending samples)
    (hways : ∀ p ∈ quartiles, IsInterpolable samples p) : (ofSorted samples).IsOrdered := by
  obtain ⟨hplot, hmedian, hlower, hupper⟩ := ascends_of_isInterpolable h hways
  obtain ⟨⟨hlw, hlwMin, hlwMax⟩, huw, huwMin, huwMax⟩ := hplot.whiskers_mem h
  constructor
  · simp only [List.forall_mem_cons, List.not_mem_nil, false_implies, implies_true, and_true]
    exact ⟨hplot.min_isNaN, hplot.q1_isNaN, hmedian, hplot.q3_isNaN, hplot.max_isNaN, hlw, huw⟩
  · exact ⟨(le_iff_place_le hplot.min_isNaN hplot.q1_isNaN).mpr hplot.min_le,
      (le_iff_place_le hplot.q1_isNaN hmedian).mpr hlower,
      (le_iff_place_le hmedian hplot.q3_isNaN).mpr hupper,
      (le_iff_place_le hplot.q3_isNaN hplot.max_isNaN).mpr hplot.le_max⟩
  · exact ⟨(le_iff_place_le hplot.min_isNaN hlw).mpr hlwMin,
      (le_iff_place_le hlw hplot.max_isNaN).mpr hlwMax⟩
  · exact ⟨(le_iff_place_le hplot.min_isNaN huw).mpr huwMin,
      (le_iff_place_le huw hplot.max_isNaN).mpr huwMax⟩

theorem ascending_sortSamples (hne : samples ≠ []) (hnumber : ∀ x ∈ samples, x.isNaN = false) :
    Ascending (sortSamples samples) where
  ne_nil hnil := hne (List.perm_nil.mp (hnil ▸ (sortSamples_perm samples).symm))
  isNaN x hx := hnumber x ((sortSamples_perm samples).mem_iff.mp hx)
  pairwise := pairwise_sortSamples samples

theorem ofSamples?_eq_ofSorted (hne : samples ≠ []) (hnumber : ∀ x ∈ samples, x.isNaN = false) :
    ofSamples? samples = some (ofSorted (sortSamples samples)) := by
  refine ofSamples?_eq_some_iff.mpr ⟨?_, rfl⟩
  rintro (hnil | ⟨x, hx, hnan⟩)
  · exact hne hnil
  · rw [hnumber x hx] at hnan
    cases hnan

/-- **The numbers of a box plot are in order where they can be interpolated.** Samples that are
numbers, infinities and all, have a box plot. Each quartile is a number exactly if the sample
before it is finite, and it lies between the samples around it exactly if moreover their
difference is finite or the second one is infinite; in samples of a finite range it always does.
If all three quartiles do, then the numbers of the plot are in order, and the outliers are the
samples beyond the whiskers exactly if the lower quartile is finite. The mean of no more samples
than a word can count is a number unless the positive infinity is added to the negative one. -/
theorem plot_numbers_ascend (hne : samples ≠ []) (hnumber : ∀ x ∈ samples, x.isNaN = false) :
    ∃ plot, ofSamples? samples = some plot ∧
      (∀ e ∈ [(0.25, plot.q1), (0.5, plot.median), (0.75, plot.q3)],
        let low := sampleAt (sortSamples samples) (below e.1 samples.length)
        let high := sampleAt (sortSamples samples) (above e.1 samples.length)
        e.2.isNaN = !low.isFinite ∧ (low ≤ e.2 ∧ e.2 ≤ high ↔ Interpolable low high)) ∧
      ((plot.max - plot.min).isFinite = true →
        (∀ p ∈ quartiles, IsInterpolable (sortSamples samples) p) ∧ plot.q1.isFinite = true) ∧
      ((∀ p ∈ quartiles, IsInterpolable (sortSamples samples) p) →
        plot.IsOrdered ∧ (plot.outliers = plot.beyond samples ↔ plot.q1.isFinite = true)) ∧
      (samples.length < 2 ^ 64 → (plot.mean.isNaN = true ↔ Float.inf ∈ samples ∧
        ((sortSamples samples).filter fun x => x ≠ Float.inf).foldl (· + ·) (-0.0) =
          -Float.inf)) := by
  have h := ascending_sortSamples hne hnumber
  have hperm := sortSamples_perm samples
  refine ⟨ofSorted (sortSamples samples), ofSamples?_eq_ofSorted hne hnumber, ?_, ?_, ?_, ?_⟩
  · simp only [List.forall_mem_cons, List.not_mem_nil, false_implies, implies_true, and_true,
      ← hperm.length_eq]
    exact ⟨isQuarters_one.percentile_mem_iff h, isQuarters_two.percentile_mem_iff h,
      isQuarters_three.percentile_mem_iff h⟩
  · intro hrange
    exact ⟨fun p hp => (h.isInterpolable_of_range (isQuarters_of_mem hp) hrange).1,
      (h.isInterpolable_of_range isQuarters_one hrange).2⟩
  · intro hways
    have hbeyond : (ofSorted (sortSamples samples)).beyond samples =
        (ofSorted (sortSamples samples)).beyond (sortSamples samples) := (hperm.countP_eq _).symm
    rw [hbeyond]
    exact ⟨isOrdered_of_isInterpolable h hways,
      (ascends_of_isInterpolable h hways).1.outliers_eq_iff h⟩
  · intro hlt
    rw [h.mean_isNaN_iff (hperm.length_eq ▸ hlt), hperm.mem_iff]

/-- Samples that are given in order are sorted. -/
theorem sortSamples_eq_self (h : samples.Pairwise fun x y => floatLe x y = true) :
    sortSamples samples = samples :=
  List.mergeSort_of_pairwise h

/-- An infinite sample above finite ones leaves the numbers of their plot in order. -/
theorem numbers_ascend_to_infinite_sample :
    ∃ plot, ofSamples? [1, 2, 3, 4, Float.inf] = some plot ∧ plot.IsOrdered ∧
      plot.outliers = plot.beyond [1, 2, 3, 4, Float.inf] ∧ plot.mean.isNaN = false := by
  have hne : [1, 2, 3, 4, Float.inf] ≠ [] := List.cons_ne_nil _ _
  have hnumber : ∀ x ∈ [1, 2, 3, 4, Float.inf], x.isNaN = false := by decide +kernel
  have hsorted : sortSamples [1, 2, 3, 4, Float.inf] = [1, 2, 3, 4, Float.inf] :=
    sortSamples_eq_self (by decide +kernel)
  obtain ⟨plot, hplot, -, -, hordered, hmean⟩ := plot_numbers_ascend hne hnumber
  rw [hsorted] at hordered hmean
  have hq1 : plot.q1.isFinite = true := by
    obtain ⟨-, rfl⟩ := ofSamples?_eq_some_iff.mp hplot
    rw [hsorted]
    decide +kernel
  obtain ⟨hnumbers, houtliers⟩ := hordered (by decide +kernel)
  refine ⟨plot, hplot, hnumbers, houtliers.mpr hq1, ?_⟩
  rw [← Bool.not_eq_true, hmean (by decide)]
  exact fun h => absurd h.2 (by decide +kernel)

/-- A single infinite sample has a box plot whose quartiles and whiskers are no numbers. -/
theorem infinite_sample_has_no_quartiles :
    ∃ plot, ofSamples? [Float.inf] = some plot ∧ ¬plot.IsOrdered ∧
      (∀ x ∈ [plot.q1, plot.median, plot.q3, plot.lowerWhisker, plot.upperWhisker],
        x.isNaN = true) ∧
      plot.outliers = 1 ∧ plot.beyond [Float.inf] = 0 := by
  have hsorted : sortSamples [Float.inf] = [Float.inf] :=
    sortSamples_eq_self (List.pairwise_singleton _ _)
  have hplot := ofSamples?_eq_ofSorted (List.cons_ne_nil Float.inf []) (by decide)
  have hnan : (ofSorted [Float.inf]).q1.isNaN = true := by decide +kernel
  rw [hsorted] at hplot
  refine ⟨ofSorted [Float.inf], hplot, fun h => ?_, ?_⟩
  · exact Bool.false_ne_true ((h.numbers _ (by simp)).symm.trans hnan)
  · decide +kernel

end Plot

end BenchReport.BoxPlot
