import Mathlib
import BenchReport.Proofs.BoxPlot.Quartile

/-!
# When a mean is a number

Samples are added up in ascending order. The negative infinities come first and the positive ones
last, and between them a sum of finite samples can become infinite by itself. So there is one way
only for a sum to be no number, which is that a positive infinity is added to a sum that has
become the negative one (`BenchReport.BoxPlot.foldl_add_isNaN_iff`). The induction is on the
samples that are still to be added. It carries that what has been added is a number, and that it
is not the positive infinity as long as a negative one is to come.
-/

namespace BenchReport.BoxPlot

open Binary64

/-! ### Sums in ascending order -/

section Sums

variable {samples : List Float} {x y acc : Float}

theorem foldl_add_isNaN (samples : List Float) (h : acc.isNaN = true) :
    (samples.foldl (· + ·) acc).isNaN = true := by
  induction samples generalizing acc with
  | nil => exact h
  | cons x rest ih => exact ih (isNaN_add_of_isNaN (.inl h))

theorem add_inf_of_ne (h : acc.isNaN = false) (hne : acc ≠ -Float.inf) :
    acc + Float.inf = Float.inf := by
  by_cases hinf : acc = Float.inf
  · rw [hinf]
    rfl
  · exact eq_of_unpack_eq (add_infinity_right (isFinite_of_ne h hinf hne) unpack_inf)

theorem isNaN_add_of_ne_inf (hx : x.isNaN = false) (h : acc.isNaN = false) (hne : x ≠ Float.inf)
    (hopposite : acc = Float.inf → x ≠ -Float.inf) : (acc + x).isNaN = false := by
  by_cases hneg : x = -Float.inf
  · by_cases hacc : acc = -Float.inf
    · rw [hneg, hacc]
      rfl
    · exact isNaN_add_of_isFinite (isFinite_of_ne h (fun h => hopposite h hneg) hacc) hx
  · obtain hfinite | ⟨s, hs⟩ := finite_or_infinity h
    · exact isNaN_add_of_isFinite hfinite hx
    · exact isNaN_of_infinity (add_infinity_left hs (isFinite_of_ne hx hne hneg))

theorem foldl_add_inf (h : acc.isNaN = false) (hne : acc ≠ -Float.inf) (n : ℕ) :
    ((List.replicate n Float.inf).foldl (· + ·) acc).isNaN = false := by
  induction n generalizing acc with
  | zero => exact h
  | succ n ih =>
    rw [List.replicate_succ, List.foldl_cons, add_inf_of_ne h hne]
    exact ih rfl (by decide)

/-- **A sum in ascending order is no number exactly if the positive infinity is added to the
negative one**, which can be a sample or what other samples add up to. -/
theorem foldl_add_isNaN_iff (hnumber : ∀ x ∈ samples, x.isNaN = false)
    (hsorted : samples.Pairwise fun x y => floatLe x y = true) (hacc : acc.isNaN = false)
    (hstart : acc = Float.inf → -Float.inf ∉ samples) :
    (samples.foldl (· + ·) acc).isNaN = true ↔ Float.inf ∈ samples ∧
      (samples.filter fun x => x ≠ Float.inf).foldl (· + ·) acc = -Float.inf := by
  induction samples generalizing acc with
  | nil =>
    rw [List.foldl_nil, hacc]
    exact iff_of_false Bool.false_ne_true fun h => List.not_mem_nil h.1
  | cons x rest ih =>
    obtain ⟨hx, hrest⟩ := List.forall_mem_cons.mp hnumber
    obtain ⟨hle, htail⟩ := List.pairwise_cons.mp hsorted
    by_cases hinf : x = Float.inf
    · -- nothing but positive infinities follows
      have hall : ∀ y ∈ x :: rest, y = Float.inf := by
        refine List.forall_mem_cons.mpr ⟨hinf, fun y hy => (eq_inf_iff (hrest y hy)).mpr ?_⟩
        exact ((eq_inf_iff hx).mp hinf).trans (place_le_of_floatLe hx (hrest y hy) (hle y hy))
      have hfilter : ((x :: rest).filter fun x => x ≠ Float.inf) = [] :=
        List.filter_eq_nil_iff.mpr fun y hy => by simpa using hall y hy
      have hmem : Float.inf ∈ x :: rest := List.mem_cons.mpr (.inl hinf.symm)
      rw [hfilter, List.foldl_nil, and_iff_right hmem]
      by_cases hneg : acc = -Float.inf
      · refine iff_of_true ?_ hneg
        rw [hneg, hinf, List.foldl_cons]
        exact foldl_add_isNaN rest rfl
      · refine iff_of_false ?_ hneg
        rw [List.eq_replicate_of_mem hall, foldl_add_inf hacc hneg]
        exact Bool.false_ne_true
    · have hsum := isNaN_add_of_ne_inf hx hacc hinf fun h hneg =>
        hstart h (List.mem_cons.mpr (.inl hneg.symm))
      have hnext : acc + x = Float.inf → -Float.inf ∉ rest := by
        intro hpos hmem
        have hleast : x = -Float.inf := (eq_neg_inf_iff hx).mpr
          ((place_le_of_floatLe hx rfl (hle _ hmem)).trans ((eq_neg_inf_iff rfl).mp rfl))
        have hinfinity := add_infinity_second (hleast ▸ unpack_neg_inf) hsum
        rw [hpos] at hinfinity
        cases hinfinity
      rw [List.foldl_cons, ih hrest htail hsum hnext, List.filter_cons_of_pos (by simpa using hinf),
        List.foldl_cons, List.mem_cons, or_iff_right (Ne.symm hinf)]

/-! ### Means -/

theorem value_sizeFloat_ne_zero {n : ℕ} (hpos : 0 < n) (hlt : n < 2 ^ 64) :
    value (Group.sizeFloat n) ≠ 0 := by
  have hone : rounded 1 = 1 := by
    have h := rounded_value (x := 1) rfl
    rwa [value_one] at h
  have hle : rounded 1 ≤ rounded n := rounded_mono (mod_cast hpos)
  rw [(value_sizeFloat n).2, Nat.mod_eq_of_lt hlt]
  linarith

/-- **When the mean of samples is no number.** -/
theorem Ascending.mean_isNaN_iff (h : Ascending samples) (hlt : samples.length < 2 ^ 64) :
    (ofSorted samples).mean.isNaN = true ↔ Float.inf ∈ samples ∧
      (samples.filter fun x => x ≠ Float.inf).foldl (· + ·) (-0.0) = -Float.inf := by
  have hstart : (-0.0 : Float) = Float.inf → -Float.inf ∉ samples := fun hzero =>
    absurd hzero (by decide)
  have hmean : (ofSorted samples).mean.isNaN = (samples.foldl (· + ·) (-0.0)).isNaN :=
    isNaN_div _ (value_sizeFloat samples.length).1 (value_sizeFloat_ne_zero h.length_pos hlt)
  rw [hmean, foldl_add_isNaN_iff h.isNaN h.pairwise rfl hstart]

end Sums

end BenchReport.BoxPlot
