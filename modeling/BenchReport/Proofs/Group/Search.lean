import Mathlib
import BenchReport.Group.Search
import BenchReport.Proofs.Text.Cut

/-!
# Halving finds what a walk finds

A list that is sorted for a search has three parts: what stands before the wanted place,
what stands at it, and what stands behind it. Halving keeps the end of the first two parts
among the elements that are left (`BenchReport.lastNotBehind_eq`), and the element there is at
the wanted place if any is. So it finds the last such element, which is what a walk from the
end meets first (`BenchReport.binarySearch?_eq_find?`).

A key has sorted parameters, hence its parameters are found
(`BenchReport.GroupKey.search?_eq_parameter?`).
-/

namespace BenchReport

section Halving

variable {α : Type} {order : α → Ordering} {ahead behind : List α}

/-- **Halving ends at the last element that is not behind the wanted place.** -/
theorem lastNotBehind_eq (hahead : ∀ x ∈ ahead, order x ≠ .gt)
    (hbehind : ∀ x ∈ behind, order x = .gt) {base size : Nat}
    (hbase : base = 0 ∨ base < ahead.length) (hsize : ahead.length ≤ base + size)
    (hlength : base + size ≤ (ahead ++ behind).length) :
    lastNotBehind order (ahead ++ behind) base size = ahead.length - 1 := by
  induction hn : size using Nat.strong_induction_on generalizing base size with
  | _ n ih =>
    subst hn
    rw [lastNotBehind]
    split
    · omega
    · rename_i hlarge
      have hmiddle : base + size / 2 < (ahead ++ behind).length := by omega
      simp only [List.getElem?_eq_getElem hmiddle, Option.map_some, Option.some.injEq]
      -- the end of the first part is in the half that is kept
      by_cases hin : base + size / 2 < ahead.length
      · rw [List.getElem_append_left hin, if_neg (hahead _ (List.getElem_mem hin))]
        exact ih (size - size / 2) (by omega) (.inr hin) (by omega) (by omega) rfl
      · rw [List.getElem_append_right (by omega), if_pos (hbehind _ (List.getElem_mem _))]
        exact ih (size - size / 2) (by omega) hbase (by omega) (by omega) rfl

/-- Whether a list is sorted for a search: what is behind the wanted place stays behind it,
and nothing before it follows what is at it. -/
def SortedFor (order : α → Ordering) (xs : List α) : Prop :=
  xs.Pairwise fun a b => (order a = .gt → order b = .gt) ∧ (order a = .eq → order b ≠ .lt)

/-- A list that is sorted for a search is cut where the elements behind the wanted place
begin. -/
theorem SortedFor.exists_cut {xs : List α} (h : SortedFor order xs) :
    ∃ ahead behind, xs = ahead ++ behind ∧ (∀ x ∈ ahead, order x ≠ .gt) ∧
      ∀ x ∈ behind, order x = .gt := by
  obtain ⟨ahead, behind, rfl, hahead, hhead⟩ := Text.exists_run (fun x => order x != .gt) xs
  refine ⟨ahead, behind, rfl, fun x hx => by simpa using hahead x hx, ?_⟩
  rcases behind with _ | ⟨first, rest⟩
  · simp
  · have hfirst : order first = .gt := by simpa using hhead first rfl
    have hrest := List.pairwise_cons.mp (List.pairwise_append.mp h).2.1
    intro x hx
    rcases List.mem_cons.mp hx with rfl | hx
    · exact hfirst
    · exact (hrest.1 x hx).1 hfirst

/-- **Halving finds the last element at the wanted place.** -/
theorem binarySearch?_eq_find? {xs : List α} (h : SortedFor order xs) :
    binarySearch? order xs = xs.reverse.find? fun x => order x = .eq := by
  obtain ⟨ahead, behind, rfl, hahead, hbehind⟩ := h.exists_cut
  have hskip : behind.reverse.find? (fun x => decide (order x = .eq)) = none := by
    refine List.find?_eq_none.mpr fun x hx => ?_
    simp [hbehind x (List.mem_reverse.mp hx)]
  rw [binarySearch?, lastNotBehind_eq hahead hbehind (.inl rfl) (by simp) (by simp),
    List.reverse_append, List.find?_append, hskip, Option.none_or]
  rcases ahead.eq_nil_or_concat with rfl | ⟨front, last, rfl⟩
  · -- all elements are behind the wanted place
    cases behind with
    | nil => rfl
    | cons first rest => simp [hbehind first (by simp)]
  · have hlast : (front ++ [last] ++ behind)[(front ++ [last]).length - 1]? = some last := by
      simp
    rw [List.concat_eq_append, hlast, List.reverse_append, List.reverse_singleton,
      List.singleton_append, List.find?_cons]
    cases horder : order last with
    | eq => simp [horder]
    | gt => exact absurd horder (hahead last (by simp))
    | lt =>
      -- what stands at the wanted place would stand behind the last element before it
      have hnone : front.reverse.find? (fun x => decide (order x = .eq)) = none := by
        refine List.find?_eq_none.mpr fun x hx => ?_
        rw [List.concat_eq_append] at h
        have hpair := (List.pairwise_append.mp (List.pairwise_append.mp h).1).2.2 x
          (List.mem_reverse.mp hx) last (by simp)
        intro heq
        exact hpair.2 (of_decide_eq_true heq) horder
      simp [horder, hnone]

end Halving

/-! ### Keys -/

namespace GroupKey

/-- The names of the parameters of a key ascend. -/
theorem key_le_key (key : GroupKey) :
    key.parameters.Pairwise fun a b => a.key ≤ b.key := by
  refine key.sorted.imp fun {a b} hle => ?_
  rw [← compare_le_iff_le]
  intro hgt
  have hle' : ((compare a.key b.key).then (compare a.value b.value)).isLE := hle
  rw [hgt] at hle'
  cases hle'

/-- The parameters of a key are sorted for the search of any name. -/
theorem sortedFor_parameters (key : GroupKey) (parameter : String) :
    SortedFor (fun p : Parameter => compare p.key parameter) key.parameters := by
  refine key.key_le_key.imp fun {a b} hle => ⟨fun hgt => ?_, fun heq hlt => ?_⟩
  · rw [compare_gt_iff_gt] at hgt ⊢
    exact lt_of_lt_of_le hgt hle
  · rw [compare_lt_iff_lt] at hlt
    exact absurd (hle.trans_lt hlt) (by simp [compare_eq_iff_eq.mp heq])

/-- **The parameters of a key are found by halving.** -/
theorem search?_eq_parameter? (key : GroupKey) (parameter : String) :
    key.search? parameter = key.parameter? parameter := by
  rw [search?, binarySearch?_eq_find? (key.sortedFor_parameters parameter), parameter?,
    Parameter.lookup?]
  simp only [compare_eq_iff_eq]

end GroupKey

end BenchReport
