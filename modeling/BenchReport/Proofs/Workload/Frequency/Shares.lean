import Mathlib
import BenchReport.Proofs.Workload.Frequency.Canonical

/-!
# Shares of a stream

The share of the most frequent items is computed in two ways: for one number of items, by adding
up what they have, and for each number of items at once, with a total that runs along. The two
divide the same whole number by the same whole number
(`BenchReport.FrequencyTable.runningTotals_eq`), so they agree in every bit, and nothing has to
be known about doubles.

A running total grows with each item, because an item has an entry only if it occurs, and what it
comes to is the length of the stream (`BenchReport.FrequencyTable.sum_counts`).
-/

namespace BenchReport.FrequencyTable

/-! ### Running totals -/

section Totals

variable {counts : List ℕ} {k : ℕ}

/-- What is added to next is the sum so far. -/
theorem head?_foldl_totals (counts : List ℕ) :
    (counts.foldl (fun acc n => (acc.head?.getD 0 + n) :: acc) []).head?.getD 0 = counts.sum := by
  induction counts using List.reverseRecOn with
  | nil => rfl
  | append_singleton counts n ih =>
    rw [List.foldl_concat, List.head?_cons, Option.getD_some, ih, List.sum_append,
      List.sum_singleton]

theorem runningTotals_concat (counts : List ℕ) (n : ℕ) :
    runningTotals (counts ++ [n]) = runningTotals counts ++ [counts.sum + n] := by
  rw [runningTotals, List.foldl_concat, List.reverse_cons, head?_foldl_totals, ← runningTotals]

/-- **A running total is the sum of the numbers up to its own.** -/
theorem runningTotals_eq (counts : List ℕ) :
    runningTotals counts =
      (List.range counts.length).map fun k => (counts.take (k + 1)).sum := by
  induction counts using List.reverseRecOn with
  | nil => rfl
  | append_singleton counts n ih =>
    rw [runningTotals_concat, ih, List.length_append, List.length_singleton, List.range_succ,
      List.map_append, List.map_singleton, List.take_of_length_le (by simp), List.sum_append,
      List.sum_singleton]
    refine congrArg (· ++ _) (List.map_congr_left fun k hk => ?_)
    rw [List.take_append_of_le_length (List.mem_range.mp hk)]

theorem length_runningTotals (counts : List ℕ) :
    (runningTotals counts).length = counts.length := by
  rw [runningTotals_eq, List.length_map, List.length_range]

theorem getElem?_runningTotals (h : k < counts.length) :
    (runningTotals counts)[k]? = some (counts.take (k + 1)).sum := by
  rw [runningTotals_eq, List.getElem?_map, List.getElem?_range h, Option.map_some]

/-- The last of the running totals is the sum of all numbers. -/
theorem getLast?_runningTotals (h : counts ≠ []) :
    (runningTotals counts).getLast? = some counts.sum := by
  obtain rfl | ⟨first, n, rfl⟩ := List.eq_nil_or_concat counts
  · exact absurd rfl h
  · rw [List.concat_eq_append, runningTotals_concat, List.getLast?_concat, List.sum_append,
      List.sum_singleton]

/-- **Running totals of positive numbers ascend.** -/
theorem pairwise_runningTotals (h : ∀ n ∈ counts, 0 < n) :
    (runningTotals counts).Pairwise (· < ·) := by
  induction counts using List.reverseRecOn with
  | nil => exact List.Pairwise.nil
  | append_singleton counts n ih =>
    rw [runningTotals_concat]
    refine List.pairwise_append.mpr ⟨ih fun n hn => h n (List.mem_append_left _ hn),
      List.pairwise_singleton _ _, ?_⟩
    intro total htotal last hlast
    rw [List.mem_singleton.mp hlast]
    rw [runningTotals_eq] at htotal
    obtain ⟨k, -, rfl⟩ := List.mem_map.mp htotal
    have hle : (counts.take (k + 1)).sum ≤ counts.sum := (List.take_sublist _ _).sum_le_sum
      fun _ _ => Nat.zero_le _
    have hpos := h n (List.mem_append_right _ (List.mem_singleton_self n))
    omega

end Totals

/-! ### Shares -/

section Shares

variable {items : List UInt64} {k : ℕ}

/-- The share of the most frequent items, as a sum of their numbers. -/
theorem shareOfTop_eq {t : FrequencyTable} (h : t.total ≠ 0) (k : ℕ) :
    t.shareOfTop k = percentage ((t.counts.map Prod.snd).take k).sum t.total := by
  rw [shareOfTop, if_neg h, top, List.sum_eq_foldl, ← List.map_take, List.foldl_map]

theorem total_ne_zero (h : items ≠ []) : (ofItems items).total ≠ 0 :=
  fun hzero => h (List.length_eq_zero_iff.mp hzero)

theorem counts_ne_nil (h : items ≠ []) : (ofItems items).counts.map Prod.snd ≠ [] := by
  intro hnil
  have hsum := sum_counts items
  rw [hnil] at hsum
  exact h (List.length_eq_zero_iff.mp hsum.symm)

/-- What has an entry occurs. -/
theorem pos_of_mem_counts {n : ℕ} (h : n ∈ (ofItems items).counts.map Prod.snd) : 0 < n := by
  obtain ⟨⟨v, n⟩, hentry, rfl⟩ := List.mem_map.mp h
  obtain ⟨hmem, rfl⟩ := mem_counts_iff.mp hentry
  exact List.count_pos_iff.mpr hmem

/-- **The two computations of a share agree**, number of items by number of items. -/
theorem getElem?_cumulativePercentages (h : k < (ofItems items).distinct) :
    (ofItems items).cumulativePercentages[k]? = some ((ofItems items).shareOfTop (k + 1)) := by
  have hlt : k < ((ofItems items).counts.map Prod.snd).length := by rwa [List.length_map]
  have hne : items ≠ [] := by
    rintro rfl
    rw [distinct_eq] at h
    exact absurd h k.not_lt_zero
  rw [cumulativePercentages, List.getElem?_map, getElem?_runningTotals hlt, Option.map_some,
    shareOfTop_eq (total_ne_zero hne)]

/-- More items than there are have the share of all. -/
theorem getLast?_cumulativePercentages (hne : items ≠ []) (h : (ofItems items).distinct ≤ k) :
    (ofItems items).cumulativePercentages.getLast? = some ((ofItems items).shareOfTop k) := by
  have hall : ((ofItems items).counts.map Prod.snd).take k =
      (ofItems items).counts.map Prod.snd := List.take_of_length_le (by rwa [List.length_map])
  rw [cumulativePercentages, List.getLast?_map, getLast?_runningTotals (counts_ne_nil hne),
    Option.map_some, shareOfTop_eq (total_ne_zero hne), hall]

/-- **The two computations of shares agree**, bit for bit. The cumulative percentages are as many
as the different items, and each is the share of as many of the most frequent items; the last is
the share of any greater number of them, too. The whole numbers behind the percentages grow with
each item and end at the length of the stream. -/
theorem shares_of_two_ways_agree (items : List UInt64) :
    let t := ofItems items
    let totals := runningTotals (t.counts.map Prod.snd)
    (∀ k, 1 ≤ k → k ≤ t.distinct → t.cumulativePercentages[k - 1]? = some (t.shareOfTop k)) ∧
      (items ≠ [] → ∀ k, t.distinct < k →
        t.cumulativePercentages.getLast? = some (t.shareOfTop k)) ∧
      t.cumulativePercentages.length = t.distinct ∧
      t.cumulativePercentages = totals.map (percentage · t.total) ∧
      totals.Pairwise (· < ·) ∧ (items ≠ [] → totals.getLast? = some t.total) := by
  intro t totals
  refine ⟨fun k hpos hle => ?_, fun hne k hlt => getLast?_cumulativePercentages hne hlt.le, ?_, rfl,
    pairwise_runningTotals fun n => pos_of_mem_counts, fun hne => ?_⟩
  · obtain ⟨k, rfl⟩ := Nat.exists_eq_succ_of_ne_zero (Nat.one_le_iff_ne_zero.mp hpos)
    exact getElem?_cumulativePercentages hle
  · rw [cumulativePercentages, List.length_map, length_runningTotals, List.length_map]
    rfl
  · rw [getLast?_runningTotals (counts_ne_nil hne), sum_counts]
    rfl

/-- Four items, one of which is half of the stream: the share of two of them and that of more than
there are. -/
theorem shares_of_four_items :
    let t := ofItems [0, 0, 0, 1, 2, 2, 0, 0, 1, 3]
    t.distinct = 4 ∧ t.cumulativePercentages[1]? = some (t.shareOfTop 2) ∧
      t.cumulativePercentages.getLast? = some (t.shareOfTop 32) := by
  intro t
  have hdistinct : t.distinct = 4 := by cbv
  obtain ⟨hshares, hlast, -⟩ := shares_of_two_ways_agree [0, 0, 0, 1, 2, 2, 0, 0, 1, 3]
  refine ⟨hdistinct, hshares 2 (by decide) ?_, hlast (by decide) 32 ?_⟩
  · rw [hdistinct]
    decide
  · rw [hdistinct]
    decide

end Shares

end BenchReport.FrequencyTable
