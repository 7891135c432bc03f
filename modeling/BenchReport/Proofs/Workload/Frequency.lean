import Mathlib
import BenchReport.Workload.Frequency

/-!
# Every item is counted once

A frequency table is made from the runs of a sorted stream. Runs are nothing but the stream
written shorter: each item as often as its run is long, they are the stream again
(`BenchReport.FrequencyTable.flatMap_runs`). In a *sorted* stream equal items stand together, so
no item has two runs (`BenchReport.FrequencyTable.pairwise_runs`), and the length of a run is how
often the item occurs. The order of the table then only moves its entries
(`BenchReport.FrequencyTable.perm_counts`).
-/

namespace BenchReport.FrequencyTable

/-! ### Runs -/

theorem mem_keys_extendRuns {item v : UInt64} {entries : List (UInt64 × Nat)} :
    v ∈ (extendRuns item entries).map Prod.fst ↔ v = item ∨ v ∈ entries.map Prod.fst := by
  cases entries with
  | nil => simp [extendRuns]
  | cons entry entries =>
    obtain ⟨first, n⟩ := entry
    rw [extendRuns]
    split
    · rename_i h
      simp [h]
    · simp

/-- The items of the runs are those of the list. -/
theorem mem_keys_runs {items : List UInt64} {v : UInt64} :
    v ∈ (runs items).map Prod.fst ↔ v ∈ items := by
  induction items with
  | nil => simp [runs]
  | cons item items ih =>
    rw [runs, List.foldr_cons, ← runs, mem_keys_extendRuns, ih, List.mem_cons]

/-- **The runs of a list are the list**, written shorter. -/
theorem flatMap_runs (items : List UInt64) :
    (runs items).flatMap (fun entry => List.replicate entry.2 entry.1) = items := by
  induction items with
  | nil => rfl
  | cons item items ih =>
    rw [runs, List.foldr_cons, ← runs]
    conv_rhs => rw [← ih]
    cases runs items with
    | nil => rfl
    | cons entry entries =>
      obtain ⟨first, n⟩ := entry
      rw [extendRuns]
      split
      · rename_i h
        rw [h, List.flatMap_cons, List.flatMap_cons, List.replicate_succ, List.cons_append]
      · rw [List.flatMap_cons]
        rfl

/-- **The items of the runs ascend** in a list that does, so none has two runs. -/
theorem pairwise_runs {items : List UInt64} (h : items.Pairwise (· ≤ ·)) :
    ((runs items).map Prod.fst).Pairwise (· < ·) := by
  induction items with
  | nil => exact List.Pairwise.nil
  | cons item items ih =>
    obtain ⟨hle, hrest⟩ := List.pairwise_cons.mp h
    have hkeys : ∀ v ∈ (runs items).map Prod.fst, item ≤ v :=
      fun v hv => hle v (mem_keys_runs.mp hv)
    have hrest := ih hrest
    rw [runs, List.foldr_cons, ← runs]
    cases hruns : runs items with
    | nil => exact List.pairwise_singleton _ _
    | cons entry entries =>
      obtain ⟨first, n⟩ := entry
      rw [hruns, List.map_cons] at hkeys hrest
      rw [extendRuns]
      split
      · exact hrest
      · rename_i hne
        have hlt : item < first := UInt64.lt_of_le_of_ne (hkeys first List.mem_cons_self) hne
        refine List.pairwise_cons.mpr ⟨fun v hv => ?_, hrest⟩
        rcases List.mem_cons.mp hv with rfl | hv
        · exact hlt
        · exact UInt64.lt_trans hlt ((List.pairwise_cons.mp hrest).1 v hv)

/-! ### Entries -/

/-- **An entry says how often its item occurs** among entries that have an item each. -/
theorem count_flatMap_replicate {entries : List (UInt64 × Nat)}
    (h : (entries.map Prod.fst).Nodup) {entry : UInt64 × Nat} (hentry : entry ∈ entries) :
    (entries.flatMap fun e => List.replicate e.2 e.1).count entry.1 = entry.2 := by
  induction entries with
  | nil => cases hentry
  | cons first entries ih =>
    obtain ⟨hnew, hrest⟩ := List.nodup_cons.mp h
    rw [List.flatMap_cons, List.count_append]
    rcases List.mem_cons.mp hentry with rfl | hentry
    · have hnone : (entries.flatMap fun e => List.replicate e.2 e.1).count entry.1 = 0 := by
        refine List.count_eq_zero.mpr fun hmem => hnew ?_
        obtain ⟨e, he, hrep⟩ := List.mem_flatMap.mp hmem
        exact (List.eq_of_mem_replicate hrep) ▸ List.mem_map_of_mem he
      rw [List.count_replicate_self, hnone]
      rfl
    · have hne : first.1 ≠ entry.1 := fun heq => hnew (heq ▸ List.mem_map_of_mem hentry)
      rw [List.count_replicate, if_neg (by simpa using hne), ih hrest hentry, Nat.zero_add]

/-- The stream in ascending order, from whose runs a table is made. -/
def ascending (items : List UInt64) : List UInt64 := items.mergeSort fun a b => a ≤ b

theorem pairwise_ascending (items : List UInt64) : (ascending items).Pairwise (· ≤ ·) := by
  have htrans : ∀ a b c : UInt64, decide (a ≤ b) = true → decide (b ≤ c) = true →
      decide (a ≤ c) = true := by
    intro a b c hab hbc
    simp only [decide_eq_true_eq] at hab hbc ⊢
    exact UInt64.le_trans hab hbc
  have htotal : ∀ a b : UInt64, (decide (a ≤ b) || decide (b ≤ a)) = true := by
    intro a b
    simpa using UInt64.le_total a b
  exact (List.pairwise_mergeSort htrans htotal items).imp of_decide_eq_true

/-- A table holds the runs of the ascending stream, in an order of its own. -/
theorem perm_counts (items : List UInt64) :
    (ofItems items).counts.Perm (runs (ascending items)) := List.mergeSort_perm _ _

/-- **No item has two entries.** -/
theorem nodup_counts (items : List UInt64) : ((ofItems items).counts.map Prod.fst).Nodup :=
  ((perm_counts items).map _).nodup_iff.mpr
    ((pairwise_runs (pairwise_ascending items)).imp UInt64.ne_of_lt)

theorem mem_keys_counts {items : List UInt64} {v : UInt64} :
    v ∈ (ofItems items).counts.map Prod.fst ↔ v ∈ items := by
  rw [((perm_counts items).map _).mem_iff, mem_keys_runs]
  exact List.mem_mergeSort

/-- **An entry says how often its item occurs in the stream.** -/
theorem count_of_mem_counts {items : List UInt64} {entry : UInt64 × Nat}
    (h : entry ∈ (ofItems items).counts) : items.count entry.1 = entry.2 := by
  have hperm := perm_counts items
  have hnodup := (hperm.map Prod.fst).nodup_iff.mp (nodup_counts items)
  calc items.count entry.1 = (ascending items).count entry.1 :=
        ((List.mergeSort_perm items _).count_eq entry.1).symm
    _ = ((runs (ascending items)).flatMap fun e => List.replicate e.2 e.1).count entry.1 := by
        rw [flatMap_runs]
    _ = entry.2 := count_flatMap_replicate hnodup (hperm.mem_iff.mp h)

/-- **What a table has for an item is how often it occurs**; an item without an entry does not. -/
theorem getD_lookup_counts (items : List UInt64) (v : UInt64) :
    ((ofItems items).counts.lookup v).getD 0 = items.count v := by
  cases hlookup : (ofItems items).counts.lookup v with
  | none =>
    have hnone : v ∉ (ofItems items).counts.map Prod.fst := by
      intro hmem
      obtain ⟨entry, hentry, rfl⟩ := List.mem_map.mp hmem
      simpa using List.lookup_eq_none_iff.mp hlookup entry hentry
    exact (List.count_eq_zero.mpr fun hmem => hnone (mem_keys_counts.mpr hmem)).symm
  | some n =>
    obtain ⟨before, after, hcounts, -⟩ := List.lookup_eq_some_iff.mp hlookup
    have hmem : (v, n) ∈ (ofItems items).counts := by simp [hcounts]
    exact (count_of_mem_counts hmem).symm

end BenchReport.FrequencyTable
