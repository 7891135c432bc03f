import Mathlib
import BenchReport.Proofs.Workload.Frequency

/-!
# A stream has one frequency table

A table may be made in many ways. One is to go through the stream and to raise, for each item,
the number that a hash map has for it (`BenchReport.FrequencyTable.tally`); what the map holds in
the end comes out in an order that means nothing, and a sort that need not be stable puts it right.
That none of this shows in the table takes two facts:

* the map holds what the table does, each item once with its number of occurrences
  (`BenchReport.FrequencyTable.perm_counts_of_perm_toList`);
* the order of entries is a *strict* one, so that no two entries could change places
  (`BenchReport.FrequencyTable.eq_counts_of_perm`).

The second is the load-bearing one: equally frequent items are told apart by themselves, and no
item has two entries. It makes a table a function of how often each item occurs, whatever
order the stream has (`BenchReport.FrequencyTable.table_is_canonical`).
-/

namespace BenchReport.FrequencyTable

/-! ### The order of entries -/

section Order

variable {a b c : UInt64 × ℕ}

/-- **Whether an entry precedes another**: it is more frequent, or as frequent and its item is
less. -/
def Precedes (a b : UInt64 × ℕ) : Prop := b.2 < a.2 ∨ a.2 = b.2 ∧ a.1 < b.1

instance (a b : UInt64 × ℕ) : Decidable (Precedes a b) := inferInstanceAs (Decidable (_ ∨ _))

theorem entryLe_iff : entryLe a b = true ↔ b.2 < a.2 ∨ a.2 = b.2 ∧ a.1.toNat ≤ b.1.toNat := by
  simp only [entryLe, Bool.or_eq_true, Bool.and_eq_true, decide_eq_true_eq, UInt64.le_iff_toNat_le]

theorem entryLe_trans (a b c : UInt64 × ℕ) (hab : entryLe a b = true) (hbc : entryLe b c = true) :
    entryLe a c = true := by
  rw [entryLe_iff] at *
  omega

theorem entryLe_total (a b : UInt64 × ℕ) : (entryLe a b || entryLe b a) = true := by
  rw [Bool.or_eq_true, entryLe_iff, entryLe_iff]
  omega

theorem entryLe_antisymm (hab : entryLe a b = true) (hba : entryLe b a = true) : a = b := by
  rw [entryLe_iff] at *
  exact Prod.ext (UInt64.toNat_inj.mp (by omega)) (by omega)

/-- Of two different items the one with the entry that may come first precedes the other. -/
theorem precedes_of_entryLe (h : entryLe a b = true) (hne : a.1 ≠ b.1) : Precedes a b := by
  rw [entryLe_iff] at h
  refine h.imp_right fun ⟨hcount, hle⟩ => ⟨hcount, ?_⟩
  exact UInt64.lt_of_le_of_ne (UInt64.le_iff_toNat_le.mpr hle) hne

end Order

/-! ### What a table holds -/

section Table

variable {items items' : List UInt64} {entries sorted : List (UInt64 × ℕ)}

/-- **The entries of a table** are the items that occur, each with how often it does. -/
theorem mem_counts_iff {v : UInt64} {n : ℕ} :
    (v, n) ∈ (ofItems items).counts ↔ v ∈ items ∧ items.count v = n := by
  constructor
  · intro h
    exact ⟨mem_keys_counts.mp (List.mem_map_of_mem h), count_of_mem_counts h⟩
  · rintro ⟨hmem, rfl⟩
    obtain ⟨entry, hentry, rfl⟩ := List.mem_map.mp (mem_keys_counts.mpr hmem)
    rw [count_of_mem_counts hentry]
    exact hentry

theorem pairwise_entryLe (items : List UInt64) :
    (ofItems items).counts.Pairwise fun a b => entryLe a b = true :=
  List.pairwise_mergeSort entryLe_trans entryLe_total _

/-- **The entries of a table are strictly sorted.** -/
theorem pairwise_precedes (items : List UInt64) : (ofItems items).counts.Pairwise Precedes := by
  refine (pairwise_entryLe items).imp₂ (fun a b hle hne => precedes_of_entryLe hle hne) ?_
  exact List.pairwise_map.mp (nodup_counts items)

/-- **Its entries can be sorted in one way only.** -/
theorem eq_counts_of_perm (hperm : sorted.Perm (ofItems items).counts)
    (hsorted : sorted.Pairwise fun a b => entryLe a b = true) : sorted = (ofItems items).counts :=
  hperm.eq_of_pairwise (fun _ _ _ _ hab hba => entryLe_antisymm hab hba) hsorted
    (pairwise_entryLe items)

/-- **A table depends on how often each item occurs**, and not on where. -/
theorem ofItems_eq_of_perm (h : items'.Perm items) : ofItems items' = ofItems items := by
  have hcounts : (ofItems items').counts.Perm (ofItems items).counts := by
    refine (List.perm_ext_iff_of_nodup (nodup_counts items').of_map
      (nodup_counts items).of_map).mpr ?_
    rintro ⟨v, n⟩
    rw [mem_counts_iff, mem_counts_iff, h.mem_iff, h.count_eq]
  have hsame := eq_counts_of_perm hcounts (pairwise_entryLe items')
  have htotal : (ofItems items').total = (ofItems items).total := h.length_eq
  exact congrArg₂ FrequencyTable.mk hsame htotal

/-- There are as many entries as different items. -/
theorem distinct_eq (items : List UInt64) : (ofItems items).distinct = items.toFinset.card := by
  have hkeys : ((ofItems items).counts.map Prod.fst).toFinset = items.toFinset := by
    ext v
    rw [List.mem_toFinset, List.mem_toFinset, mem_keys_counts]
  rw [← hkeys, List.toFinset_card_of_nodup (nodup_counts items), List.length_map, distinct]

/-- **The numbers of occurrences add up to the length of the stream.** -/
theorem sum_counts (items : List UInt64) :
    ((ofItems items).counts.map Prod.snd).sum = items.length := by
  calc ((ofItems items).counts.map Prod.snd).sum
      = ((runs (ascending items)).map Prod.snd).sum := ((perm_counts items).map _).sum_eq
    _ = ((runs (ascending items)).flatMap fun e => List.replicate e.2 e.1).length := by
        simp only [List.length_flatMap, List.length_replicate]
    _ = items.length := by rw [flatMap_runs, ascending, List.length_mergeSort]

/-- What stands on top precedes what does not. -/
theorem precedes_of_mem_top {k : ℕ} {a b : UInt64 × ℕ} (ha : a ∈ (ofItems items).top k)
    (hb : b ∈ (ofItems items).counts) (hout : b ∉ (ofItems items).top k) : Precedes a b := by
  have hsorted := pairwise_precedes items
  rw [← List.take_append_drop k (ofItems items).counts] at hsorted hb
  exact (List.pairwise_append.mp hsorted).2.2 a ha b ((List.mem_append.mp hb).resolve_left hout)

/-! ### Counting with a map -/

/-- **The numbers that a map has after a stream** if each item raises its own by one. -/
def tally (items : List UInt64) : Std.HashMap UInt64 ℕ :=
  items.foldl (fun map item => map.insert item (map.getD item 0 + 1)) ∅

/-- What a map has for an item after a stream, whatever it had before. -/
theorem getElem?_foldl_insert (items : List UInt64) (map : Std.HashMap UInt64 ℕ) (v : UInt64) :
    (items.foldl (fun map item => map.insert item (map.getD item 0 + 1)) map)[v]? =
      if v ∈ items then some (map.getD v 0 + items.count v) else map[v]? := by
  induction items generalizing map with
  | nil => rfl
  | cons item items ih =>
    rw [List.foldl_cons, ih]
    rcases eq_or_ne item v with rfl | hne
    · rw [Std.HashMap.getD_insert_self, Std.HashMap.getElem?_insert_self,
        if_pos List.mem_cons_self, List.count_cons_self]
      split
      · rw [Nat.add_assoc, Nat.add_comm 1]
      · rename_i hmem
        rw [List.count_eq_zero.mpr hmem]
    · have hbeq : (item == v) = false := beq_eq_false_iff_ne.mpr hne
      rw [Std.HashMap.getD_insert, Std.HashMap.getElem?_insert, hbeq,
        List.count_cons_of_ne hne]
      simp [hne.symm]

/-- **A map holds what the table does**, in whatever order its entries come out. -/
theorem perm_counts_of_perm_toList (h : entries.Perm (tally items).toList) :
    entries.Perm (ofItems items).counts := by
  have hkeys : ((tally items).toList.map Prod.fst).Nodup := by
    rw [Std.HashMap.map_fst_toList_eq_keys]
    exact Std.HashMap.nodup_keys
  refine h.trans ((List.perm_ext_iff_of_nodup hkeys.of_map (nodup_counts items).of_map).mpr ?_)
  rintro ⟨v, n⟩
  rw [Std.HashMap.mem_toList_iff_getElem?_eq_some, tally, getElem?_foldl_insert, mem_counts_iff]
  simp

end Table

/-- **A frequency table is canonical.** It has one entry for each item that occurs, with its number
of occurrences, in a strict order, and the numbers add up to the length of the stream. So there is
one table of all streams with the same items, and one only that a map of the numbers is sorted to,
in whatever order its entries come out. On top of it stand the entries that precede all others. -/
theorem table_is_canonical (items : List UInt64) :
    let t := ofItems items
    (t.counts.map Prod.fst).Nodup ∧
      (∀ v n, (v, n) ∈ t.counts ↔ v ∈ items ∧ items.count v = n) ∧
      t.distinct = items.toFinset.card ∧
      t.counts.Pairwise Precedes ∧
      (t.counts.map Prod.snd).sum = t.total ∧ t.total = items.length ∧
      (∀ items' : List UInt64, items'.Perm items → ofItems items' = t) ∧
      (∀ entries sorted : List (UInt64 × ℕ), entries.Perm (tally items).toList →
        sorted.Perm entries → (sorted.Pairwise fun a b => entryLe a b = true) →
        sorted = t.counts) ∧
      ∀ k, t.top k <+: t.counts ∧ (t.top k).length = min k t.distinct ∧
        ∀ a ∈ t.top k, ∀ b ∈ t.counts, b ∉ t.top k → Precedes a b := by
  intro t
  refine ⟨nodup_counts items, fun v n => mem_counts_iff, distinct_eq items,
    pairwise_precedes items, sum_counts items, rfl, fun items' h => ofItems_eq_of_perm h,
    fun entries sorted hentries hperm hsorted => ?_, fun k => ⟨List.take_prefix .., ?_, ?_⟩⟩
  · exact eq_counts_of_perm (hperm.trans (perm_counts_of_perm_toList hentries)) hsorted
  · exact List.length_take
  · exact fun a ha b hb hout => precedes_of_mem_top ha hb hout

/-- Three items that occur twice each: they stand in ascending order, whatever order they occur in
and whatever order a map has them in. -/
theorem table_of_ties :
    let t := ofItems [9, 3, 7, 3, 9, 7]
    t.counts = [(3, 2), (7, 2), (9, 2)] ∧ ofItems [7, 7, 3, 3, 9, 9] = t ∧
      (tally [9, 3, 7, 3, 9, 7]).toList.reverse.mergeSort entryLe = t.counts ∧
      Precedes (7, 2) (9, 2) := by
  intro t
  have hcounts : t.counts = [(3, 2), (7, 2), (9, 2)] := by cbv
  obtain ⟨-, -, -, -, -, -, hperm, hmap, htop⟩ := table_is_canonical [9, 3, 7, 3, 9, 7]
  refine ⟨hcounts, hperm _ (by decide), ?_, ?_⟩
  · exact hmap _ _ (List.reverse_perm _) (List.mergeSort_perm _ _)
      (List.pairwise_mergeSort entryLe_trans entryLe_total _)
  · refine (htop 2).2.2 (7, 2) ?_ (9, 2) ?_ ?_
    · rw [top, hcounts]
      decide
    · rw [hcounts]
      decide
    · rw [top, hcounts]
      decide

end BenchReport.FrequencyTable
