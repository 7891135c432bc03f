import Mathlib
import BenchReport.Proofs.Csv.RoundTrip
import BenchReport.Proofs.Text.Integer
import BenchReport.Proofs.Text.Words
import BenchReport.Proofs.Workload.Frequency
import BenchReport.Workload.Dataset

/-!
# A stream comes back from its data set

A data set says each item twice, once by where it stands and once by its number, and both are
decimal texts. Such a text has nothing that a reader of CSV would take for something else, no
blanks to be trimmed off and no quotes, so it passes all layers unchanged: as a cell it is read
as its number if 64 bits hold it (`BenchReport.Dataset.readItems_eq_ok_iff`), and it is the text
of no other number, so that cells can be counted by their text
(`BenchReport.Dataset.countFrom_eq`).

Items are words of 64 bits, and all of them come back. The time stamps are counted and not given:
they come back as far as 64 bits count, which is further than any stream in a memory goes. How
often an item occurs is said by the data set and by the frequency table alike
(`BenchReport.Dataset.stream_is_read_back`).
-/

namespace BenchReport.Dataset

/-! ### Decimal texts as cells -/

/-- The characters of a decimal text. -/
def decimal (n : Nat) : List Char := (Nat.repr n).toList

theorem isDigits_decimal (n : Nat) : Text.IsDigits (decimal n) := by
  rw [decimal, Nat.toList_repr]
  exact Text.isDigits_toDigits n

theorem decimal_injective : Function.Injective decimal := by
  intro a b h
  rw [decimal, decimal, Nat.toList_repr, Nat.toList_repr] at h
  rw [← Text.spelled_toDigits a, h, Text.spelled_toDigits]

theorem trim_decimal (n : Nat) : Text.trim (decimal n) = decimal n :=
  Text.trim_eq_self (Text.isTrimmed_of_forall fun c hc =>
    Text.isBlank_of_isDigit ((isDigits_decimal n).2 c hc))

theorem trimQuotes_decimal (n : Nat) : trimQuotes (decimal n) = decimal n := by
  have hquote : ∀ c ∈ decimal n, ¬decide (c = '"') = true := by
    intro c hc heq
    obtain rfl := of_decide_eq_true heq
    exact absurd ((isDigits_decimal n).2 _ hc) (by decide)
  have hfront : (decimal n).dropWhile (· = '"') = decimal n :=
    List.dropWhile_eq_self_iff.mpr fun hpos => hquote _ (List.getElem_mem hpos)
  have hback : (decimal n).reverse.dropWhile (· = '"') = (decimal n).reverse :=
    List.dropWhile_eq_self_iff.mpr fun hpos =>
      hquote _ (List.mem_reverse.mp (List.getElem_mem hpos))
  rw [trimQuotes, hfront, hback, List.reverse_reverse]

/-- **A decimal text is read as its number** if a word has it. -/
theorem readUnsigned_decimal_eq_ok_iff {n : Nat} {item : UInt64} :
    Text.readUnsigned (decimal n) = .ok item ↔ item.toNat = n := by
  rw [Text.readUnsigned_eq_ok_iff]
  constructor
  · rintro ⟨digits, hdigits, heq | heq, hitem⟩
    · rw [hitem, ← heq, decimal, Nat.toList_repr, Text.spelled_toDigits]
    · exact absurd rfl (heq ▸ isDigits_decimal n : Text.IsDigits ('+' :: digits)).head_ne.2
  · rintro rfl
    refine ⟨_, isDigits_decimal _, .inl rfl, ?_⟩
    rw [decimal, Nat.toList_repr, Text.spelled_toDigits]

/-! ### Rows -/

/-- **A column of decimal texts is read as its numbers** if words have them all. -/
theorem readItems_eq_ok_iff {index row : Nat} {items found : List UInt64} {numbers : List Nat}
    {rows : List (List (List Char))} (h : rows.map (cell index) = numbers.map decimal) :
    readItems index row items (rows.map .record) = .ok found ↔
      ∃ read, read.map UInt64.toNat = numbers ∧ found = items.reverse ++ read := by
  induction rows generalizing row items numbers with
  | nil =>
    obtain rfl : numbers = [] := List.map_eq_nil_iff.mp h.symm
    simp [readItems, eq_comm]
  | cons fields rows ih =>
    obtain ⟨n, numbers, rfl, hcell, hrows⟩ := List.map_eq_cons_iff.mp h.symm
    rw [List.map_cons, readItems, ← hcell]
    cases hread : Text.readUnsigned (decimal n) with
    | ok item =>
      have hitem := readUnsigned_decimal_eq_ok_iff.mp hread
      simp only
      rw [ih hrows.symm, List.reverse_cons]
      constructor
      · rintro ⟨read, rfl, rfl⟩
        exact ⟨item :: read, by rw [List.map_cons, hitem], by simp⟩
      · rintro ⟨read, hnumbers, rfl⟩
        obtain ⟨first, read, rfl, hfirst, hread⟩ := List.map_eq_cons_iff.mp hnumbers
        obtain rfl := UInt64.toNat_inj.mp (hitem.trans hfirst.symm)
        exact ⟨read, hread, by simp⟩
    | error fault =>
      refine iff_of_false (by simp) ?_
      rintro ⟨read, hnumbers, -⟩
      obtain ⟨first, read, rfl, hfirst, -⟩ := List.map_eq_cons_iff.mp hnumbers
      -- A number that a word has is read, so there is nothing to refuse.
      have hok := readUnsigned_decimal_eq_ok_iff.mpr hfirst
      rw [hread] at hok
      cases hok

theorem countFrom_eq (index : Nat) (value : String) (count : Nat) (rows : List (List (List Char))) :
    countFrom index value count (rows.map .record) =
      .ok (count + (rows.map (cell index)).countP fun c => trimQuotes c = value.toList) := by
  induction rows generalizing count with
  | nil => rfl
  | cons fields rows ih =>
    rw [List.map_cons, countFrom, ih, List.map_cons, List.countP_cons]
    by_cases h : trimQuotes (cell index fields) = value.toList
    · simp [h, Nat.add_assoc, Nat.add_comm 1]
    · simp [h]

/-- The rows of a data set. -/
def rows (items : List UInt64) : List (List (List Char)) :=
  items.zipIdx.map fun entry => [decimal entry.2, decimal entry.1.toNat]

theorem cells_rows_zero (items : List UInt64) :
    (rows items).map (cell 0) = (List.range items.length).map decimal := by
  have hcell : ∀ entry : UInt64 × Nat,
      cell 0 [decimal entry.2, decimal entry.1.toNat] = decimal entry.2 :=
    fun entry => trim_decimal _
  rw [rows, List.map_map, List.range_eq_range', ← List.zipIdx_map_snd, List.map_map]
  exact List.map_congr_left fun entry _ => hcell entry

theorem cells_rows_one (items : List UInt64) :
    (rows items).map (cell 1) = (items.map UInt64.toNat).map decimal := by
  have hcell : ∀ entry : UInt64 × Nat,
      cell 1 [decimal entry.2, decimal entry.1.toNat] = decimal entry.1.toNat :=
    fun entry => trim_decimal _
  conv_rhs => rw [← List.zipIdx_map_fst 0 items]
  rw [rows, List.map_map, List.map_map, List.map_map]
  exact List.map_congr_left fun entry _ => hcell entry

/-! ### Data sets -/

/-- The records of a data set are its header and its rows. -/
theorem entries_render (items : List UInt64) :
    Csv.entries (.ofBytes (Text.encode (render items))) =
      .record [timestampColumn.toList, itemColumn.toList] :: (rows items).map .record := by
  have hne : ∀ fields ∈ records items, fields ≠ [] := by
    intro fields hfields
    rcases List.mem_cons.mp hfields with rfl | hfields
    · exact List.cons_ne_nil _ _
    · obtain ⟨entry, -, rfl⟩ := List.mem_map.mp hfields
      exact List.cons_ne_nil _ _
  -- The first character is one of the header, so it is no mark of the byte order.
  have hmark : ∀ x ∈ (Csv.text .necessary ',' (records items)).head?, x.toNat ≠ 0xfeff := by
    have hhead : (Csv.text .necessary ',' (records items)).head? = some 't' := rfl
    rw [hhead]
    rintro x ⟨⟩
    decide
  rw [render, Csv.entries_text hne (fun fields _ field _ => Csv.isGuarded_necessary ',' field)
    hmark]
  rfl

/-- The columns of a data set are found by their headers. -/
theorem columnIndex_render (items : List UInt64) :
    columnIndex timestampColumn (Csv.entries (.ofBytes (Text.encode (render items)))) =
        .ok (0, (rows items).map .record) ∧
      columnIndex itemColumn (Csv.entries (.ofBytes (Text.encode (render items)))) =
        .ok (1, (rows items).map .record) := by
  rw [entries_render]
  exact ⟨rfl, rfl⟩

/-- The places in a stream are words as far as words count. -/
theorem exists_words_range_iff (n : Nat) :
    (∃ read : List UInt64, read.map UInt64.toNat = List.range n ∧
        (List.range n).map UInt64.ofNat = read) ↔ n ≤ UInt64.size := by
  constructor
  · rintro ⟨read, hread, -⟩
    by_contra hlt
    obtain ⟨item, -, hitem⟩ : ∃ item ∈ read, item.toNat = UInt64.size :=
      List.mem_map.mp (hread ▸ List.mem_range.mpr (by omega))
    exact absurd item.toNat_lt_size (by omega)
  · intro hle
    refine ⟨_, ?_, rfl⟩
    rw [List.map_map, List.map_congr_left, List.map_id]
    exact fun k hk => UInt64.toNat_ofNat_of_lt' ((List.mem_range.mp hk).trans_le hle)

/-- **A stream comes back from its data set**: its items under their header, and under the other
the numbers from zero on, for every stream whose places are words. Each item is counted as often
as it occurs, which is what the frequency table says. -/
theorem stream_is_read_back (items : List UInt64) :
    let stream := Text.Stream.ofBytes (Text.encode (render items))
    readColumn itemColumn stream = .ok items ∧
      (readColumn timestampColumn stream = .ok ((List.range items.length).map UInt64.ofNat) ↔
        items.length ≤ UInt64.size) ∧
      ∀ v : UInt64,
        countMatching itemColumn (Text.showUnsigned v) stream = .ok (items.count v) ∧
        ((FrequencyTable.ofItems items).counts.lookup v).getD 0 = items.count v := by
  intro stream
  obtain ⟨htimestamp, hitem⟩ := columnIndex_render items
  refine ⟨?_, ?_, fun v => ⟨?_, ?_⟩⟩
  · rw [readColumn, hitem]
    exact (readItems_eq_ok_iff (cells_rows_one items)).mpr ⟨items, rfl, rfl⟩
  · rw [readColumn, htimestamp, ← exists_words_range_iff]
    exact readItems_eq_ok_iff (cells_rows_zero items)
  · rw [countMatching, hitem]
    simp only
    rw [countFrom_eq, cells_rows_one, Nat.zero_add, List.map_map, List.countP_map,
      List.count_eq_countP]
    congr 1
    refine List.countP_congr fun item _ => ?_
    have hsame : trimQuotes (decimal item.toNat) = (Text.showUnsigned v).toList ↔ item = v := by
      rw [trimQuotes_decimal, Text.showUnsigned, ← decimal, decimal_injective.eq_iff,
        UInt64.toNat_inj]
    simpa using hsame
  · exact FrequencyTable.getD_lookup_counts items v

end BenchReport.Dataset
