import Mathlib
import BenchReport.Command.Reports
import BenchReport.Proofs.BoxPlot
import BenchReport.Proofs.Text.ByteOrder

/-!
# The rows of a long table

The rows of a table are its entries in a **stable sort** (`BenchReport.LongTable.IsStableSort`):
sorted by the bytes of the benchmark and then by the stream rate, in one direction or the other,
where entries that agree in both stay in the order in which they came. There is one such sort and
no more (`BenchReport.LongTable.IsStableSort.unique`): two of them begin with entries that tie,
and of the entries that tie with these both have the same one first.

The order in which the groups came can be seen in a table only where it is kept, that is among
ties. What ties has the same benchmark and the same stream rate, and a label is made from these
alone, so a label does not see it at all (`BenchReport.LongTable.places_eq_of_perm`). A row shows
the processing rate too, and so two tables of the same groups can differ if two of them tie, and
not otherwise (`BenchReport.LongTable.render_is_of_stable_sort`).

The text around the rows is fixed, and so is what a row shows of its entry. It is written out here
as it is read in the table, and not as the table is put together
(`BenchReport.LongTable.lines_eq`).
-/

namespace BenchReport.LongTable

/-! ### The order of entries -/

namespace Entry

/-- Whether an entry comes before another: the bytes of its benchmark do, or it has the same
benchmark and its stream rate comes before the other one in the total order of doubles. -/
def Before (a b : Entry) : Prop :=
  Text.encode a.benchmark < Text.encode b.benchmark ∨
    a.benchmark = b.benchmark ∧ floatRank a.streamRate < floatRank b.streamRate

/-- What an entry is sorted by. -/
def place (e : Entry) : String × Float := (e.benchmark, e.streamRate)

/-- Whether two entries have the same benchmark and the same stream rate, bit for bit. -/
def Ties (a b : Entry) : Prop := a.place = b.place

instance (a b : Entry) : Decidable (a.Ties b) := inferInstanceAs (Decidable (_ = _))

variable {a b c : Entry}

theorem Ties.symm (h : a.Ties b) : b.Ties a := Eq.symm h

theorem Ties.trans (h : a.Ties b) (h' : b.Ties c) : a.Ties c := Eq.trans h h'

theorem order_eq_lt_iff : a.order b = .lt ↔ a.Before b := by
  rw [order, Ordering.then_eq_lt, compare_lt_iff_lt, compare_eq_iff_eq, compare_lt_iff_lt, Before,
    Text.encode_lt_encode_iff]

theorem order_eq_eq_iff : a.order b = .eq ↔ a.Ties b := by
  rw [order, Ordering.then_eq_eq, compare_eq_iff_eq, compare_eq_iff_eq,
    floatRank_injective.eq_iff, Ties, place, place, Prod.mk.injEq]

instance : Std.TransCmp order :=
  inferInstanceAs (Std.TransCmp (compareLex (compareOn benchmark)
    (compareOn fun e => floatRank e.streamRate)))

theorem order_eq_gt_iff : a.order b = .gt ↔ b.Before a := by
  rw [← order_eq_lt_iff]
  exact Std.OrientedCmp.gt_iff_lt

/-- Whether an entry may stand above another one. -/
def mayPrecede (descending : Bool) (a b : Entry) : Bool :=
  if descending then (a.order b).isGE else (a.order b).isLE

variable {descending : Bool}

theorem mayPrecede_iff :
    mayPrecede descending a b ↔ if descending then ¬a.Before b else ¬b.Before a := by
  rw [← order_eq_lt_iff, ← order_eq_gt_iff, mayPrecede]
  cases descending <;> cases a.order b <;> simp

theorem mayPrecede_trans (descending : Bool) (a b c : Entry) (h : mayPrecede descending a b)
    (h' : mayPrecede descending b c) : mayPrecede descending a c := by
  cases descending with
  | false => exact Std.TransCmp.isLE_trans h h'
  | true => exact Std.TransCmp.isGE_trans h h'

theorem mayPrecede_total (descending : Bool) (a b : Entry) :
    mayPrecede descending a b || mayPrecede descending b a := by
  have hswap : b.order a = (a.order b).swap := Std.OrientedCmp.eq_swap
  rw [mayPrecede, mayPrecede, hswap]
  cases descending <;> cases a.order b <;> rfl

theorem ties_iff :
    a.Ties b ↔ mayPrecede descending a b ∧ mayPrecede descending b a := by
  have hswap : b.order a = (a.order b).swap := Std.OrientedCmp.eq_swap
  rw [← order_eq_eq_iff, mayPrecede, mayPrecede, hswap]
  cases descending <;> cases a.order b <;> simp

end Entry

theorem sortEntries_eq (descending : Bool) (entries : List Entry) :
    sortEntries descending entries = entries.mergeSort (Entry.mayPrecede descending) :=
  rfl

/-! ### Stable sorts -/

/-- **Rows are the stable sort of entries**: they are these entries, none comes before one that
stands above it (or after it, when the greatest is on top), and those that tie are in the order
in which they came. -/
structure IsStableSort (descending : Bool) (entries rows : List Entry) : Prop where
  perm : rows.Perm entries
  sorted : rows.Pairwise fun a b => if descending then ¬a.Before b else ¬b.Before a
  stable : ∀ e, rows.filter (fun a => a.Ties e) = entries.filter fun a => a.Ties e

section StableSort

variable {descending : Bool} {entries rows rows' : List Entry}

theorem IsStableSort.pairwise (h : IsStableSort descending entries rows) :
    rows.Pairwise fun a b => Entry.mayPrecede descending a b :=
  h.sorted.imp Entry.mayPrecede_iff.mpr

/-- Entries that tie may stand in any order, and so sorting leaves them as they are. -/
theorem filter_ties_sortEntries (descending : Bool) (entries : List Entry) (e : Entry) :
    (sortEntries descending entries).filter (fun a => a.Ties e) =
      entries.filter fun a => a.Ties e := by
  rw [sortEntries_eq]
  have hpairwise : (entries.filter fun a => a.Ties e).Pairwise
      fun a b => Entry.mayPrecede descending a b := by
    refine List.pairwise_of_forall_mem_list fun a ha b hb => ?_
    have hae : a.Ties e := by simpa using (List.mem_filter.mp ha).2
    have hbe : b.Ties e := by simpa using (List.mem_filter.mp hb).2
    exact (Entry.ties_iff.mp (hae.trans hbe.symm)).1
  have hsub : (entries.filter fun a => a.Ties e).Sublist
      (entries.mergeSort (Entry.mayPrecede descending)) :=
    List.sublist_mergeSort (Entry.mayPrecede_trans descending)
      (Entry.mayPrecede_total descending) hpairwise List.filter_sublist
  have hfiltered := hsub.filter fun a => decide (a.Ties e)
  have hlength := ((List.mergeSort_perm entries (Entry.mayPrecede descending)).filter
    fun a => decide (a.Ties e)).length_eq
  rw [List.filter_filter, funext fun a => Bool.and_self _] at hfiltered
  exact (hfiltered.eq_of_length hlength.symm).symm

theorem isStableSort_sortEntries (descending : Bool) (entries : List Entry) :
    IsStableSort descending entries (sortEntries descending entries) where
  perm := List.mergeSort_perm ..
  sorted := (List.pairwise_mergeSort (Entry.mayPrecede_trans descending)
    (Entry.mayPrecede_total descending) entries).imp Entry.mayPrecede_iff.mp
  stable := filter_ties_sortEntries descending entries

theorem mem_iff_of_filter_ties_eq
    (hties : ∀ e, rows.filter (fun a => a.Ties e) = rows'.filter fun a => a.Ties e) (a : Entry) :
    a ∈ rows ↔ a ∈ rows' := by
  have hself : ∀ l : List Entry, a ∈ l ↔ a ∈ l.filter fun b => b.Ties a := fun l => by
    simp [Entry.Ties]
  rw [hself rows, hties, ← hself rows']

theorem eq_of_filter_ties_eq (h : rows.Pairwise fun a b => Entry.mayPrecede descending a b)
    (h' : rows'.Pairwise fun a b => Entry.mayPrecede descending a b)
    (hties : ∀ e, rows.filter (fun a => a.Ties e) = rows'.filter fun a => a.Ties e) :
    rows = rows' := by
  have hmem := mem_iff_of_filter_ties_eq hties
  induction rows generalizing rows' with
  | nil => exact (List.eq_nil_iff_forall_not_mem.mpr fun a => by simp [← hmem]).symm
  | cons a rows ih =>
    obtain - | ⟨b, rows'⟩ := rows'
    · exact absurd ((hmem a).mp List.mem_cons_self) List.not_mem_nil
    obtain ⟨hhead, htail⟩ := List.pairwise_cons.mp h
    obtain ⟨hhead', htail'⟩ := List.pairwise_cons.mp h'
    have htie : b.Ties a := by
      obtain rfl | hb := List.mem_cons.mp ((hmem b).mpr List.mem_cons_self)
      · exact Eq.refl _
      obtain rfl | ha := List.mem_cons.mp ((hmem a).mp List.mem_cons_self)
      · exact Eq.refl _
      exact Entry.ties_iff.mpr ⟨hhead' a ha, hhead b hb⟩
    obtain rfl : a = b := by
      have hfirst := hties a
      rw [List.filter_cons_of_pos (by simp [Entry.Ties]),
        List.filter_cons_of_pos (by simpa using htie)] at hfirst
      exact (List.cons.inj hfirst).1
    have hties' : ∀ e, rows.filter (fun a => a.Ties e) = rows'.filter fun a => a.Ties e := by
      intro e
      have he := hties e
      rw [List.filter_cons, List.filter_cons] at he
      split at he
      · exact (List.cons.inj he).2
      · exact he
    rw [ih htail htail' hties' (mem_iff_of_filter_ties_eq hties')]

theorem IsStableSort.unique (h : IsStableSort descending entries rows)
    (h' : IsStableSort descending entries rows') : rows = rows' :=
  eq_of_filter_ties_eq h.pairwise h'.pairwise fun e => (h.stable e).trans (h'.stable e).symm

end StableSort

/-! ### The rows of rates -/

/-- An entry is that of a group's rates. -/
structure IsEntryOf (d : DerivedRates) (e : Entry) : Prop where
  benchmark : e.benchmark = d.key.name
  streamRate : d.streamRate = some e.streamRate
  rate : e.rate = d.processingRate

/-- **The rows of a table of rates**: one for each group, in a stable sort. -/
def RowsOf (descending : Bool) (rates : List DerivedRates) (rows : List Entry) : Prop :=
  ∃ entries, List.Forall₂ IsEntryOf rates entries ∧ IsStableSort descending entries rows

section Rates

variable {descending : Bool} {rates rates' : List DerivedRates} {found rows rows' : List Entry}
  {config : LongTableConfig} {metadata : Metadata}

theorem Entry.ofRates_eq_ok_iff {d : DerivedRates} {e : Entry} :
    Entry.ofRates d = .ok e ↔ IsEntryOf d e := by
  rw [Entry.ofRates]
  constructor
  · intro h
    split at h
    · rename_i streamRate hrate
      obtain rfl := Except.ok.inj h
      exact ⟨rfl, hrate, rfl⟩
    · cases h
  · rintro ⟨hbenchmark, hrate, hprocessing⟩
    rw [hrate, ← hbenchmark, ← hprocessing]

theorem entries_eq_ok_iff : entries rates = .ok found ↔ List.Forall₂ IsEntryOf rates found := by
  induction rates generalizing found with
  | nil => simp [entries, eq_comm]
  | cons d rates ih =>
    rw [entries, List.forall₂_cons_left_iff]
    cases hd : Entry.ofRates d with
    | error fault =>
      refine iff_of_false (by simp) ?_
      rintro ⟨e, _, he, -⟩
      rw [Entry.ofRates_eq_ok_iff.mpr he] at hd
      cases hd
    | ok e =>
      have hunique : ∀ e', IsEntryOf d e' ↔ e = e' := fun e' => by
        rw [← Entry.ofRates_eq_ok_iff, hd, Except.ok.injEq]
      simp only [hunique, ← ih]
      cases entries rates <;> simp [Except.map, eq_comm]

/-- **A long table has a row for every group, or none at all**: the first group without a stream
rate is named. -/
theorem entries_eq_error_iff {fault : MissingStreamRate} :
    entries rates = .error fault ↔
      (rates.find? fun d => d.streamRate.isNone).map (fun d => ⟨d.key.spell⟩) = some fault := by
  induction rates with
  | nil => simp [entries]
  | cons d rates ih =>
    rw [entries, Entry.ofRates]
    cases hrate : d.streamRate with
    | none => simp [hrate]
    | some rate =>
      rw [List.find?_cons_of_neg (by simp [hrate]), ← ih]
      cases entries rates <;> simp [Except.map]

theorem exists_rowsOf (h : ∀ d ∈ rates, d.streamRate.isSome) :
    ∃ rows, RowsOf descending rates rows := by
  cases hfound : entries rates with
  | ok found =>
    exact ⟨_, found, entries_eq_ok_iff.mp hfound, isStableSort_sortEntries descending found⟩
  | error fault =>
    obtain ⟨d, hd, -⟩ := Option.map_eq_some_iff.mp (entries_eq_error_iff.mp hfound)
    have hnone := List.find?_some hd
    rw [← Option.not_isSome, h d (List.mem_of_find?_eq_some hd)] at hnone
    cases hnone

/-- What the entries of rates are sorted by can be said of the rates. -/
theorem map_place_of_forall₂ (h : List.Forall₂ IsEntryOf rates found) :
    (found.map Entry.place).map (Prod.map id some) =
      rates.map fun d => (d.key.name, d.streamRate) := by
  induction h with
  | nil => rfl
  | cons hd _ ih =>
    rw [List.map_cons, List.map_cons, List.map_cons, ih, hd.streamRate, ← hd.benchmark]
    rfl

theorem RowsOf.isSome (h : RowsOf descending rates rows) : ∀ d ∈ rates, d.streamRate.isSome := by
  obtain ⟨found, hfound, -⟩ := h
  have hboth := hfound.imp fun d e he =>
    And.intro (Option.isSome_iff_exists.mpr ⟨e.streamRate, he.streamRate⟩) he
  exact ((List.forall₂_and_left _ _).mp hboth).1

theorem RowsOf.nodup_places (h : RowsOf descending rates rows)
    (hnodup : (rates.map fun d => (d.key.name, d.streamRate)).Nodup) :
    (rows.map Entry.place).Nodup := by
  obtain ⟨found, hfound, hrows⟩ := h
  rw [← map_place_of_forall₂ hfound] at hnodup
  exact (hrows.perm.map _).nodup_iff.mpr (hnodup.of_map _)

theorem RowsOf.unique (h : RowsOf descending rates rows) (h' : RowsOf descending rates rows') :
    rows = rows' := by
  obtain ⟨found, hfound, hrows⟩ := h
  obtain ⟨found', hfound', hrows'⟩ := h'
  obtain rfl : found = found' := Except.ok.inj
    ((entries_eq_ok_iff.mpr hfound).symm.trans (entries_eq_ok_iff.mpr hfound'))
  exact hrows.unique hrows'

theorem RowsOf.pairwise (h : RowsOf descending rates rows) :
    rows.Pairwise fun a b => Entry.mayPrecede descending a b :=
  h.choose_spec.2.pairwise

/-- The rows of the same groups are the same, whatever their order. -/
theorem RowsOf.perm (h : RowsOf descending rates rows) (h' : RowsOf descending rates' rows')
    (hperm : rates.Perm rates') : rows.Perm rows' := by
  obtain ⟨found, hfound, hrows⟩ := h
  obtain ⟨found', hfound', hrows'⟩ := h'
  obtain ⟨found'', hfound'', hperm'⟩ := List.perm_comp_forall₂ hperm hfound'
  obtain rfl : found = found'' := Except.ok.inj
    ((entries_eq_ok_iff.mpr hfound).symm.trans (entries_eq_ok_iff.mpr hfound''))
  exact hrows.perm.trans (hperm'.trans hrows'.perm.symm)

/-- **The order in which groups came is not seen in what their rows are sorted by.** -/
theorem places_eq_of_perm (h : RowsOf descending rates rows) (h' : RowsOf descending rates' rows')
    (hperm : rates.Perm rates') : rows.map Entry.place = rows'.map Entry.place := by
  -- whether a row may stand above another one depends on their places only
  let above : String × Float → String × Float → Prop := fun p q =>
    Entry.mayPrecede descending ⟨p.1, p.2, 0⟩ ⟨q.1, q.2, 0⟩
  have hantisymm : ∀ p q, above p q → above q p → p = q := fun p q hpq hqp =>
    Entry.ties_iff.mpr ⟨hpq, hqp⟩
  refine List.Perm.eq_of_pairwise (fun p q _ _ => hantisymm p q) ?_ ?_ ((h.perm h' hperm).map _)
  · exact List.pairwise_map.mpr h.pairwise
  · exact List.pairwise_map.mpr h'.pairwise

/-- Without ties, not even the rows show the order in which the groups came. -/
theorem rows_eq_of_perm (h : RowsOf descending rates rows) (h' : RowsOf descending rates' rows')
    (hperm : rates.Perm rates') (hnodup : (rows.map Entry.place).Nodup) : rows = rows' := by
  have hrows := h.perm h' hperm
  refine hrows.eq_of_pairwise (fun a b ha hb hab hba => ?_) h.pairwise h'.pairwise
  exact List.inj_on_of_nodup_map hnodup ha (hrows.mem_iff.mpr hb) (Entry.ties_iff.mpr ⟨hab, hba⟩)

/-! ### The table -/

/-- The caption of a table and its label. -/
def captionText (subject : String) (metadata : Metadata) (label : String) : String :=
  let known (key : String) := escape ((Keyed.get? key metadata).getD "unknown")
  "\\caption\x7bBenchmark results for " ++ escape subject ++ " on " ++ known "goos" ++ " (" ++
    known "goarch" ++ ") for package \\texttt\x7b" ++ known "pkg" ++ "\x7d.\x7d \\label\x7b" ++
    label ++ "\x7d \\\\"

/-- The headers of the columns. -/
def headersText (valueHeader : String) : String :=
  "\\textbf\x7bBenchmark\x7d & \\textbf\x7bStream Rate\x7d & \\textbf\x7b" ++
    escape valueHeader ++ "\x7d \\\\"

/-- The lines above the rows. -/
def openingLines (subject valueHeader : String) (metadata : Metadata) (label : String) :
    List String :=
  ["\\begin\x7bcenter\x7d",
    "\\begin\x7blongtable\x7d\x7b|l|r|r|\x7d",
    captionText subject metadata label,
    "\\hline",
    headersText valueHeader,
    "\\hline",
    "\\endfirsthead",
    "\\hline " ++ headersText valueHeader ++ " \\hline",
    "\\endhead",
    "\\hline \\multicolumn\x7b3\x7d\x7br\x7d\x7b\x7bContinued on next page\x7d\x7d \\\\",
    "\\endfoot",
    "\\hline",
    "\\endlastfoot"]

/-- The line of an entry: its benchmark, its stream rate in groups of thousands, and its
processing rate with three decimals. -/
def entryText (e : Entry) : String :=
  escape e.benchmark ++ " & " ++ String.ofList (thousands e.streamRate) ++ " & " ++
    String.ofList (Decimal.fixedChars 3 e.rate) ++ " \\\\"

/-- The lines below the rows. -/
def closingLines : List String := ["\\end\x7blongtable\x7d", "\\end\x7bcenter\x7d"]

theorem captionText_eq (subject : String) (metadata : Metadata) (label : String) :
    captionText subject metadata label =
      command "caption" (caption subject metadata) ++ " " ++ command "label" label ++ " \\\\" := by
  unfold captionText caption fact command braced
  rw [← String.toList_inj]
  simp only [String.toList_append]
  simp

theorem headersText_eq (valueHeader : String) :
    headersText valueHeader = headerLine valueHeader := by
  unfold headersText headerLine command braced
  rw [← String.toList_inj]
  simp only [String.toList_append]
  simp

/-- **A table is its rows, between lines that do not depend on them** but for the label. -/
theorem lines_eq (config : LongTableConfig) (metadata : Metadata) (rows : List Entry) :
    lines config metadata rows =
      openingLines config.subject config.valueHeader metadata
          (config.label.getD (derivedLabel config.subject metadata rows)) ++
        rows.map entryText ++ closingLines := by
  rw [openingLines, captionText_eq, headersText_eq]
  rfl

theorem render_eq_error_iff {fault : MissingStreamRate} :
    render config metadata rates = .error fault ↔ entries rates = .error fault := by
  rw [render]
  cases entries rates <;> simp

theorem render_eq_ok_iff {text : String} :
    render config metadata rates = .ok text ↔
      ∃ rows, RowsOf config.descending rates rows ∧
        String.intercalate "\n" (lines config metadata rows) = text := by
  have hsorted : ∀ found, entries rates = .ok found →
      RowsOf config.descending rates (sortEntries config.descending found) := fun found hfound =>
    ⟨found, entries_eq_ok_iff.mp hfound, isStableSort_sortEntries _ _⟩
  constructor
  · intro h
    rw [render] at h
    split at h
    · cases h
    · rename_i found hfound
      exact ⟨_, hsorted found hfound, Except.ok.inj h⟩
  · rintro ⟨rows, hrows, rfl⟩
    obtain ⟨found, hfound, -⟩ := id hrows
    have hok := entries_eq_ok_iff.mpr hfound
    rw [render, hok, hrows.unique (hsorted found hok)]

/-- A label is made from what rows are sorted by. -/
theorem derivedLabel_eq_of_places (subject : String) (metadata : Metadata)
    (h : rows.map Entry.place = rows'.map Entry.place) :
    derivedLabel subject metadata rows = derivedLabel subject metadata rows' := by
  have hbytes : ∀ entries : List Entry,
      (entries.flatMap fun e => Text.encode e.benchmark ++ floatBytes e.streamRate) =
        (entries.map Entry.place).flatMap fun p => Text.encode p.1 ++ floatBytes p.2 :=
    fun entries => by
      rw [List.flatMap_map]
      rfl
  rw [derivedLabel, derivedLabel, fingerprint, fingerprint, hbytes, hbytes, h]

/-- The text of rates that all have a stream rate does not show the order in which the groups
came, if no two of them have the same benchmark and the same stream rate. -/
theorem render_eq_ok_of_perm {text : String} (hperm : rates.Perm rates')
    (hnodup : (rates.map fun d => (d.key.name, d.streamRate)).Nodup)
    (h : render config metadata rates = .ok text) : render config metadata rates' = .ok text := by
  obtain ⟨rows, hrows, rfl⟩ := render_eq_ok_iff.mp h
  obtain ⟨rows', hrows'⟩ : ∃ rows', RowsOf config.descending rates' rows' :=
    exists_rowsOf fun d hd => hrows.isSome d (hperm.mem_iff.mpr hd)
  rw [rows_eq_of_perm hrows hrows' hperm (hrows.nodup_places hnodup)]
  exact render_eq_ok_iff.mpr ⟨_, hrows', rfl⟩

/-- A table of rates that cannot be typeset is neither printed nor written. -/
theorem deliver_of_missingStreamRate {r : PipelineResult} {fault : MissingStreamRate}
    (h : (r.rates.derived.find? fun d => d.streamRate.isNone).map (fun d => ⟨d.key.spell⟩) =
      some fault) (files : FileView) (output : Option String)
    (outcomes : List (String × Except SourceFault Tally)) (events : List Event) (caption : String) :
    Command.deliver files output outcomes events (Command.renderRates .latex caption r) =
      .failed (.latex fault) events := by
  have hrender : render { LongTableConfig.default with subject := caption } r.metadata
      r.rates.derived = .error fault := render_eq_error_iff.trans entries_eq_error_iff |>.mpr h
  rw [Command.renderRates, Command.ratesText, hrender]
  rfl

/-- **A long table shows its groups in a stable sort, and nothing else of their order.** It is not
made if a group has no stream rate, and then the first of these is named and nothing is printed
or written. Otherwise there is a row for each group, with its benchmark, its stream rate and its
processing rate, between lines that do not depend on the groups but for the label. The rows are
in a stable sort, which is the only one. The label that is made from them is the same for the same
groups in another order, and so is the whole table unless two groups have the same benchmark and
the same stream rate. -/
theorem render_is_of_stable_sort (config : LongTableConfig) (metadata : Metadata) :
    (∀ rates fault, render config metadata rates = .error fault ↔
      (rates.find? fun d => d.streamRate.isNone).map (fun d => ⟨d.key.spell⟩) = some fault) ∧
    (∀ (r : PipelineResult) (files : FileView) (output : Option String)
      (outcomes : List (String × Except SourceFault Tally)) (events : List Event)
      (caption : String) (fault : MissingStreamRate),
      (r.rates.derived.find? fun d => d.streamRate.isNone).map (fun d => ⟨d.key.spell⟩) =
        some fault →
      let o := Command.deliver files output outcomes events (Command.renderRates .latex caption r)
      o.failure = some (.latex fault) ∧ o.printed = "" ∧ o.writes = []) ∧
    (∀ rates, (∀ d ∈ rates, d.streamRate.isSome) →
      ∃ rows, RowsOf config.descending rates rows ∧
        (∀ rows', RowsOf config.descending rates rows' → rows' = rows) ∧
        render config metadata rates = .ok (String.intercalate "\n"
          (openingLines config.subject config.valueHeader metadata
              (config.label.getD (derivedLabel config.subject metadata rows)) ++
            rows.map entryText ++ closingLines))) ∧
    (∀ rates rates' rows rows', rates.Perm rates' →
      RowsOf config.descending rates rows → RowsOf config.descending rates' rows' →
      derivedLabel config.subject metadata rows = derivedLabel config.subject metadata rows') ∧
    ∀ rates rates' text, rates.Perm rates' →
      (rates.map fun d => (d.key.name, d.streamRate)).Nodup →
      render config metadata rates = .ok text → render config metadata rates' = .ok text := by
  refine ⟨fun rates fault => render_eq_error_iff.trans entries_eq_error_iff, ?_, ?_, ?_, ?_⟩
  · intro r files output outcomes events caption fault h
    rw [deliver_of_missingStreamRate h]
    exact ⟨rfl, rfl, rfl⟩
  · intro rates hrates
    obtain ⟨rows, hrows⟩ := exists_rowsOf hrates
    exact ⟨rows, hrows, fun _ hrows' => hrows'.unique hrows,
      render_eq_ok_iff.mpr ⟨_, hrows, congrArg _ (lines_eq config metadata rows)⟩⟩
  · intro rates rates' rows rows' hperm h h'
    exact derivedLabel_eq_of_places _ _ (places_eq_of_perm h h' hperm)
  · intro rates rates' text hperm hnodup h
    exact render_eq_ok_of_perm hperm hnodup h

end Rates

end BenchReport.LongTable
