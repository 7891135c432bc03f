import Mathlib
import BenchReport.Proofs.Group.Identity
import BenchReport.Proofs.Table.Columns

/-!
# Rows say what their groups are

A table of groups has the columns of all its rows, and every row has a cell in each of them.
What a row says can be taken from its cells once the columns are known
(`BenchReport.Table.parametersOf`, `BenchReport.Table.metricsOf`): the cells that are not empty
are those of the group's own parameters and metrics, since a column that the group lacks leaves
its cell empty and a number never does.

The parameters come back *in their order*: the names of the columns ascend, and so do the names
in a key if none is repeated, hence the columns with a cell and the key are the same ascending
list (`BenchReport.GroupKey.filter_names`). So two groups whose rows are equal have one key.
-/

namespace BenchReport

namespace GroupKey

variable {key : GroupKey}

/-- **The columns with a cell are the names of the key**, in the same order. -/
theorem filter_names (h : key.IsDistinct) {names : List String}
    (hnames : names.Pairwise (· < ·)) (hsub : ∀ p ∈ key.parameters, p.key ∈ names) :
    names.filter (fun name => (key.parameter? name).isSome) = key.parameters.map Parameter.key := by
  refine (hnames.filter _).eq_of_mem_iff (pairwise_names h) fun name => ?_
  rw [List.mem_filter, isSome_parameter?_iff]
  refine and_iff_right_of_imp fun hmem => ?_
  obtain ⟨p, hp, rfl⟩ := List.mem_map.mp hmem
  exact hsub p hp

end GroupKey

/-! ### What a row says -/

namespace Table

/-- The parameters that a row says: the columns of parameters with a cell that is not empty,
and their cells. -/
def parametersOf (names cells : List String) : List (String × String) :=
  (names.zip (cells.drop 1)).filter fun c => c.2 ≠ ""

/-- The metrics that a row says, which stand behind the parameters. -/
def metricsOf (names : List String) (metrics : List Metric) (cells : List String) :
    List (Metric × String) :=
  (metrics.zip (cells.drop (1 + names.length))).filter fun c => c.2 ≠ ""

/-- **What a row says of its group**, read off its cells with the columns known. -/
structure Tells (names : List String) (metrics : List Metric) (g : Group) (row : Row) : Prop where
  /-- The row is about the group. -/
  key : row.key = g.key
  /-- The first cell is the benchmark. -/
  name : row.cells.head? = some g.key.name
  /-- The cells of the parameters are what a search in the key finds. -/
  searched : (row.cells.drop 1).take names.length =
    names.map fun name => optionalCell Text.showSigned (g.key.search? name)
  /-- The parameters with a cell are those of the group, all of them, with their values. -/
  parameters : parametersOf names row.cells =
    g.key.parameters.map fun p => (p.key, Text.showSigned p.value)
  /-- The metrics with a cell are those of the group, all of them, with their means. -/
  metrics : metricsOf names metrics row.cells =
    g.means.toList.map fun entry => (entry.1, Decimal.plain entry.2)
  /-- The last cell is the number of members. -/
  size : row.cells.getLast? = some (Nat.repr g.size)

/-- Cells made column by column: those that are not empty are in the columns that have a
value. -/
theorem filter_zip_optionalCell {α β : Type} {text : β → String} (htext : ∀ b, text b ≠ "")
    (columns : List α) (value : α → Option β) :
    (columns.zip (columns.map fun a => optionalCell text (value a))).filter (fun c => c.2 ≠ "") =
      (columns.filter fun a => (value a).isSome).map fun a => (a, optionalCell text (value a)) := by
  have hzip : columns.zip (columns.map fun a => optionalCell text (value a)) =
      columns.map fun a => (a, optionalCell text (value a)) := by
    have h : (columns.map id).zip (columns.map fun a => optionalCell text (value a)) =
        columns.map fun a => (a, optionalCell text (value a)) := List.zip_map'
    rwa [List.map_id] at h
  rw [hzip, List.filter_map]
  refine congrArg _ (List.filter_congr fun a _ => ?_)
  rw [Bool.eq_iff_iff, Function.comp_apply, decide_eq_true_iff]
  exact optionalCell_ne_empty_iff htext (value a)

/-- Cells that stand behind the columns are in none of them. -/
theorem zip_append_of_length {α β : Type} {columns : List α} {cells : List β}
    (h : columns.length = cells.length) (others : List β) :
    columns.zip (cells ++ others) = columns.zip cells := by
  have hzip := @List.zip_append _ _ columns [] cells others h
  simpa using hzip

variable {groups : List Group} {g : Group}

/-- The cells of a group, part by part. -/
theorem cells_eq (names : List String) (metrics : List Metric) (g : Group) :
    keyCells names g.key ++ metrics.map (fun m => optionalCell Decimal.plain (g.means.get? m)) ++
        [Nat.repr g.size] =
      [g.key.name] ++
        (names.map (fun name => optionalCell Text.showSigned (g.key.parameter? name)) ++
          (metrics.map (fun m => optionalCell Decimal.plain (g.means.get? m)) ++
            [Nat.repr g.size])) := by
  simp [keyCells]

/-- The metrics of a group are in columns, and in the order of the columns. -/
theorem filter_metricColumns (hg : g ∈ groups) :
    (metricColumns groups).filter (fun m => (g.means.get? m).isSome) =
      Metric.all.filter fun m => (g.means.get? m).isSome := by
  rw [metricColumns, List.filter_filter]
  refine List.filter_congr fun m _ => ?_
  rw [Bool.and_eq_left_iff_imp]
  exact fun h => List.any_eq_true.mpr ⟨g, hg, h⟩

theorem map_toList_means {text : Float → String} (means : Metrics) :
    (Metric.all.filter fun m => (means.get? m).isSome).map
        (fun m => (m, optionalCell text (means.get? m))) =
      means.toList.map fun entry => (entry.1, text entry.2) := by
  rw [Metrics.toList]
  induction Metric.all with
  | nil => rfl
  | cons m ms ih =>
    cases h : means.get? m with
    | none => simp [h, ih]
    | some x => simp [h, ih]

/-- **The row of a group tells what the group is.** -/
theorem tells_row (hg : g ∈ groups) (hkey : g.key.IsDistinct) :
    Tells (parameterNames (groups.map Group.key)) (metricColumns groups) g
      ⟨g.key, keyCells (parameterNames (groups.map Group.key)) g.key ++
        (metricColumns groups).map (fun m => optionalCell Decimal.plain (g.means.get? m)) ++
        [Nat.repr g.size]⟩ := by
  let names := parameterNames (groups.map Group.key)
  let parameterCells := names.map fun name =>
    optionalCell Text.showSigned (g.key.parameter? name)
  have hnames : names.length = parameterCells.length := by simp [parameterCells]
  have hsub : ∀ p ∈ g.key.parameters, p.key ∈ names := fun p hp =>
    mem_parameterNames.mpr ⟨g.key, List.mem_map_of_mem hg, List.mem_map_of_mem hp⟩
  rw [cells_eq]
  constructor
  · rfl
  · rfl
  · change (parameterCells ++ _).take names.length = _
    rw [hnames, List.take_left]
    simp only [GroupKey.search?_eq_parameter?, parameterCells, names]
  · rw [parametersOf, List.singleton_append, List.drop_one, List.tail_cons,
      zip_append_of_length hnames, filter_zip_optionalCell Text.showSigned_ne_empty,
      GroupKey.filter_names hkey (pairwise_parameterNames _) hsub, List.map_map]
    refine List.map_congr_left fun p hp => ?_
    rw [Function.comp_apply, (GroupKey.parameter?_eq_some_iff hkey).mpr hp, optionalCell_some]
  · rw [metricsOf, ← List.drop_drop, List.singleton_append, List.drop_one, List.tail_cons]
    change ((metricColumns groups).zip
      ((parameterCells ++ _).drop names.length)).filter _ = _
    rw [hnames, List.drop_left, zip_append_of_length (List.length_map ..).symm,
      filter_zip_optionalCell Decimal.plain_ne_empty, filter_metricColumns hg, map_toList_means]
  · simp [List.getLast?_cons]

/-- **Groups with equal rows have one key.** -/
theorem key_eq_of_cells_eq {names : List String} {metrics : List Metric} {a b : Group}
    {rowA rowB : Row} (ha : Tells names metrics a rowA) (hb : Tells names metrics b rowB)
    (h : rowA.cells = rowB.cells) : a.key = b.key := by
  have hname : a.key.name = b.key.name := by
    have hhead := ha.name
    rw [h, hb.name] at hhead
    exact (Option.some.inj hhead).symm
  have hparameters : a.key.parameters = b.key.parameters := by
    have hsame := ha.parameters
    rw [h, hb.parameters] at hsame
    refine (List.map_injective_iff.mpr ?_ hsame).symm
    intro p q hpq
    obtain ⟨hkey, hvalue⟩ := Prod.mk.inj hpq
    cases p
    cases q
    simp only [Parameter.mk.injEq]
    exact ⟨hkey, Text.showSigned_injective hvalue⟩
  exact GroupKey.ext_parts hname hparameters

/-- **A table of groups is rectangular and loses nothing.** The columns are the benchmark, the
parameters that some group has, in ascending order, the metrics that some group has, in their
order, and the number of members. There is one row for each group, in order, with a cell in
every column, and what a group is can be told from its row. So groups with different keys have
different rows. -/
theorem ofGroups_is_lossless (groups : List Group) (hkeys : ∀ g ∈ groups, g.key.IsDistinct) :
    let t := ofGroups groups
    let names := parameterNames (groups.map Group.key)
    let metrics := metricColumns groups
    t.records true = (t.header :: t.rows.map Row.cells).map (fun cells =>
        cells.map String.toList) ∧
      t.header = ["benchmark"] ++ names ++ metrics.map Metric.name ++ ["sample_count"] ∧
      names.Pairwise (· < ·) ∧
      (∀ name, name ∈ names ↔ ∃ g ∈ groups, name ∈ g.key.parameters.map Parameter.key) ∧
      metrics.Sublist [.latency, .iterations, .bytesPerOp, .allocsPerOp] ∧
      (∀ m, m ∈ metrics ↔ ∃ g ∈ groups, (g.means.get? m).isSome = true) ∧
      (∀ row ∈ t.rows, row.cells.length = t.header.length) ∧
      List.Forall₂ (Tells names metrics) groups t.rows ∧
      ∀ a ∈ t.rows, ∀ b ∈ t.rows, a.cells = b.cells → a.key = b.key := by
  intro t names metrics
  have htells : List.Forall₂ (Tells names metrics) groups t.rows :=
    List.forall₂_map_right_iff.mpr <| List.forall₂_same.mpr fun g hg => tells_row hg (hkeys g hg)
  refine ⟨rfl, rfl, pairwise_parameterNames _, fun name => ?_, sublist_metricColumns groups,
    fun m => mem_metricColumns, fun row hrow => ?_, htells, fun a ha b hb hcells => ?_⟩
  · rw [mem_parameterNames]
    simp only [List.mem_map, exists_exists_and_eq_and]
  · obtain ⟨g, -, rfl⟩ := List.mem_map.mp hrow
    simp [t, ofGroups, keyCells]
  · obtain ⟨g, hg, rfl⟩ := List.mem_map.mp ha
    obtain ⟨g', hg', rfl⟩ := List.mem_map.mp hb
    exact key_eq_of_cells_eq (tells_row hg (hkeys g hg)) (tells_row hg' (hkeys g' hg')) hcells

/-- Two groups of which one lacks a parameter of the other. -/
theorem ofGroups_is_lossless_two :
    let groups : List Group :=
      [⟨⟨"Count", [⟨"StreamRate", 500⟩], by simp⟩, ⟨some 1.5, none, none, none⟩, 2⟩,
        ⟨⟨"Kll", [⟨"Clients", 4⟩, ⟨"StreamRate", 0⟩], by decide +kernel⟩,
          ⟨some 3, none, none, none⟩, 1⟩]
    let t := ofGroups groups
    (∀ g ∈ groups, g.key.IsDistinct) ∧
      t.header = ["benchmark", "Clients", "StreamRate", "latency_ms", "sample_count"] ∧
      (∀ row ∈ t.rows, row.cells.length = t.header.length) ∧
      List.Forall₂ (Tells ["Clients", "StreamRate"] [.latency]) groups t.rows ∧
      ∀ a ∈ t.rows, ∀ b ∈ t.rows, a.cells = b.cells → a.key = b.key := by
  intro groups t
  have hkeys : ∀ g ∈ groups, g.key.IsDistinct := by
    simp only [GroupKey.IsDistinct]
    decide +kernel
  have hnames : parameterNames (groups.map Group.key) = ["Clients", "StreamRate"] := by
    decide +kernel
  have hmetrics : metricColumns groups = [.latency] := rfl
  obtain ⟨-, hheader, -, -, -, -, hlength, htells, hapart⟩ := ofGroups_is_lossless groups hkeys
  rw [hnames, hmetrics] at hheader htells
  exact ⟨hkeys, hheader, hlength, htells, hapart⟩

end Table

end BenchReport
