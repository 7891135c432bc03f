import Mathlib
import BenchReport.Proofs.LongTable.Rows
import BenchReport.Proofs.Table.Columns

/-!
# The lines of a table

A result is rendered as one text, and here is what that text is: which lines it has, for groups
(`BenchReport.Table.IsLinesOfGroups`) and for rates (`BenchReport.Table.IsLinesOfRates`), in each
of the formats. Every line is written out with its fixed parts, and a reader of a table need not
know how it is put together. A table of groups or rates that is rendered has these lines and no
others (`BenchReport.Table.lines_of_renderGroups`, `BenchReport.Table.lines_of_ratesText`).

Three things are left to their own modules: which columns there are, when a cell of a CSV text
stands in quotes, and in which order a long table has its rows.

A CSV text is the text of its records, and a record is its fields with commas between them
(`BenchReport.Table.csv_eq_join`) – but for a record of one empty field, which would be an empty
line. No table has it: behind the benchmark there is always a number.
-/

namespace BenchReport

/-! ### Records as lines -/

/-- Texts with a delimiter between each two are joined by it. -/
theorem Csv.delimited_eq_intercalate (delimiter : Char) (fields : List (List Char)) :
    delimited delimiter fields = [delimiter].intercalate fields := by
  fun_induction delimited delimiter fields with
  | case1 => rfl
  | case2 field => simp
  | case3 field rest hrest ih =>
    obtain ⟨next, others, rfl⟩ := List.exists_cons_of_ne_nil hrest
    rw [ih, List.intercalate_cons_cons]
    simp

namespace Table

/-- The line of a record: its cells with commas between them, each of them in quotes if it has
to be. -/
def csvLine (cells : List String) : String :=
  String.intercalate "," (cells.map fun cell =>
    String.ofList (Csv.fieldText .necessary ',' cell.toList))

theorem toList_csvLine (cells : List String) :
    (csvLine cells).toList =
      Csv.delimited ',' ((cells.map String.toList).map (Csv.fieldText .necessary ',')) := by
  rw [csvLine, String.toList_intercalate, List.map_map, Csv.delimited_eq_intercalate, List.map_map]
  refine congrArg _ (List.map_congr_left fun cell _ => ?_)
  exact String.toList_ofList

/-- A record of several cells is its line. -/
theorem recordText_eq {cells : List String} (h : 2 ≤ cells.length) :
    Csv.recordText .necessary ',' (cells.map String.toList) = (csvLine cells ++ "\n").toList := by
  obtain ⟨first, second, rest, rfl⟩ : ∃ first second rest, cells = first :: second :: rest := by
    match cells, h with
    | first :: second :: rest, _ => exact ⟨first, second, rest, rfl⟩
  -- there is a comma in the line, so it is not empty even if all cells are
  have hcomma : (csvLine (first :: second :: rest)).toList ≠ [] := by
    rw [toList_csvLine]
    exact List.append_ne_nil_of_right_ne_nil _ (List.cons_ne_nil _ _)
  rw [Csv.recordText, ← toList_csvLine, if_neg (by simpa using hcomma), String.toList_append]
  rfl

theorem text_eq {records : List (List String)} (h : ∀ cells ∈ records, 2 ≤ cells.length) :
    String.ofList (Csv.text .necessary ',' (records.map fun cells => cells.map String.toList)) =
      String.join (records.map fun cells => csvLine cells ++ "\n") := by
  rw [← String.toList_inj, String.toList_ofList, Csv.text, List.flatMap_map]
  induction records with
  | nil => rfl
  | cons cells records ih =>
    obtain ⟨hcells, hrecords⟩ := List.forall_mem_cons.mp h
    rw [List.flatMap_cons, ih hrecords, recordText_eq hcells, List.map_cons, String.join_cons,
      ← String.toList_append]

/-- **The text of a table is a line for its header and one for each row.** -/
theorem csv_eq_join {t : Table} (hheader : 2 ≤ t.header.length)
    (hrows : ∀ row ∈ t.rows, 2 ≤ row.cells.length) :
    t.csv .default true = .ok (String.join
      ((t.header :: t.rows.map Row.cells).map fun cells => csvLine cells ++ "\n")) := by
  have hall : ∀ cells ∈ t.header :: t.rows.map Row.cells, 2 ≤ cells.length := by
    simpa using ⟨hheader, hrows⟩
  rw [← text_eq hall]
  rfl

/-! ### The lines of groups -/

/-- **The lines of a table of groups.** As comma-separated values there is a line for the columns
and one for each group, where a cell is empty if the group has no such parameter or metric. As
plain text there is a line for each group, which shows the metrics that it has. -/
def IsLinesOfGroups (format : OutputFormat) (groups : List Group) (lines : List String) : Prop :=
  match format with
  | .csv =>
    let names := parameterNames (groups.map Group.key)
    let metrics := metricColumns groups
    lines =
      csvLine (["benchmark"] ++ names ++ metrics.map Metric.name ++ ["sample_count"]) ::
        groups.map fun g => csvLine ([g.key.name] ++
          names.map (fun name => ((g.key.parameter? name).map Text.showSigned).getD "") ++
          metrics.map (fun m => ((g.means.get? m).map Decimal.plain).getD "") ++ [Nat.repr g.size])
  | .text =>
    lines = groups.map fun g => g.key.spell ++ "  n=" ++ Nat.repr g.size ++ "  " ++
      String.intercalate "  " (g.means.toList.map fun entry =>
        entry.1.name ++ "=" ++ Decimal.plain entry.2)
  | .latex => False

/-- **The lines of a table of rates.** The stream rate of a group may be missing, which is an
empty cell or a dash. A long table has its rows in a stable sort. -/
def IsLinesOfRates (format : OutputFormat) (caption : String) (metadata : Metadata)
    (rates : List DerivedRates) (lines : List String) : Prop :=
  match format with
  | .csv =>
    let names := parameterNames (rates.map DerivedRates.key)
    lines =
      csvLine (["benchmark"] ++ names ++
          ["stream_rate_tuples_per_sec", "processing_rate_tuples_per_sec"]) ::
        rates.map fun d => csvLine ([d.key.name] ++
          names.map (fun name => ((d.key.parameter? name).map Text.showSigned).getD "") ++
          [(d.streamRate.map Decimal.plain).getD "", Decimal.plain d.processingRate])
  | .text =>
    lines = rates.map fun d => d.key.spell ++ "  stream_rate=" ++
      (d.streamRate.map fun x => String.ofList (Decimal.fixedChars 3 x)).getD "-" ++
      "  processing_rate=" ++ String.ofList (Decimal.fixedChars 3 d.processingRate)
  | .latex =>
    ∃ rows, LongTable.RowsOf true rates rows ∧
      lines = LongTable.openingLines caption "Throughput (tuples/s)" metadata
          (LongTable.derivedLabel caption metadata rows) ++
        rows.map LongTable.entryText ++ LongTable.closingLines

theorem optionalCell_eq {α : Type} (text : α → String) (value : Option α) :
    optionalCell text value = (value.map text).getD "" := by
  cases value <;> rfl

/-- A record that ends with other cells than it begins with has two cells at least. -/
theorem two_le_length {first last : List String} (hfirst : first ≠ []) (hlast : last ≠ []) :
    2 ≤ (first ++ last).length := by
  have hpos := List.length_pos_of_ne_nil hfirst
  have hpos' := List.length_pos_of_ne_nil hlast
  rw [List.length_append]
  omega

theorem csv_ofGroups (groups : List Group) :
    ∃ lines, IsLinesOfGroups .csv groups lines ∧
      (ofGroups groups).csv .default true = .ok (String.join (lines.map (· ++ "\n"))) := by
  refine ⟨_, rfl, (csv_eq_join (t := ofGroups groups) ?_ ?_).trans ?_⟩
  · exact two_le_length (List.cons_ne_nil _ _) (List.cons_ne_nil _ _)
  · intro row hrow
    obtain ⟨g, -, rfl⟩ := List.mem_map.mp hrow
    exact two_le_length (List.cons_ne_nil _ _) (List.cons_ne_nil _ _)
  · simp [ofGroups, keyCells, optionalCell_eq, Function.comp_def]

theorem csv_ofRates (caption : String) (metadata : Metadata) (rates : List DerivedRates) :
    ∃ lines, IsLinesOfRates .csv caption metadata rates lines ∧
      (ofRates rates).csv .default true = .ok (String.join (lines.map (· ++ "\n"))) := by
  refine ⟨_, rfl, (csv_eq_join (t := ofRates rates) ?_ ?_).trans ?_⟩
  · exact two_le_length (List.cons_ne_nil _ _) (List.cons_ne_nil _ _)
  · intro row hrow
    obtain ⟨d, -, rfl⟩ := List.mem_map.mp hrow
    exact two_le_length (List.cons_ne_nil _ _) (List.cons_ne_nil _ _)
  · simp [ofRates, keyCells, optionalCell_eq, Function.comp_def]

theorem line_group (g : Group) :
    g.line = g.key.spell ++ "  n=" ++ Nat.repr g.size ++ "  " ++
      String.intercalate "  " (g.means.toList.map fun entry =>
        entry.1.name ++ "=" ++ Decimal.plain entry.2) := by
  unfold Group.line Metrics.spell columns named
  generalize String.intercalate "  " (g.means.toList.map _) = metrics
  rw [← String.toList_inj]
  simp only [String.intercalate_cons_cons, String.intercalate_singleton, String.toList_append]
  simp

theorem line_rates (d : DerivedRates) :
    d.line = d.key.spell ++ "  stream_rate=" ++
      (d.streamRate.map fun x => String.ofList (Decimal.fixedChars 3 x)).getD "-" ++
      "  processing_rate=" ++ String.ofList (Decimal.fixedChars 3 d.processingRate) := by
  unfold DerivedRates.line columns named derivedText Decimal.fixed
  generalize (d.streamRate.map _).getD "-" = streamRate
  rw [← String.toList_inj]
  simp only [String.intercalate_cons_cons, String.intercalate_singleton, String.toList_append]
  simp

/-! ### Rendered tables -/

/-- **Groups are rendered line by line.** -/
theorem lines_of_renderGroups {format : OutputFormat} {groups : List Group}
    {rendered : Command.Rendered} (h : Command.renderGroups format groups = .ok rendered) :
    ∃ lines, IsLinesOfGroups format groups lines ∧
      rendered.content = String.join (lines.map (· ++ "\n")) := by
  cases format with
  | csv =>
    obtain ⟨lines, hlines, hcsv⟩ := csv_ofGroups groups
    rw [Command.renderGroups, hcsv] at h
    obtain rfl := Except.ok.inj h
    exact ⟨lines, hlines, rfl⟩
  | text =>
    obtain rfl := Except.ok.inj h
    exact ⟨_, rfl, congrArg linesText (List.map_congr_left fun g _ => line_group g)⟩
  | latex => cases h

/-- Texts with line ends between them and one at the end. -/
theorem intercalate_append_eq_join {lines : List String} (h : lines ≠ []) :
    String.intercalate "\n" lines ++ "\n" = String.join (lines.map (· ++ "\n")) := by
  induction lines with
  | nil => exact absurd rfl h
  | cons line lines ih =>
    cases lines with
    | nil => simp
    | cons next lines =>
      rw [String.intercalate_cons_cons, String.append_assoc, ih (List.cons_ne_nil _ _),
        ← String.join_cons]
      rfl

/-- **Rates are rendered line by line.** -/
theorem lines_of_ratesText {format : OutputFormat} {caption : String} {metadata : Metadata}
    {rates : List DerivedRates} {text : String}
    (h : Command.ratesText format caption metadata rates = .ok text) :
    ∃ lines, IsLinesOfRates format caption metadata rates lines ∧
      text = String.join (lines.map (· ++ "\n")) := by
  cases format with
  | csv =>
    obtain ⟨lines, hlines, hcsv⟩ := csv_ofRates caption metadata rates
    rw [Command.ratesText, hcsv] at h
    obtain rfl := Except.ok.inj h
    exact ⟨lines, hlines, rfl⟩
  | text =>
    obtain rfl := Except.ok.inj h
    exact ⟨_, rfl, congrArg linesText (List.map_congr_left fun d _ => line_rates d)⟩
  | latex =>
    rw [Command.ratesText] at h
    split at h
    · rename_i content hrender
      obtain rfl := Except.ok.inj h
      obtain ⟨rows, hrows, rfl⟩ := LongTable.render_eq_ok_iff.mp hrender
      refine ⟨_, ⟨rows, hrows, rfl⟩, ?_⟩
      rw [LongTable.lines_eq]
      exact intercalate_append_eq_join (List.cons_ne_nil _ _)
    · cases h

/-- The lines of rates are settled by what they are the lines of. -/
theorem IsLinesOfRates.unique {format : OutputFormat} {caption : String} {metadata : Metadata}
    {rates : List DerivedRates} {lines lines' : List String}
    (h : IsLinesOfRates format caption metadata rates lines)
    (h' : IsLinesOfRates format caption metadata rates lines') : lines = lines' := by
  cases format with
  | csv => exact Eq.trans h (Eq.symm h')
  | text => exact Eq.trans h (Eq.symm h')
  | latex =>
    obtain ⟨rows, hrows, rfl⟩ := h
    obtain ⟨rows', hrows', rfl⟩ := h'
    rw [hrows.unique hrows']

theorem IsLinesOfGroups.unique {format : OutputFormat} {groups : List Group}
    {lines lines' : List String} (h : IsLinesOfGroups format groups lines)
    (h' : IsLinesOfGroups format groups lines') : lines = lines' := by
  cases format with
  | csv => exact Eq.trans h (Eq.symm h')
  | text => exact Eq.trans h (Eq.symm h')
  | latex => exact absurd h id

end Table

end BenchReport
