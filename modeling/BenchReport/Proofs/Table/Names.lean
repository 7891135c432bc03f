import Mathlib
import BenchReport.Proofs.Table.Columns
import BenchReport.Report.SingleLine

/-!
# Columns by name

A header puts names of three origins in one line: fixed ones, those of metrics, and those of
parameters, which are whatever a report says. Each of the three is free of repetitions, the
first two are chosen apart from each other, and nothing is done about the third. So a header
repeats a name exactly where some parameter has the name of another column
(`BenchReport.Table.columns_are_told_by_name_iff`), and a report can name its parameters so
(`BenchReport.Table.parameter_hides_metric`).

Where no name is repeated, every cell of a row is found under the name of its column.
-/

namespace BenchReport.Table

/-! ### Looking up a cell -/

/-- The cell of a row in the first column with a given name. -/
def cell? (header cells : List String) (column : String) : Option String :=
  (header.zip cells).lookup column

/-- **Where no name is repeated, every cell is found under the name of its column.** -/
theorem cell?_eq_of_nodup {header cells : List String} (h : header.Nodup) :
    ∀ c ∈ header.zip cells, cell? header cells c.1 = some c.2 := by
  induction header generalizing cells with
  | nil => simp
  | cons column header ih =>
    obtain ⟨hnew, hrest⟩ := List.nodup_cons.mp h
    rcases cells with _ | ⟨cell, cells⟩
    · simp
    intro c hc
    rw [cell?, List.zip_cons_cons, List.lookup_cons]
    rcases List.mem_cons.mp hc with rfl | hc
    · simp
    · have hne : c.1 ≠ column := fun heq => hnew (heq ▸ (List.of_mem_zip hc).1)
      rw [beq_false_of_ne hne]
      exact ih hrest c hc

/-! ### Names of columns -/

/-- Names behind the first one and before others are distinct if they are none of those. -/
theorem nodup_around_iff {first : String} {names others : List String} (hnames : names.Nodup)
    (hothers : (first :: others).Nodup) :
    ([first] ++ names ++ others).Nodup ↔ ∀ name ∈ names, name ∉ first :: others := by
  obtain ⟨hfirst, hrest⟩ := List.nodup_cons.mp hothers
  simp only [List.nodup_append, List.singleton_append, List.nodup_cons, List.mem_cons, not_or]
  constructor
  · rintro ⟨⟨hnew, -⟩, -, hapart⟩ name hname
    exact ⟨fun heq => hnew (heq ▸ hname), fun hmem => hapart name (.inr hname) name hmem rfl⟩
  · intro h
    refine ⟨⟨fun hmem => (h first hmem).1 rfl, hnames⟩, hrest, ?_⟩
    rintro a (rfl | ha) b hb rfl
    · exact hfirst hb
    · exact (h a ha).2 hb

/-- The columns of parameters are distinct. -/
theorem nodup_parameterNames (keys : List GroupKey) : (parameterNames keys).Nodup :=
  (pairwise_parameterNames keys).imp ne_of_lt

/-- The columns of a table of groups that are no parameters. -/
def groupColumns (groups : List Group) : List String :=
  "benchmark" :: ((metricColumns groups).map Metric.name ++ ["sample_count"])

/-- The columns of a table of rates that are no parameters. -/
def rateColumns : List String :=
  ["benchmark", "stream_rate_tuples_per_sec", "processing_rate_tuples_per_sec"]

/-- The columns of a table of groups are distinct but for parameters. -/
theorem nodup_groupColumns (groups : List Group) : (groupColumns groups).Nodup := by
  have hall : ("benchmark" :: (Metric.all.map Metric.name ++ ["sample_count"])).Nodup := by
    decide
  exact hall.sublist ((((sublist_metricColumns groups).map _).append_right _).cons_cons _)

/-- **Names are told apart unless a parameter has the name of another column.** The header of a
table repeats a name exactly if one of its parameters is named as a column that is no
parameter. If none is, every cell of the table is found under the name of its column. -/
theorem columns_are_told_by_name_iff (groups : List Group) (rates : List DerivedRates) :
    ((ofGroups groups).header.Nodup ↔
        ∀ g ∈ groups, ∀ p ∈ g.key.parameters, p.key ∉ groupColumns groups) ∧
      ((ofRates rates).header.Nodup ↔
        ∀ d ∈ rates, ∀ p ∈ d.key.parameters, p.key ∉ rateColumns) ∧
      ∀ t : Table, t.header.Nodup → ∀ row ∈ t.rows, ∀ c ∈ t.header.zip row.cells,
        cell? t.header row.cells c.1 = some c.2 := by
  refine ⟨?_, ?_, fun t h row _ => cell?_eq_of_nodup h⟩
  · have hheader : (ofGroups groups).header = ["benchmark"] ++
        parameterNames (groups.map Group.key) ++
          ((metricColumns groups).map Metric.name ++ ["sample_count"]) := by
      simp [ofGroups]
    rw [hheader, nodup_around_iff (nodup_parameterNames _) (nodup_groupColumns groups)]
    simp only [mem_parameterNames, List.mem_map]
    constructor
    · exact fun h g hg p hp => h p.key ⟨g.key, ⟨g, hg, rfl⟩, p, hp, rfl⟩
    · rintro h _ ⟨_, ⟨g, hg, rfl⟩, p, hp, rfl⟩
      exact h g hg p hp
  · have hheader : (ofRates rates).header = ["benchmark"] ++
        parameterNames (rates.map DerivedRates.key) ++
          ["stream_rate_tuples_per_sec", "processing_rate_tuples_per_sec"] := rfl
    rw [hheader, nodup_around_iff (nodup_parameterNames _) (by decide)]
    simp only [mem_parameterNames, List.mem_map]
    constructor
    · exact fun h d hd p hp => h p.key ⟨d.key, ⟨d, hd, rfl⟩, p, hp, rfl⟩
    · rintro h _ ⟨_, ⟨d, hd, rfl⟩, p, hp, rfl⟩
      exact h d hd p hp

/-- **A parameter can hide a metric.** A report may name a parameter after a column that is no
parameter; then two columns have one name, and what is found under it is the parameter. -/
theorem parameter_hides_metric :
    ∃ report, SingleLine.ofStream ⟨.default, none⟩
        (.ofBytes (Text.encode "X/benchmark:_7,latency_ms:_9-4 1.5m\n")) = .ok report ∧
      let t := ofGroups (Group.aggregate report.measurements)
      t.header = ["benchmark", "benchmark", "latency_ms", "latency_ms", "sample_count"] ∧
        ¬t.header.Nodup ∧
        t.rows.map (fun row => cell? t.header row.cells "latency_ms") = [some "9"] := by
  refine ⟨_, rfl, ?_⟩
  generalize hreport : SingleLine.ofLines _ _ = report
  have hread : report.measurements.map (fun m => (m.name, m.parameters, m.shape.name)) =
      [("X", [⟨"benchmark", 7⟩, ⟨"latency_ms", 9⟩], "simple_timing")] := by
    rw [← hreport]
    decide +kernel
  obtain ⟨m, hm, heq⟩ := List.map_eq_singleton_iff.mp hread
  obtain ⟨name, parameters, shape, hnodup⟩ := m
  simp only [Prod.mk.injEq] at heq
  obtain ⟨rfl, rfl, hshape⟩ := heq
  have hsorted : [(⟨"benchmark", 7⟩ : Parameter), ⟨"latency_ms", 9⟩].mergeSort Parameter.le =
      [⟨"benchmark", 7⟩, ⟨"latency_ms", 9⟩] :=
    List.mergeSort_of_pairwise (by decide +kernel)
  -- the one group of the report
  have hgroups : Group.aggregate report.measurements =
      [(Group.Accumulator.empty.add shape.metrics).finish
        ⟨"X", [⟨"benchmark", 7⟩, ⟨"latency_ms", 9⟩], by decide +kernel⟩] := by
    rw [hm]
    exact congrArg (fun key => [(Group.Accumulator.empty.add shape.metrics).finish key])
      (GroupKey.ext_parts rfl hsorted)
  rw [hgroups]
  cases shape with
  | simple x =>
    have hrepeated :
        ¬["benchmark", "benchmark", "latency_ms", "latency_ms", "sample_count"].Nodup := by decide
    exact ⟨rfl, hrepeated, rfl⟩
  | detailed => simp [Shape.name] at hshape
  | sample => simp [Shape.name] at hshape

end BenchReport.Table
