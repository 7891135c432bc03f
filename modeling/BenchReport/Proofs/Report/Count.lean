import Mathlib
import BenchReport.Proofs.Report.Tally
import BenchReport.Proofs.Source

/-!
# Measurements are counted

The tally of a report is filled beside its list of measurements, and nothing but the
readings that both are made from keeps the two in step. A reading counts the
measurements that it gives, so a report does, in either form
(`BenchReport.Source.records_of_load`).
-/

namespace BenchReport

namespace SingleLine

theorem Reading.tally_records (r : Reading) : r.tally.records = r.measurement?.toList.length := by
  cases r with
  | faulty fault => cases fault <;> rfl
  | _ => rfl

theorem records_ofLines (options : ReadOptions) (lines : List Text.Line) :
    (ofLines options lines).tally.records = (ofLines options lines).measurements.length := by
  rw [ofLines, ofReadings, Tally.sum_eq, Tally.records_sum, List.map_map,
    List.filterMap_eq_flatMap_toList, List.length_flatMap]
  exact congrArg List.sum (List.map_congr_left fun r _ => r.tally_records)

end SingleLine

namespace Paired

theorem Reading.tally_records (name : String) (r : Reading) :
    r.tally.records = (r.measurements name).length := by
  cases r with
  | block b => exact (List.length_map _).symm
  | _ => rfl

theorem records_ofLines (options : ReadOptions) (name : String) (lines : List Text.Line) :
    (ofLines options name lines).tally.records =
      (ofLines options name lines).measurements.length := by
  rw [ofLines, Tally.sum_eq, Tally.records_sum, List.map_map, List.length_flatMap]
  exact congrArg List.sum (List.map_congr_left fun r _ => r.tally_records name)

end Paired

namespace Source

/-- **A source counts as many measurements as it gives**, whatever its form. -/
theorem records_of_load {view : FileView} {options : ReadOptions} {s : Source} {report : Report}
    (h : s.load view options = .ok report) : report.tally.records = report.measurements.length := by
  obtain ⟨bytes, -, rfl⟩ := load_eq_ok_iff.mp h
  dsimp only [reportOf]
  cases s.format with
  | singleLine => exact SingleLine.records_ofLines options _
  | pairedLine => exact Paired.records_ofLines options s.pairedName _

end Source

end BenchReport
