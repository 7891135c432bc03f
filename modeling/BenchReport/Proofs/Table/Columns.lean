import Mathlib
import BenchReport.Proofs.Group.Search
import BenchReport.Proofs.Keyed
import BenchReport.Proofs.Text.Integer
import BenchReport.Table

/-!
# The columns of a table

The columns between the first and the last ones come from the rows: the parameters that some
row has, in the order of their names, and the metrics that some row has, in the order of all
metrics. A cell is empty exactly where its row has nothing to write, because no number has an
empty text (`BenchReport.Text.showSigned_ne_empty`, `BenchReport.Decimal.plain_ne_empty`).
-/

namespace BenchReport

/-! ### Texts of numbers -/

theorem Text.showSigned_ne_empty (n : Int64) : Text.showSigned n ≠ "" := by
  intro h
  have hread := Text.readSigned_showSigned n
  rw [h] at hread
  cases hread

namespace Decimal

theorem withPoint_ne_nil (digits : List Char) (places : Nat) : withPoint digits places ≠ [] := by
  simp only [withPoint]
  split
  · rename_i hplaces
    subst hplaces
    intro hnil
    have hlength := congrArg List.length hnil
    simp only [List.length_take, List.length_append, List.length_replicate, List.length_nil]
      at hlength
    omega
  · exact List.append_ne_nil_of_right_ne_nil _ (List.cons_ne_nil _ _)

theorem positional_ne_nil (d : Digits) : d.positional ≠ [] := by
  rw [Digits.positional]
  split
  · exact List.append_ne_nil_of_left_ne_nil Nat.toDigits_ne_nil _
  · exact withPoint_ne_nil _ _

/-- **A double is never written as nothing.** -/
theorem plain_ne_empty (x : Float) : plain x ≠ "" := by
  have hchars : plainChars x ≠ [] := by
    rw [plainChars]
    split
    · simp
    · exact List.append_ne_nil_of_right_ne_nil _ (by simp)
    · exact List.append_ne_nil_of_right_ne_nil _ (positional_ne_nil _)
  rw [plain, Ne, ← String.toList_inj, String.toList_ofList]
  exact hchars

end Decimal

namespace Table

@[simp] theorem optionalCell_none {α : Type} (text : α → String) : optionalCell text none = "" :=
  rfl

@[simp] theorem optionalCell_some {α : Type} (text : α → String) (a : α) :
    optionalCell text (some a) = text a := rfl

/-- **A cell is empty exactly where there is nothing to write.** -/
theorem optionalCell_ne_empty_iff {α : Type} {text : α → String} (h : ∀ a, text a ≠ "")
    (value : Option α) : optionalCell text value ≠ "" ↔ value.isSome = true := by
  cases value with
  | none => simp
  | some a => simpa using h a

/-! ### Parameters -/

/-- **The columns of parameters are those that some row has.** -/
theorem mem_parameterNames {keys : List GroupKey} {name : String} :
    name ∈ parameterNames keys ↔ ∃ key ∈ keys, name ∈ key.parameters.map Parameter.key := by
  rw [parameterNames, Keyed.mem_keys_groupBy]
  simp only [id, exists_eq_right, List.mem_flatMap]

/-- **The columns of parameters ascend**, so none comes twice. -/
theorem pairwise_parameterNames (keys : List GroupKey) :
    (parameterNames keys).Pairwise (· < ·) := by
  rw [parameterNames, List.pairwise_map]
  exact (Keyed.sorted_groupBy id _).imp fun h => compare_lt_iff_lt.mp h

/-! ### Metrics -/

theorem mem_metricColumns {groups : List Group} {m : Metric} :
    m ∈ metricColumns groups ↔ ∃ g ∈ groups, (g.means.get? m).isSome = true := by
  rw [metricColumns, List.mem_filter, List.any_eq_true]
  exact and_iff_right (Metric.mem_all m)

/-- The columns of metrics keep the order of all metrics. -/
theorem sublist_metricColumns (groups : List Group) : (metricColumns groups).Sublist Metric.all :=
  List.filter_sublist

end Table

end BenchReport
