import Mathlib
import BenchReport.Report.Basic

/-!
# Tallies add up

Tallies are added part by part, so they are a commutative monoid, and
`BenchReport.Tally.sum` is its sum: the order in which lines are counted, and where a
source is cut into parts that are counted apart, makes no difference.
-/

namespace BenchReport.Tally

theorem add_def (a b : Tally) :
    a + b = ⟨a.lines + b.lines, a.records + b.records, a.metadata + b.metadata,
      a.noMatch + b.noMatch, a.malformed + b.malformed, a.unknownShape + b.unknownShape⟩ :=
  rfl

instance : Zero Tally := ⟨zero⟩

theorem zero_def : (0 : Tally) = ⟨0, 0, 0, 0, 0, 0⟩ := rfl

instance : AddCommMonoid Tally where
  add_assoc a b c := by simp only [add_def, Nat.add_assoc]
  zero_add a := by simp only [add_def, zero_def, Nat.zero_add]
  add_zero a := by simp only [add_def, zero_def, Nat.add_zero]
  add_comm a b := by simp only [add_def, Nat.add_comm]
  nsmul := nsmulRec

/-- **Lines are counted in any order.** -/
theorem sum_eq (tallies : List Tally) : sum tallies = tallies.sum :=
  (List.sum_eq_foldl ..).symm

/-- **A count that is added part by part** is taken of each tally by itself. -/
theorem count_sum {count : Tally → Nat} (hzero : count 0 = 0)
    (hadd : ∀ a b, count (a + b) = count a + count b) (tallies : List Tally) :
    count tallies.sum = (tallies.map count).sum :=
  map_list_sum (⟨⟨count, hzero⟩, hadd⟩ : Tally →+ ℕ) tallies

theorem lines_sum (tallies : List Tally) :
    tallies.sum.lines = (tallies.map Tally.lines).sum :=
  count_sum rfl (fun _ _ => rfl) tallies

theorem records_sum (tallies : List Tally) :
    tallies.sum.records = (tallies.map Tally.records).sum :=
  count_sum rfl (fun _ _ => rfl) tallies

theorem metadata_sum (tallies : List Tally) :
    tallies.sum.metadata = (tallies.map Tally.metadata).sum :=
  count_sum rfl (fun _ _ => rfl) tallies

theorem malformed_sum (tallies : List Tally) :
    tallies.sum.malformed = (tallies.map Tally.malformed).sum :=
  count_sum rfl (fun _ _ => rfl) tallies

theorem nsmul_def (n : Nat) (t : Tally) :
    n • t = ⟨n * t.lines, n * t.records, n * t.metadata, n * t.noMatch, n * t.malformed,
      n * t.unknownShape⟩ := by
  induction n with
  | zero => simp [zero_def]
  | succ n ih => rw [succ_nsmul, ih, add_def]; simp only [Nat.succ_mul]

/-! ### Single lines -/

/-- The tally of a line that has no form known here. -/
def unmatchedLine : Tally := { zero with lines := 1, noMatch := 1 }

/-- The tally of a damaged line. -/
def damagedLine : Tally := { zero with lines := 1, malformed := 1 }

end BenchReport.Tally
