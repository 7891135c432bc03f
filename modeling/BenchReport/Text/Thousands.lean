/-!
# Grouping digits by thousands

A long number is easier to read in groups of three digits. Groups are counted from
the right, so the first may be shorter; a comma stands between two groups. The rule
looks at places only, not at what stands there.
-/

namespace BenchReport.Text

/-- Puts a comma before each character that has a multiple of three characters from
it to the end, the very first one excepted. -/
def groupThousands : List Char → List Char
  | [] => []
  | c :: s =>
    if s.length % 3 = 0 && !s.isEmpty then c :: ',' :: groupThousands s
    else c :: groupThousands s

/-- The decimal text of a number in groups of three digits. -/
def showGrouped (n : Nat) : String := String.ofList (groupThousands (Nat.repr n).toList)

/-- The comma is the only thing that grouping adds. -/
theorem filter_groupThousands {s : List Char} (h : ∀ c ∈ s, c ≠ ',') :
    (groupThousands s).filter (· ≠ ',') = s := by
  induction s with
  | nil => rfl
  | cons c s ih =>
    have hc : c ≠ ',' := h c (by simp)
    have hs := ih fun d hd => h d (by simp [hd])
    unfold groupThousands
    split <;> simp_all

end BenchReport.Text
