import BenchReport.Group.Key

/-!
# Searching a sorted key

The parameters of a key are sorted, so a parameter can be looked for by **halving**: of
the elements that are left, the one in the middle says which half holds the last
element that is not behind the wanted place. That element is the only one that has to be
compared for equality in the end.
-/

namespace BenchReport

variable {α : Type}

/-- The place of the last element that is not behind the wanted place, among the `size`
elements from `base` on; where all of them are behind it, `base`. An element is before, at
or behind the wanted place by its `order`. -/
def lastNotBehind (order : α → Ordering) (xs : List α) (base size : Nat) : Nat :=
  if size ≤ 1 then base
  else
    let middle := base + size / 2
    let base := if xs[middle]?.map order = some .gt then base else middle
    lastNotBehind order xs base (size - size / 2)
termination_by size
decreasing_by omega

/-- The element at the wanted place of a sorted list, found by halving. -/
def binarySearch? (order : α → Ordering) (xs : List α) : Option α :=
  xs[lastNotBehind order xs 0 xs.length]?.filter fun x => order x = .eq

/-- The value of a parameter, found by halving. -/
def GroupKey.search? (key : GroupKey) (parameter : String) : Option Int64 :=
  (binarySearch? (fun p => compare p.key parameter) key.parameters).map Parameter.value

end BenchReport
