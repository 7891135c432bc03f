import BenchReport.Group.Basic

/-!
# Frequencies

How often does each item of a stream occur? A **frequency table** lists every item that
occurs with its number of occurrences, the most frequent first. Items that occur equally
often stand in ascending order, so there is one table only for a stream, and it depends
on nothing but how often each item occurs.

From it follow the shares: of the most frequent items, and of each item together with all
those before it, in percent of the stream.
-/

namespace BenchReport

/-- The items of a stream with their numbers of occurrences. -/
structure FrequencyTable where
  /-- Each item with its number of occurrences, the most frequent first. -/
  counts : List (UInt64 × Nat)
  /-- The length of the stream. -/
  total : Nat
  deriving DecidableEq, Repr

namespace FrequencyTable

/-- Puts an item before the runs of equal items that follow it in an ascending list. -/
def extendRuns (item : UInt64) : List (UInt64 × Nat) → List (UInt64 × Nat)
  | (first, n) :: rest =>
    if item = first then (first, n + 1) :: rest else (item, 1) :: (first, n) :: rest
  | [] => [(item, 1)]

/-- The runs of equal items in a list, each with its length. -/
def runs (items : List UInt64) : List (UInt64 × Nat) := items.foldr extendRuns []

/-- Whether an entry comes no later than another: it is more frequent, or as frequent
and no greater. -/
def entryLe (a b : UInt64 × Nat) : Bool := b.2 < a.2 || (a.2 = b.2 && a.1 ≤ b.1)

/-- The frequency table of a stream. -/
def ofItems (items : List UInt64) : FrequencyTable where
  counts := (runs (items.mergeSort fun a b => a ≤ b)).mergeSort entryLe
  total := items.length

/-- How many different items there are. -/
def distinct (t : FrequencyTable) : Nat := t.counts.length

/-- The most frequent items, at most `k` of them. -/
def top (t : FrequencyTable) (k : Nat) : List (UInt64 × Nat) := t.counts.take k

/-- A number of occurrences in percent of a total. -/
def percentage (count total : Nat) : Float :=
  Group.sizeFloat count / Group.sizeFloat total * 100

/-- The share of the `k` most frequent items, in percent; of an empty stream it is zero. -/
def shareOfTop (t : FrequencyTable) (k : Nat) : Float :=
  if t.total = 0 then 0 else percentage ((t.top k).foldl (fun n entry => n + entry.2) 0) t.total

/-- The ranks, from one, each with the number of occurrences of the item that has it. -/
def rankFrequency (t : FrequencyTable) : List (Nat × Nat) :=
  (t.counts.zipIdx 1).map fun entry => (entry.2, entry.1.2)

/-- The numbers of a list, each added to all those before it. -/
def runningTotals (counts : List Nat) : List Nat :=
  (counts.foldl (fun acc n => (acc.head?.getD 0 + n) :: acc) []).reverse

/-- The share of each item together with all those before it, in percent. -/
def cumulativePercentages (t : FrequencyTable) : List Float :=
  (runningTotals (t.counts.map Prod.snd)).map fun running => percentage running t.total

end FrequencyTable

end BenchReport
