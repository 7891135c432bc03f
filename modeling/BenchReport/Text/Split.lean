/-!
# Cutting a text at a separator

Three ways to cut a list. `BenchReport.Text.splitOn` cuts at *every* separator and
always gives at least one piece; `BenchReport.Text.cutAt?` cuts at the *first*
element that a test picks out; `BenchReport.Text.cutAtSeq?` cuts at the first
occurrence of a sequence. The last two answer `none` where there is nothing to cut
at, so that a missing separator and an empty piece stay apart.
-/

namespace BenchReport.Text

variable {α : Type}

/-- The pieces between the separators, in order: one more than there are separators. -/
def splitOn [BEq α] (sep : α) (s : List α) : List (List α) :=
  let pieces := s.foldr
    (fun a acc => if a == sep then ([], acc.1 :: acc.2) else (a :: acc.1, acc.2)) ([], [])
  pieces.1 :: pieces.2

/-- What stands before and after the first element that passes the test. -/
def cutAt? (p : α → Bool) (s : List α) : Option (List α × List α) :=
  match s.dropWhile (fun a => !p a) with
  | [] => none
  | _ :: rest => some (s.takeWhile (fun a => !p a), rest)

/-- What stands before and after the first occurrence of the sequence `sep`;
`before` holds the elements passed so far, last first. -/
def cutAtSeqFrom [BEq α] (sep : List α) (before : List α) : List α → Option (List α × List α)
  | [] => if sep.isEmpty then some (before.reverse, []) else none
  | a :: s =>
    if sep.isPrefixOf (a :: s) then some (before.reverse, (a :: s).drop sep.length)
    else cutAtSeqFrom sep (a :: before) s

/-- What stands before and after the first occurrence of the sequence `sep`. -/
def cutAtSeq? [BEq α] (sep s : List α) : Option (List α × List α) := cutAtSeqFrom sep [] s

/-- The list less a given beginning, if it has that beginning. -/
def dropStart? [BEq α] (start s : List α) : Option (List α) :=
  if start.isPrefixOf s then some (s.drop start.length) else none

end BenchReport.Text
