import BenchReport.Text.Split

/-!
# Paths

A path is a text whose parts are separated by slashes. It is kept as it was written,
since messages repeat it; what is asked of it is only its stem, the folder that holds
it, and the path of something in that folder.

A part that is empty or a single dot says nothing and is passed over, except for a
dot at the very beginning. Two dots name the folder above and are no name.
-/

namespace BenchReport.Path

/-- Whether a path begins at the root. -/
def isAbsolute (path : String) : Bool := path.toList.head? = some '/'

/-- The parts of a path that say something. -/
def parts (path : String) : List String :=
  ((Text.splitOn '/' path.toList).map String.ofList).filter fun part => part ≠ "" && part ≠ "."

/-- The name of what a path leads to, unless it leads up or nowhere. -/
def fileName? (path : String) : Option String :=
  (parts path).getLast?.filter (· ≠ "..")

/-- A name without its last extension. A dot at the beginning starts no extension. -/
def dropExtension (name : List Char) : List Char :=
  match name.reverse.dropWhile (· ≠ '.') with
  | '.' :: stem => if stem.isEmpty then name else stem.reverse
  | _ => name

/-- The name of what a path leads to, without its last extension. -/
def stem? (path : String) : Option String :=
  (fileName? path).map fun name => String.ofList (dropExtension name.toList)

/-- Takes slashes, and dots that say nothing, off the end of a path given backwards. -/
def trimBackward : List Char → List Char
  | '/' :: rest => if rest.isEmpty then ['/'] else trimBackward rest
  | '.' :: '/' :: rest => trimBackward ('/' :: rest)
  | rest => rest

/-- The path of the folder that holds what a path leads to: the path without its last
part. A path of one part is held by the folder of the empty path. -/
def parent? (path : String) : Option String :=
  let backward := trimBackward path.toList.reverse
  if backward.isEmpty || backward = ['/'] then none
  else some (String.ofList (trimBackward (backward.dropWhile (· ≠ '/'))).reverse)

/-- The path of `path` seen from the folder `base`. An absolute path stays as it is,
and the empty base adds nothing. -/
def join (base path : String) : String :=
  if isAbsolute path || base = "" then path
  else if base.toList.getLast? = some '/' then base ++ path
  else base ++ "/" ++ path

end BenchReport.Path
