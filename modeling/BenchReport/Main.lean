import BenchReport.Command.Invocation
import BenchReport.Yaml.Reader

/-!
# The program

The program reads its arguments, looks at the files that they name, lets the invocation
say what it does there (`BenchReport.Invocation.perform`), and does it: it writes, prints
and reports. It succeeds or fails as the outcome says.

All that is decided is decided by the invocation. The program itself only knows the
system: how a file is read and written, and in which words the system refuses. It also
brings along a reader of documents, for manifests.
-/

namespace BenchReport

/-- What is printed when help is asked for. -/
def usage : String :=
  linesText
    ["usage: benchreport COMMAND", "",
      "  parse FILE [--paired [--name NAME]] [--json]",
      "  aggregate FILE... [-f csv|text] [-o FILE]",
      "  rates FILE... -w SIZE [--factor X] [--scale-by PARAM] [--inter-arrival-param PARAM]",
      "        [--micros] [-o FILE] [--latex [--caption TEXT]]",
      "  latency FILE [--name NAME]",
      "  run -m FILE [--workload-size SIZE] [-f csv|text|latex] [-o FILE]",
      "  zipf generate -o FILE [-s SIZE] [-d DISTINCT] [-z SKEW] [--seed SEED] [--analyze]",
      "  zipf analyze CSV [--top N] [--column NAME]",
      "  count CSV COLUMN VALUE"]

/-- The name and version of the program. -/
def versionText : String := "benchreport 1.0.0\n"

/-- The variable of the environment that bounds the size of files. -/
def sizeVariable : String := "BENCHREPORT_MAX_FILE_SIZE"

/-- The number by which the system says that something is a folder. -/
def folderCode : UInt32 := 21

/-- The fault that an error of the system means. -/
def accessFault : IO.Error → AccessFault
  | .noFileOrDirectory _ _ _ => .notFound
  | .inappropriateType _ code _ => if code = folderCode then .isFolder else .notFolder
  | .permissionDenied _ _ _ => .other "Permission denied (os error 13)"
  | e => .other e.toString

/-- What the system has at a path. -/
def lookAt (path : String) : IO (Except AccessFault FileEntry) := do
  try
    let bytes ← IO.FS.readBinFile path
    return .ok (.ofBytes bytes.toList)
  catch e =>
    match accessFault e with
    | .isFolder => return .ok .folder
    | fault => return .error fault

/-- A view of the given files, of which each can be written. -/
def viewOf (paths : List String) : IO FileView := do
  let found ← paths.mapM fun path => do return (path, ← lookAt path)
  return ⟨fun path => (found.lookup path).getD (.error .notFound), fun _ => none⟩

/-- A number that nobody has chosen. -/
def drawSeed : IO UInt64 := do
  let bytes ← IO.getRandomBytes 8
  return bytes.toList.foldl (fun n b => n * 256 + b.toUInt64) 0

/-- The setting in which an invocation is performed, with the files that it names and
then those that its manifest names. -/
def settingFor (invocation : Invocation) : IO Setting := do
  let size ← IO.getEnv sizeVariable
  let seed ← drawSeed
  let named := invocation.namedFiles
  let first : Setting :=
    { files := ← viewOf named
      maxFileSize := Setting.sizeOfText size
      readYaml := Yaml.read?
      power := Float.pow
      seed }
  match invocation.manifestFiles first with
  | [] => return first
  | further => return { first with files := ← viewOf (named ++ further) }

/-- Writes files, up to the first that the system refuses. -/
def writeAll : List (String × String) → IO (Option (String × AccessFault))
  | [] => return none
  | (path, text) :: rest => do
    try
      IO.FS.writeFile path text
      writeAll rest
    catch e => return some (path, accessFault e)

/-- What an invocation does when the system refuses to write a file. -/
def performRefused (s : Setting) (path : String) (fault : AccessFault)
    (invocation : Invocation) : Outcome :=
  let refuse (other : String) := if other = path then some fault else none
  invocation.perform { s with files := { s.files with createFault? := refuse } }

/-- Does what an invocation asks for. -/
def execute (invocation : Invocation) : IO UInt32 := do
  let s ← settingFor invocation
  let planned := invocation.perform s
  -- only the system can tell whether a file can be written
  let outcome ← match ← writeAll planned.writes with
    | none => pure planned
    | some (path, fault) => pure (performRefused s path fault invocation)
  IO.print outcome.printed
  IO.eprint outcome.reported
  match outcome.failure with
  | none => return 0
  | some fault =>
    IO.eprintln ("Error: " ++ fault.message)
    return 1

end BenchReport

/-- The program. -/
def main (arguments : List String) : IO UInt32 := do
  match BenchReport.Invocation.ofArguments arguments with
  | .ok invocation => BenchReport.execute invocation
  | .error .help =>
    IO.print BenchReport.usage
    return 0
  | .error .version =>
    IO.print BenchReport.versionText
    return 0
  | .error fault =>
    IO.eprintln ("error: " ++ fault.message)
    IO.eprint BenchReport.usage
    return 2
