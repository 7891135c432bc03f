import BenchReport.Files.Path
import BenchReport.Files.View

/-!
# Files in memory

A **file tree** lists files and folders by the names on the way to them. A folder is
there if it is listed or if something is listed inside it.

A path is followed name by name, and every name but the last has to lead to a folder.
So a path can fail in two ways, and the first place where it does decides: nothing
there, or a file where a folder is needed. A slash at the end asks for a folder too.

The tree stands in a folder of which no more is known than that there are folders above
it. An absolute path leads to nothing.
-/

namespace BenchReport

/-- Files and folders by the names on the way to them. -/
structure FileTree where
  /-- The files with their bytes. -/
  files : List (List String × List UInt8)
  /-- The listed folders. -/
  folders : List (List String)

namespace FileTree

/-- The tree with files and folders given by paths. -/
def ofPaths (files : List (String × List UInt8)) (folders : List String) : FileTree where
  files := files.map fun entry => (Path.parts entry.1, entry.2)
  folders := folders.map Path.parts

/-- Whether a place is the tree itself or a folder above it. -/
def isAbove (place : List String) : Bool := place.all (· = "..")

/-- What has the given names. -/
def find? (tree : FileTree) (names : List String) : Option FileEntry :=
  match tree.files.find? fun entry => entry.1 = names with
  | some entry => some (.ofBytes entry.2)
  | none =>
    let inside (other : List String) : Bool := names.isPrefixOf other
    if isAbove names || tree.folders.any inside || tree.files.any fun entry => inside entry.1 then
      some .folder
    else none

/-- The place to which a part of a path leads from a folder. -/
def next (place : List String) (part : String) : List String :=
  if part = ".." && !isAbove place then place.dropLast else place ++ [part]

/-- Takes one part of a path, from a place that has to be a folder. -/
def step (tree : FileTree) (place : List String) (part : String) :
    Except AccessFault (List String) :=
  match tree.find? place with
  | none => .error .notFound
  | some (.file _ _) => .error .notFolder
  | some .folder => .ok (next place part)

/-- Takes the parts of a path one after the other. -/
def walk (tree : FileTree) : List String → List String → Except AccessFault (List String)
  | place, [] => .ok place
  | place, part :: rest =>
    match tree.step place part with
    | .error fault => .error fault
    | .ok next => walk tree next rest

/-- Whether a path asks for a folder: it ends in a slash, or in a dot. -/
def wantsFolder (path : String) : Bool :=
  match path.toList.reverse with
  | '/' :: _ => true
  | ['.'] => true
  | '.' :: '/' :: _ => true
  | _ => false

/-- What is found at a path. -/
def look (tree : FileTree) (path : String) : Except AccessFault FileEntry :=
  if path = "" || Path.isAbsolute path then .error .notFound
  else
    match tree.walk [] (Path.parts path) with
    | .error fault => .error fault
    | .ok place =>
      match tree.find? place with
      | none => .error .notFound
      | some (.file size content) =>
        if wantsFolder path then .error .notFolder else .ok (.file size content)
      | some .folder => .ok .folder

/-- What stops a file from being created at a path. -/
def createFault? (tree : FileTree) (path : String) : Option AccessFault :=
  if path = "" || Path.isAbsolute path then some .notFound
  else
    match tree.walk [] (Path.parts path) with
    | .error fault => some fault
    | .ok place =>
      match tree.find? place with
      | some .folder => some .isFolder
      -- a file that is there is replaced
      | some (.file _ _) => if wantsFolder path then some .notFolder else none
      | none => if wantsFolder path then some .isFolder else none

/-- The view of the files of a tree. -/
def view (tree : FileTree) : FileView := ⟨tree.look, tree.createFault?⟩

end FileTree

end BenchReport
