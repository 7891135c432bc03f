import BenchReport.Text.Line

/-!
# A view of the files

What an operation can see of the files is a **view**: what it finds at a path, and
what would stop it from creating a file there. A view is a pair of functions and no
more, so a statement about an operation that holds for every view holds whatever is
on the disk.

A file is not its bytes. It states a size before it is opened, and once it is opened it
is a stream, which may fail behind any of its bytes. So all that can go wrong with a file
is in a view: a path that leads nowhere, a size that is not that of what follows, and a
disk that fails while it is read.
-/

namespace BenchReport

/-- Why a path cannot be used. -/
inductive AccessFault where
  /-- Nothing has this path. -/
  | notFound
  /-- A part of the path that has to be a folder is a file. -/
  | notFolder
  /-- The path is that of a folder. -/
  | isFolder
  /-- Another reason, in the words of the system. -/
  | other (text : String)
  deriving DecidableEq, Repr

/-- The wording of a fault. -/
def AccessFault.message : AccessFault → String
  | notFound => "No such file or directory (os error 2)"
  | notFolder => "Not a directory (os error 20)"
  | isFolder => "Is a directory (os error 21)"
  | other text => text

/-- What is found at a path. -/
inductive FileEntry where
  /-- A file: the size that it states, and what it delivers when it is read. One that cannot
  be opened delivers no bytes and fails. -/
  | file (size : Nat) (content : Text.Stream)
  /-- A folder. -/
  | folder

/-- A file that can be read to its end. -/
def FileEntry.ofBytes (bytes : List UInt8) : FileEntry := .file bytes.length (.ofBytes bytes)

/-- The size that a folder states for itself: one block. -/
def folderSize : Nat := 4096

/-- The size that an entry states for itself. -/
def FileEntry.size : FileEntry → Nat
  | file size _ => size
  | folder => folderSize

/-- What an operation can see of the files. -/
structure FileView where
  /-- What is found at a path. -/
  look : String → Except AccessFault FileEntry
  /-- What stops a file from being created or overwritten at a path. -/
  createFault? : String → Option AccessFault

end BenchReport
