import BenchReport.Command.Fault
import BenchReport.Event
import BenchReport.Text.Line

/-!
# What a command does

A command reads files and leaves an **outcome**: what it prints, what it reports beside
that, which files it writes, and why it failed, if it did. Nothing of it happens while
the outcome is made. So a command is a function, and to say that nothing was printed is
to say something about its value.

What a command finds is its **setting**: the files that it can see and the bounds it is
held to. Three things that are not made here are part of it too – the reader of documents,
the power function of the machine, and a seed for a workload that was not given one.
-/

namespace BenchReport

/-- What a command finds when it begins. -/
structure Setting where
  /-- The files. -/
  files : FileView
  /-- The greatest size of a file that is read, in bytes. -/
  maxFileSize : Nat
  /-- The document that a text is, if it is one. -/
  readYaml : String → Option Yaml
  /-- The power function of doubles. -/
  power : Float → Float → Float
  /-- A seed for a workload without one of its own. -/
  seed : UInt64

namespace Setting

/-- The size up to which files are read: the one that a text states, if it states one,
and otherwise a gibibyte. -/
def sizeOfText (text : Option String) : Nat :=
  match text.map fun text => Text.readUnsigned text.toList with
  | some (.ok size) => size.toNat
  | _ => Limits.default.maxFileSize

/-- How reports are read. -/
def options (s : Setting) : ReadOptions where
  limits := { Limits.default with maxFileSize := s.maxFileSize }
  nameStart := some ResultLine.defaultNameStart

/-- What is found at a path, unless it is too large. -/
def entry (s : Setting) (path : String) : Except CommandFault FileEntry :=
  match s.files.look path with
  | .error fault => .error (.file path fault.message)
  | .ok entry =>
    if s.maxFileSize < entry.size then .error (.tooLarge path entry.size s.maxFileSize)
    else .ok entry

/-- The stream of what is found at a path. A folder can be opened, but not read. -/
def stream (s : Setting) (path : String) : Except CommandFault Text.Stream :=
  (s.entry path).map fun
    | .file _ content => content
    | .folder => ⟨[], some ⟨AccessFault.isFolder.message⟩⟩

/-- The text of what is found at a path, which has to be read to its end. -/
def text (s : Setting) (path : String) : Except CommandFault String :=
  match s.stream path with
  | .error fault => .error fault
  | .ok ⟨_, some fault⟩ => .error (.file path fault.text)
  | .ok ⟨bytes, none⟩ =>
    match Text.decodeStrict? bytes with
    | some chars => .ok (String.ofList chars)
    | none => .error (.file path "stream did not contain valid UTF-8")

end Setting

/-- What a command does. -/
structure Outcome where
  /-- What it prints. -/
  printed : String
  /-- What it reports beside that. -/
  reported : String
  /-- The files that it writes, with their texts. -/
  writes : List (String × String)
  /-- Why it failed, if it did. -/
  failure : Option CommandFault
  /-- What is told on the way. -/
  events : List Event

namespace Outcome

/-- A failure before anything was done. -/
def failed (fault : CommandFault) (events : List Event) : Outcome :=
  ⟨"", "", [], some fault, events⟩

/-- The success of a command that prints. -/
def ofPrinted (printed reported : String) (events : List Event) : Outcome :=
  ⟨printed, reported, [], none, events⟩

/-- Whether a command has done what it was asked to. -/
def succeeded (o : Outcome) : Bool := o.failure.isNone

end Outcome

end BenchReport
