import BenchReport.Decimal.Reading
import BenchReport.OutputFormat
import BenchReport.Text.Integer
import BenchReport.Text.Split

/-!
# Arguments of a command

A command is called with **options** and with arguments at their **places**. An option
is named by a word behind two dashes or a letter behind one; it is a flag, or it takes a
value. The value is attached, behind an equals sign – or directly behind the letter – or
it is the next argument, which then must not look like an option. Letters may share one
dash, and two dashes alone say that all further arguments have places.

Arguments are read from the left, and the first fault decides – with one refinement. A
value that is an argument of its own is taken in only when the next known option or
place is reached, or the end: until then the option is **pending**, and an argument that
is not known at all comes first (`BenchReport.Scan.settle`).
-/

namespace BenchReport

/-- Why a call is not understood, or what it asks for instead of a command. -/
inductive UsageFault where
  /-- Help is asked for. -/
  | help
  /-- The version is asked for. -/
  | version
  /-- The name of a command is missing. -/
  | missingCommand
  /-- There is no command of this name. -/
  | unknownCommand (name : String)
  /-- There is no such option, or no place for such an argument. -/
  | unknownArgument (argument : String)
  /-- An argument has to be given. -/
  | missingArgument (argument : String)
  /-- An option has to be given a value. -/
  | missingValue (option : String)
  /-- A value is none of the words that an option takes. -/
  | unknownWord (option value : String)
  /-- A value is no number of the kind that an option takes. -/
  | invalidNumber (option value : String)
  /-- A flag is given a value. -/
  | surplusValue (option : String)
  /-- An option is given twice. -/
  | repeatedOption (option : String)
  deriving DecidableEq, Repr

/-- The wording of a fault. -/
def UsageFault.message : UsageFault → String
  | help => "help is asked for"
  | version => "the version is asked for"
  | missingCommand => "a command is required"
  | unknownCommand name => "unrecognized command '" ++ name ++ "'"
  | unknownArgument argument => "unexpected argument '" ++ argument ++ "'"
  | missingArgument argument => "the argument '" ++ argument ++ "' is required"
  | missingValue option => "a value is required for '--" ++ option ++ "'"
  | unknownWord option value => "invalid value '" ++ value ++ "' for '--" ++ option ++ "'"
  | invalidNumber option value => "invalid number '" ++ value ++ "' for '--" ++ option ++ "'"
  | surplusValue option => "'--" ++ option ++ "' takes no value"
  | repeatedOption option => "'--" ++ option ++ "' cannot be used twice"

/-! ### Values -/

/-- What an option takes. -/
inductive ValueKind where
  /-- Any text. -/
  | text
  /-- A decimal. -/
  | decimal
  /-- An unsigned number of 64 bits. -/
  | count
  /-- The name of an output format. -/
  | format
  deriving DecidableEq, Repr

/-- What an option was given. -/
inductive Value where
  /-- Nothing: it is a flag. -/
  | flag
  /-- A text. -/
  | text (s : String)
  /-- A decimal. -/
  | decimal (x : Float)
  /-- An unsigned number of 64 bits. -/
  | count (n : UInt64)
  /-- An output format. -/
  | format (f : OutputFormat)

/-- Reads the value of an option. -/
def ValueKind.read (option : String) (kind : ValueKind) (text : String) :
    Except UsageFault Value :=
  match kind with
  | .text => .ok (.text text)
  | .decimal =>
    match Decimal.read? text.toList with
    | some x => .ok (.decimal x)
    | none => .error (.invalidNumber option text)
  | .count =>
    match Text.readUnsigned text.toList with
    | .ok n => .ok (.count n)
    | .error _ => .error (.invalidNumber option text)
  | .format =>
    match OutputFormat.ofName? text with
    | some f => .ok (.format f)
    | none => .error (.unknownWord option text)

/-! ### Forms -/

/-- An option. -/
structure OptionForm where
  /-- The word that names it. -/
  word : String
  /-- The letter that names it, if one does. -/
  letter : Option Char
  /-- What it takes; a flag takes nothing. -/
  kind : Option ValueKind
  deriving DecidableEq, Repr

namespace OptionForm

/-- A flag. -/
def flag (word : String) : OptionForm := ⟨word, none, none⟩

/-- An option that only a word names. -/
def long (word : String) (kind : ValueKind) : OptionForm := ⟨word, none, some kind⟩

/-- An option that a letter names, too. -/
def short (letter : Char) (word : String) (kind : ValueKind) : OptionForm :=
  ⟨word, some letter, some kind⟩

/-- The flag that asks for help. -/
def help : OptionForm := ⟨"help", some 'h', none⟩

/-- The flag that asks for the version. -/
def version : OptionForm := ⟨"version", some 'V', none⟩

end OptionForm

/-- How many places a command has. -/
inductive Places where
  /-- As many. -/
  | exactly (n : Nat)
  /-- As many as there are arguments. -/
  | any
  deriving DecidableEq, Repr

/-- Whether one more argument has a place. -/
def Places.admits (places : Places) (taken : Nat) : Bool :=
  match places with
  | exactly n => taken < n
  | any => true

/-- The options and places of a command. -/
structure CommandForm where
  /-- The options. -/
  options : List OptionForm
  /-- The places. -/
  places : Places
  deriving DecidableEq, Repr

/-- What a command was called with. -/
structure Arguments where
  /-- The options given, with their values. -/
  given : List (String × Value)
  /-- The arguments at their places. -/
  placed : List String

namespace Arguments

/-- Whether an option was given. -/
def has (a : Arguments) (word : String) : Bool := (a.given.lookup word).isSome

/-- The text given to an option. -/
def text? (a : Arguments) (word : String) : Option String :=
  match a.given.lookup word with
  | some (.text s) => some s
  | _ => none

/-- The decimal given to an option. -/
def decimal? (a : Arguments) (word : String) : Option Float :=
  match a.given.lookup word with
  | some (.decimal x) => some x
  | _ => none

/-- The number given to an option. -/
def count? (a : Arguments) (word : String) : Option UInt64 :=
  match a.given.lookup word with
  | some (.count n) => some n
  | _ => none

/-- The format given to an option. -/
def format? (a : Arguments) (word : String) : Option OutputFormat :=
  match a.given.lookup word with
  | some (.format f) => some f
  | _ => none

end Arguments

/-! ### Kinds of arguments -/

/-- What an argument looks like. -/
inductive Look where
  /-- Two dashes and nothing else. -/
  | escape
  /-- Two dashes and a word, and perhaps a value behind an equals sign. -/
  | long (word : String) (attached : Option String)
  /-- One dash and letters. -/
  | letters (cs : List Char)
  /-- Anything else. -/
  | plain
  deriving DecidableEq, Repr

/-- What an argument looks like. A single dash is no option. -/
def Look.of (argument : String) : Look :=
  match argument.toList with
  | ['-', '-'] => escape
  | '-' :: '-' :: rest =>
    match rest.dropWhile (· ≠ '=') with
    | '=' :: value => long (String.ofList (rest.takeWhile (· ≠ '='))) (some (String.ofList value))
    | _ => long (String.ofList rest) none
  | '-' :: c :: rest => letters (c :: rest)
  | _ => plain

/-! ### Reading -/

/-- The reader between two arguments. -/
structure Scan where
  /-- What has been taken in. -/
  taken : Arguments
  /-- An option whose value is an argument of its own, and the value once it is read. -/
  pending : Option (OptionForm × ValueKind × Option String)

namespace Scan

/-- Before the first argument. -/
def start : Scan := ⟨⟨[], []⟩, none⟩

/-- Takes in an option with its value. -/
def put (o : OptionForm) (value : Value) (s : Scan) : Scan :=
  { s with taken := { s.taken with given := (o.word, value) :: s.taken.given } }

/-- Takes in an option with the text of its value. -/
def take (o : OptionForm) (kind : ValueKind) (text : String) (s : Scan) :
    Except UsageFault Scan :=
  if s.taken.has o.word then .error (.repeatedOption o.word)
  else (kind.read o.word text).map fun value => s.put o value

/-- Takes in the pending option. -/
def settle (s : Scan) : Except UsageFault Scan :=
  match s.pending with
  | none => .ok s
  | some (o, _, none) => .error (.missingValue o.word)
  | some (o, kind, some text) => { s with pending := none }.take o kind text

/-- Takes in a flag. -/
def flag (o : OptionForm) (s : Scan) : Except UsageFault Scan := do
  let s ← s.settle
  if o = .help then .error .help
  else if o = .version then .error .version
  else if s.taken.has o.word then .error (.repeatedOption o.word)
  else return s.put o .flag

/-- Takes in an option with an attached value. -/
def attach (o : OptionForm) (kind : ValueKind) (text : String) (s : Scan) :
    Except UsageFault Scan := do
  let s ← s.settle
  s.take o kind text

/-- Leaves an option pending until its value comes. -/
def await (o : OptionForm) (kind : ValueKind) (s : Scan) : Except UsageFault Scan := do
  let s ← s.settle
  return { s with pending := some (o, kind, none) }

/-- Reads an option that a word names. -/
def long (options : List OptionForm) (word : String) (attached : Option String) (s : Scan) :
    Except UsageFault Scan :=
  match options.find? fun o => o.word = word with
  | none => .error (.unknownArgument ("--" ++ word))
  | some o =>
    match o.kind, attached with
    | none, none => s.flag o
    | none, some _ => .error (.surplusValue word)
    | some kind, some text => s.attach o kind text
    | some kind, none => s.await o kind

/-- Reads options that letters name; what follows the letter of an option that takes a
value is the value. -/
def letters (options : List OptionForm) : List Char → Scan → Except UsageFault Scan
  | [], s => .ok s
  | c :: rest, s =>
    match options.find? fun o => o.letter = some c with
    | none => .error (.unknownArgument (String.ofList ['-', c]))
    | some o =>
      match o.kind, rest with
      -- a flag leaves the letters behind it to be read
      | none, _ =>
        match s.flag o with
        | .error fault => .error fault
        | .ok s => letters options rest s
      | some kind, [] => s.await o kind
      | some kind, '=' :: text => s.attach o kind (String.ofList text)
      | some kind, text => s.attach o kind (String.ofList text)

/-- Puts an argument at the next place. -/
def place (places : Places) (argument : String) (s : Scan) : Except UsageFault Scan :=
  if places.admits s.taken.placed.length then do
    let s ← s.settle
    return { s with taken := { s.taken with placed := s.taken.placed ++ [argument] } }
  else .error (.unknownArgument argument)

/-- Reads an argument that is no option: the value of the pending option, or one with
a place. -/
def plain (places : Places) (argument : String) (s : Scan) : Except UsageFault Scan :=
  match s.pending with
  | some (o, kind, none) => .ok { s with pending := some (o, kind, some argument) }
  | _ => s.place places argument

end Scan

namespace CommandForm

/-- Reads the arguments behind two dashes that stand alone. -/
def scanPlaced (form : CommandForm) : List String → Scan → Except UsageFault Scan
  | [], s => s.settle
  | argument :: rest, s =>
    match s.place form.places argument with
    | .error fault => .error fault
    | .ok s => scanPlaced form rest s

/-- Reads arguments. -/
def scanFrom (form : CommandForm) : List String → Scan → Except UsageFault Scan
  | [], s => s.settle
  | argument :: rest, s =>
    let read := match Look.of argument with
      | .escape => none
      | .long word attached => some (s.long form.options word attached)
      | .letters cs => some (s.letters form.options cs)
      | .plain => some (s.plain form.places argument)
    match read with
    | none => scanPlaced form rest s
    | some (.error fault) => .error fault
    | some (.ok s) => scanFrom form rest s

/-- What a command was called with. -/
def scan (form : CommandForm) (arguments : List String) : Except UsageFault Arguments :=
  (form.scanFrom arguments .start).map Scan.taken

end CommandForm

end BenchReport
