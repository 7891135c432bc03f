/-!
# Events

Beside its result, an operation can tell what it met on the way: a line it had to
skip, a source it could not read. Each such notice is an **event** – a level, a
fixed message and named details.

Nothing here writes a log. Events are values that are computed from the same
classification as the result, so that a result can be reasoned about without them
and no event can be told without its cause.
-/

namespace BenchReport

/-- How much an event matters. -/
inductive Level where
  /-- Of interest when looking for the reason of something. -/
  | debug
  /-- Worth knowing. -/
  | info
  /-- Something is missing from the result. -/
  | warn
  deriving DecidableEq, Repr

/-- A detail of an event. -/
inductive Detail where
  /-- A text. -/
  | text (s : String)
  /-- A whole number. -/
  | count (n : Nat)
  /-- A double. -/
  | number (x : Float)

/-- A notice of something met on the way. -/
structure Event where
  /-- How much it matters. -/
  level : Level
  /-- What happened. -/
  message : String
  /-- Where and why, by name. -/
  details : List (String × Detail)

namespace Event

/-- An event of interest when looking for the reason of something. -/
def debug (message : String) (details : List (String × Detail)) : Event :=
  ⟨.debug, message, details⟩

/-- An event worth knowing. -/
def info (message : String) (details : List (String × Detail)) : Event :=
  ⟨.info, message, details⟩

/-- An event that tells of a gap in the result. -/
def warn (message : String) (details : List (String × Detail)) : Event :=
  ⟨.warn, message, details⟩

end Event

end BenchReport
