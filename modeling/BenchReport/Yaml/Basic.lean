import BenchReport.Decimal.Reading

/-!
# YAML documents

A document is a tree of **scalars**, **sequences** and **mappings**. A mapping keeps its
entries in their order, repetitions included, and its keys may be any nodes: what is
allowed of a key is for the reader of a particular kind of document to say.

A scalar is a text together with whether it was written *plain*, that is, without
quotes. What a scalar means depends on what is asked of it. Only a plain scalar can be
a number or stand for nothing, but each scalar is a text, whatever it looks like.
-/

namespace BenchReport

/-- A node of a document. -/
inductive Yaml where
  /-- A text, and whether it was written without quotes. -/
  | scalar (plain : Bool) (text : String)
  /-- Nodes in their order. -/
  | sequence (items : List Yaml)
  /-- Keys with values in their order. -/
  | mapping (entries : List (Yaml × Yaml))

namespace Yaml

/-- A node of which nothing is written. -/
def blank : Yaml := scalar true ""

/-- Whether a node stands for nothing. -/
def isNull : Yaml → Bool
  | scalar true text => ["", "~", "null", "Null", "NULL"].contains text
  | _ => false

/-- The text of a scalar. -/
def text? : Yaml → Option String
  | scalar _ text => some text
  | _ => none

/-- The number that a text stands for: a decimal, or one of the words for the
infinities and for what is no number. A decimal beyond all doubles is no number. -/
def readNumber? (text : String) : Option Float :=
  let unsigned := match text.toList with
    | '+' :: rest => rest
    | rest => rest
  let signed := unsigned.head? = some '+' || unsigned.head? = some '-'
  if signed && text.toList ≠ unsigned then none
  else if [".inf", ".Inf", ".INF"].contains (String.ofList unsigned) then some (1.0 / 0.0)
  else if ["-.inf", "-.Inf", "-.INF"].contains text then some (-1.0 / 0.0)
  else if [".nan", ".NaN", ".NAN"].contains text then some (Float.ofBits 0x7ff8000000000000)
  else (Decimal.read? unsigned).filter Float.isFinite

/-- The number that a node stands for. -/
def number? : Yaml → Option Float
  | scalar true text => readNumber? text
  | _ => none

end Yaml

end BenchReport
