import BenchReport.Measurement.Basic

/-!
# Group keys

Two measurements belong together when they have the same benchmark and the same
parameters, **in whatever order** the lines gave them. A group key is that identity:
the benchmark's name and the sorted parameters. Sortedness is part of the type, so
two keys are equal exactly when their names and their sets of parameters are.

Keys are ordered by name and then by parameters, which is the order of every table.
-/

namespace BenchReport

/-- A benchmark with its set of parameters. -/
structure GroupKey where
  /-- The benchmark. -/
  name : String
  /-- Its parameters, sorted. -/
  parameters : List Parameter
  /-- No parameter comes before a lesser one. -/
  sorted : parameters.Pairwise fun a b => Parameter.le a b = true
  deriving DecidableEq, Repr

namespace GroupKey

/-- The key with the given name and parameters, in any order. -/
def ofParameters (name : String) (parameters : List Parameter) : GroupKey where
  name := name
  parameters := parameters.mergeSort Parameter.le
  sorted := List.pairwise_mergeSort Parameter.le_trans Parameter.le_total parameters

/-- Keys with the same name and the same sorted parameters are the same. -/
theorem ext_parts {a b : GroupKey} (hname : a.name = b.name)
    (hparams : a.parameters = b.parameters) : a = b := by
  cases a
  cases b
  simp_all

instance : Ord GroupKey := ⟨compareLex (compareOn name) (compareOn parameters)⟩

instance : Std.TransOrd GroupKey :=
  inferInstanceAs (Std.TransCmp (compareLex (compareOn name) (compareOn parameters)))

instance : Std.LawfulEqOrd GroupKey where
  eq_of_compare {a b} h := by
    have h' : (compare a.name b.name).then (compare a.parameters b.parameters) = .eq := h
    rw [Ordering.then_eq_eq] at h'
    exact ext_parts (Std.LawfulEqCmp.eq_of_compare h'.1) (Std.LawfulEqCmp.eq_of_compare h'.2)

/-- Whether a key comes no later than another. -/
def le (a b : GroupKey) : Bool := (compare a b).isLE

/-- The value of a parameter; should a key be given several values, the greatest. -/
def parameter? (key : GroupKey) (parameter : String) : Option Int64 :=
  Parameter.lookup? parameter key.parameters.reverse

/-- The parameters of a key as they are printed: a slash before the first and a comma
before each of the others. -/
def spellParameters : List Parameter → String
  | [] => ""
  | first :: others =>
    "/" ++ first.spell "=" ++ String.join (others.map fun p => "," ++ p.spell "=")

/-- The printed form of a key. -/
def spell (key : GroupKey) : String := key.name ++ spellParameters key.parameters

end GroupKey

namespace Measurement

/-- The group that a measurement belongs to. -/
def key (m : Measurement) : GroupKey := .ofParameters m.name m.parameters

end Measurement

end BenchReport
