import BenchReport.Text.Integer

/-!
# Parameters

A benchmark is run under named settings, each an integer: so many clients, such a
rate. A **parameter** is one of them. Parameters are ordered by key and then by
value, which is the order in which a group lists them.
-/

namespace BenchReport

/-- A named setting of a benchmark. -/
structure Parameter where
  /-- Its name. -/
  key : String
  /-- Its value. -/
  value : Int64
  deriving DecidableEq, Repr

namespace Parameter

instance : Ord Parameter := ⟨compareLex (compareOn key) (compareOn value)⟩

instance : Std.TransOrd Parameter :=
  inferInstanceAs (Std.TransCmp (compareLex (compareOn key) (compareOn value)))

instance : Std.LawfulEqOrd Parameter where
  eq_of_compare {a b} h := by
    have h' : (compare a.key b.key).then (compare a.value b.value) = .eq := h
    rw [Ordering.then_eq_eq] at h'
    have hk := Std.LawfulEqCmp.eq_of_compare h'.1
    have hv := Std.LawfulEqCmp.eq_of_compare h'.2
    cases a
    cases b
    simp_all

/-- Whether a parameter comes no later than another. -/
def le (a b : Parameter) : Bool := (compare a b).isLE

theorem le_trans (a b c : Parameter) (hab : le a b = true) (hbc : le b c = true) :
    le a c = true :=
  Std.TransCmp.isLE_trans hab hbc

theorem le_total (a b : Parameter) : (le a b || le b a) = true := by
  have h : compare a b = (compare b a).swap := Std.OrientedCmp.eq_swap
  unfold le
  rw [h]
  cases compare b a <;> rfl

/-- The text of a parameter with a given sign between key and value. -/
def spell (between : String) (p : Parameter) : String :=
  p.key ++ between ++ Text.showSigned p.value

/-- The value of a key in a list of parameters: the first one given. -/
def lookup? (key : String) (parameters : List Parameter) : Option Int64 :=
  (parameters.find? fun p => p.key = key).map value

/-! ### Repeated keys -/

/-- The first key that has been met before; `seen` holds the keys met so far. -/
def firstRepeatFrom (seen : List String) : List Parameter → Option String
  | [] => none
  | p :: rest => if p.key ∈ seen then some p.key else firstRepeatFrom (p.key :: seen) rest

/-- The first key that repeats an earlier one. -/
def firstRepeat? (parameters : List Parameter) : Option String := firstRepeatFrom [] parameters

theorem firstRepeatFrom_eq_none {seen : List String} {ps : List Parameter} :
    firstRepeatFrom seen ps = none ↔
      (ps.map key).Nodup ∧ ∀ k ∈ ps.map key, k ∉ seen := by
  induction ps generalizing seen with
  | nil => simp [firstRepeatFrom]
  | cons p ps ih =>
    by_cases hp : p.key ∈ seen
    · simp [firstRepeatFrom, hp]
    · rw [firstRepeatFrom, if_neg hp, ih]
      simp only [List.map_cons, List.nodup_cons, List.mem_cons, not_or, forall_eq_or_imp]
      constructor
      · rintro ⟨hnodup, hfresh⟩
        exact ⟨⟨fun hmem => (hfresh _ hmem).1 rfl, hnodup⟩, hp, fun k hk => (hfresh k hk).2⟩
      · rintro ⟨⟨hnew, hnodup⟩, _, hfresh⟩
        exact ⟨hnodup, fun k hk => ⟨fun heq => hnew (heq ▸ hk), hfresh k hk⟩⟩

/-- No key repeats exactly where the keys are pairwise distinct. -/
theorem firstRepeat?_eq_none {ps : List Parameter} :
    firstRepeat? ps = none ↔ (ps.map key).Nodup := by
  simp [firstRepeat?, firstRepeatFrom_eq_none]

end Parameter

end BenchReport
