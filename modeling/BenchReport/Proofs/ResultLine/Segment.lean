import Mathlib
import BenchReport.Proofs.Text.Cut
import BenchReport.Proofs.Text.Integer
import BenchReport.ResultLine

/-!
# What the segments of a parameter list say

A parameter list is cut at its commas, and each segment is read on its own
(`BenchReport.ResultLine.readSegment`). The grammar of a segment is
`BenchReport.ResultLine.Says`: underscores alone say nothing, and otherwise a segment
is underscores, a key, the delimiter and an integer – where the key is what stands
before the **first** delimiter, so that an integer is never taken for a part of a key.

Reading agrees with the grammar on every segment
(`BenchReport.ResultLine.readSegment_eq_ok_iff`) and on every list of segments: the
list is read exactly when the grammar has a reading for each of its segments, and
otherwise the fault names the first malformed one
(`BenchReport.ResultLine.firstMalformed_of_readSegments`).
-/

namespace BenchReport.ResultLine

/-- **The grammar of a segment**, with the parameter that it gives, if any. -/
inductive Says : List Char → Option Parameter → Prop
  /-- Underscores alone say nothing. -/
  | nothing {underscores : List Char} (hu : ∀ c ∈ underscores, c = '_') : Says underscores none
  /-- A key, a delimiter and an integer behind any number of underscores. -/
  | parameter {underscores key value : List Char} {n : Int64} (hu : ∀ c ∈ underscores, c = '_')
      (hkey : key ≠ []) (hhead : ∀ c ∈ key.head?, c ≠ '_') (hfirst : ¬delimiter <:+: key)
      (hvalue : Text.IsSigned value n) :
      Says (underscores ++ key ++ delimiter ++ value) (some ⟨String.ofList key, n⟩)

/-- A segment that the grammar has no reading for. -/
def Malformed (segment : List Char) : Prop := ∀ o, ¬Says segment o

/-- The first malformed segment of a list. -/
def FirstMalformed (segments : List (List Char)) (segment : List Char) : Prop :=
  ∃ before behind, segments = before ++ segment :: behind ∧ (∀ s ∈ before, ∃ o, Says s o) ∧
    Malformed segment

/-! ### The first delimiter -/

/-- **No delimiter begins inside a key and ends behind it**: its two characters are
different. So the first delimiter of `key:_value` is the one behind the key exactly
when the key holds none. -/
theorem delimiter_first_iff {key value : List Char} :
    (∀ a b, key ++ delimiter ++ value = a ++ delimiter ++ b → key.length ≤ a.length) ↔
      ¬delimiter <:+: key := by
  constructor
  · rintro hfirst ⟨a, b, rfl⟩
    have hle := hfirst a (b ++ delimiter ++ value) (by simp)
    simp [delimiter] at hle
  · intro hkey a b h
    rw [List.append_assoc, List.append_assoc, List.append_eq_append_iff] at h
    rcases h with ⟨tail, rfl, -⟩ | ⟨tail, rfl, h⟩
    · simp
    · match tail with
      | [] => simp
      | [c] => simp [delimiter] at h
      | c :: d :: tail =>
        simp only [delimiter, List.cons_append, List.nil_append, List.cons.injEq] at h
        obtain ⟨rfl, rfl, -⟩ := h
        exact absurd ⟨a, tail, by simp [delimiter]⟩ hkey

/-! ### One segment -/

/-- The underscores in front of a segment are dropped, all of them and nothing else. -/
theorem dropWhile_underscores {underscores content : List Char} (hu : ∀ c ∈ underscores, c = '_')
    (hcontent : ∀ c ∈ content.head?, c ≠ '_') :
    (underscores ++ content).dropWhile (fun c => decide (c = '_')) = content :=
  Text.dropWhile_append_stop (fun c hc => by simp [hu c hc]) fun c hc => by simp [hcontent c hc]

/-- **A segment is read as what the grammar says.** -/
theorem readSegment_eq_ok_iff {segment : List Char} {o : Option Parameter} :
    readSegment segment = .ok o ↔ Says segment o := by
  constructor
  · intro h
    obtain ⟨underscores, content, rfl, hu, hhead⟩ :=
      Text.exists_run (fun c => decide (c = '_')) segment
    simp only [decide_eq_true_eq, decide_eq_false_iff_not] at hu hhead
    rw [readSegment, dropWhile_underscores hu hhead] at h
    simp only at h
    split at h
    · rename_i hnil
      obtain rfl : none = o := by simpa using h
      rw [List.isEmpty_iff.mp hnil, List.append_nil]
      exact .nothing hu
    · split at h
      · cases h
      · rename_i key value hcut
        obtain ⟨rfl, hfirst⟩ := Text.cutAtSeq?_eq_some_iff.mp hcut
        rw [delimiter_first_iff] at hfirst
        split at h
        · cases h
        · rename_i hkey
          split at h
          · rename_i n hvalue
            obtain rfl : some ⟨String.ofList key, n⟩ = o := by simpa using h
            have hkey' : key ≠ [] := by simpa using hkey
            rw [List.append_assoc, List.head?_append_of_ne_nil _ hkey'] at hhead
            rw [← List.append_assoc, ← List.append_assoc]
            exact .parameter hu hkey' hhead hfirst (Text.readSigned_eq_ok_iff.mp hvalue)
          · cases h
  · rintro (hu | @⟨underscores, key, value, n, hu, hkey, hkeyhead, hfirst, hvalue⟩)
    · rw [readSegment, List.dropWhile_eq_nil_iff.mpr fun c hc => by simp [hu c hc]]
      rfl
    · have hcontent : ∀ c ∈ (key ++ delimiter ++ value).head?, c ≠ '_' := by
        rw [List.append_assoc, List.head?_append_of_ne_nil _ hkey]
        exact hkeyhead
      have hcut : Text.cutAtSeq? delimiter (key ++ delimiter ++ value) = some (key, value) :=
        Text.cutAtSeq?_eq_some_iff.mpr ⟨rfl, delimiter_first_iff.mpr hfirst⟩
      have hne : (key ++ delimiter ++ value).isEmpty = false := by simp [hkey]
      rw [readSegment, List.append_assoc, List.append_assoc, ← List.append_assoc key,
        dropWhile_underscores hu hcontent]
      simp only [hne, hcut]
      simp [hkey, Text.readSigned_eq_ok_iff.mpr hvalue]

/-- A fault of a segment is a malformed parameter, and names the segment. -/
theorem readSegment_error {segment : List Char} {fault : LineFault}
    (h : readSegment segment = .error fault) :
    ∃ cause, fault = .malformedParameter (String.ofList segment) cause := by
  rw [readSegment] at h
  simp only at h
  split at h
  · cases h
  · split at h
    · exact ⟨_, by simpa using h.symm⟩
    · split at h
      · exact ⟨_, by simpa using h.symm⟩
      · split at h
        · cases h
        · exact ⟨_, by simpa using h.symm⟩

/-! ### Lists of segments -/

/-- What stands in the first of two related lists is related to something in the second. -/
theorem exists_mem_of_forall₂ {α β : Type} {R : α → β → Prop} {as : List α} {bs : List β}
    (h : List.Forall₂ R as bs) {a : α} (ha : a ∈ as) : ∃ b ∈ bs, R a b := by
  induction h with
  | nil => cases ha
  | cons hab _ ih =>
    rcases List.mem_cons.mp ha with rfl | ha
    · exact ⟨_, List.mem_cons_self, hab⟩
    · obtain ⟨b, hb, hab⟩ := ih ha
      exact ⟨b, List.mem_cons_of_mem _ hb, hab⟩

/-- **A list of segments is read exactly when each of them says something**, and gives
what they say in order. -/
theorem readSegments_eq_ok_iff {segments : List (List Char)} {parameters : List Parameter} :
    readSegments segments = .ok parameters ↔
      ∃ said, List.Forall₂ Says segments said ∧ parameters = said.reduceOption := by
  induction segments generalizing parameters with
  | nil => simp [readSegments, eq_comm]
  | cons segment segments ih =>
    rw [readSegments]
    constructor
    · intro h
      cases hs : readSegment segment with
      | error fault => simp [hs] at h
      | ok o =>
        cases hr : readSegments segments with
        | error fault => simp [hs, hr] at h
        | ok rest =>
          obtain ⟨said, hsaid, rfl⟩ := ih.mp hr
          refine ⟨o :: said, List.Forall₂.cons (readSegment_eq_ok_iff.mp hs) hsaid, ?_⟩
          simp only [hs, hr, Except.ok.injEq] at h
          cases o <;> simp [← h]
    · rintro ⟨said, hsaid, rfl⟩
      cases hsaid with
      | @cons _ o _ rest ho hrest =>
        rw [readSegment_eq_ok_iff.mpr ho, ih.mpr ⟨rest, hrest, rfl⟩]
        cases o <;> simp

/-- **The fault of a list of segments names the first malformed one.** -/
theorem firstMalformed_of_readSegments {segments : List (List Char)} {fault : LineFault}
    (h : readSegments segments = .error fault) :
    ∃ segment cause, FirstMalformed segments segment ∧
      fault = .malformedParameter (String.ofList segment) cause := by
  induction segments with
  | nil => cases h
  | cons segment segments ih =>
    rw [readSegments] at h
    cases hs : readSegment segment with
    | error fault' =>
      simp only [hs, Except.error.injEq] at h
      subst h
      obtain ⟨cause, rfl⟩ := readSegment_error hs
      refine ⟨segment, cause, ⟨[], segments, rfl, by simp, fun o ho => ?_⟩, rfl⟩
      rw [readSegment_eq_ok_iff.mpr ho] at hs
      cases hs
    | ok o =>
      cases hr : readSegments segments with
      | ok rest => simp [hs, hr] at h
      | error fault' =>
        simp only [hs, hr, Except.error.injEq] at h
        subst h
        obtain ⟨bad, cause, ⟨before, behind, rfl, hbefore, hbad⟩, rfl⟩ := ih hr
        refine ⟨bad, cause, ⟨segment :: before, behind, rfl, fun s hmem => ?_, hbad⟩, rfl⟩
        rcases List.mem_cons.mp hmem with rfl | hmem
        · exact ⟨o, readSegment_eq_ok_iff.mp hs⟩
        · exact hbefore s hmem

/-- A list with a malformed segment is refused, and the first such segment is named. -/
theorem readSegments_of_firstMalformed {segments : List (List Char)} {segment : List Char}
    (h : FirstMalformed segments segment) :
    ∃ cause, readSegments segments =
      .error (.malformedParameter (String.ofList segment) cause) := by
  obtain ⟨before, behind, rfl, hbefore, hbad⟩ := h
  induction before with
  | nil =>
    cases hs : readSegment segment with
    | ok o => exact absurd (readSegment_eq_ok_iff.mp hs) (hbad o)
    | error fault =>
      obtain ⟨cause, rfl⟩ := readSegment_error hs
      exact ⟨cause, by simp [readSegments, hs]⟩
  | cons s before ih =>
    obtain ⟨o, ho⟩ := hbefore s (by simp)
    obtain ⟨cause, hrest⟩ := ih fun s' hs' => hbefore s' (List.mem_cons_of_mem _ hs')
    exact ⟨cause, by simp [readSegments, readSegment_eq_ok_iff.mpr ho, hrest]⟩

/-- A list with a malformed segment has a first one. -/
theorem exists_firstMalformed {segments : List (List Char)} {segment : List Char}
    (hmem : segment ∈ segments) (h : Malformed segment) :
    ∃ first, FirstMalformed segments first := by
  cases hr : readSegments segments with
  | error fault =>
    obtain ⟨first, _, hfirst, -⟩ := firstMalformed_of_readSegments hr
    exact ⟨first, hfirst⟩
  | ok parameters =>
    obtain ⟨said, hsaid, -⟩ := readSegments_eq_ok_iff.mp hr
    obtain ⟨o, -, ho⟩ := exists_mem_of_forall₂ hsaid hmem
    exact absurd ho (h o)

end BenchReport.ResultLine
