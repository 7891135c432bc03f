import Mathlib
import BenchReport.Proofs.Text.Cut
import BenchReport.Proofs.Text.Utf8
import BenchReport.Text.Line

/-!
# Cutting a stream into lines

`BenchReport.Text.lineBytes` takes lines off the front one by one
(`BenchReport.Text.lineBytes_append_newline`). So a stream that ends in a newline is
cut by itself, whatever follows it (`BenchReport.Text.lineBytes_append`), and what
follows only has its lines numbered anew (`BenchReport.Text.lines_append`).

A newline takes a carriage return along. Of a text that was written, that is the whole
damage: the line has the text or the text less one carriage return
(`BenchReport.Text.exists_decodeLossy_dropReturn`), and exactly the text if it was
written with a carriage return behind it.
-/

namespace BenchReport.Text

/-! ### Bytes -/

@[simp] theorem lineBytes_nil : lineBytes [] = [] := rfl

/-- **The first newline ends the first line.** -/
theorem lineBytes_append_newline {line : List UInt8} (h : newline ∉ line) (rest : List UInt8) :
    lineBytes (line ++ newline :: rest) = dropReturn line :: lineBytes rest := by
  have hne : rest.splitOn newline ≠ [] := List.splitOn_ne_nil _ _
  have hlast : (line :: rest.splitOn newline).getLast?.getD [] =
      (rest.splitOn newline).getLast?.getD [] := by
    rw [List.getLast?_cons]
    cases hlast : (rest.splitOn newline).getLast? with
    | none => exact absurd (List.getLast?_eq_none_iff.mp hlast) hne
    | some tail => rfl
  simp only [lineBytes, splitLines, splitOn_eq]
  rw [List.splitOn_append_cons_self_of_not_mem h, hlast, List.dropLast_cons_of_ne_nil hne]
  split <;> rfl

/-- Ended lines are cut off one after another. -/
theorem lineBytes_flatMap {ended : List (List UInt8)} (h : ∀ line ∈ ended, newline ∉ line)
    (rest : List UInt8) :
    lineBytes (ended.flatMap (· ++ [newline]) ++ rest) =
      ended.map dropReturn ++ lineBytes rest := by
  induction ended with
  | nil => rfl
  | cons line ended ih =>
    have hsplit : (line :: ended).flatMap (· ++ [newline]) ++ rest =
        line ++ newline :: (ended.flatMap (· ++ [newline]) ++ rest) := by simp
    rw [hsplit, lineBytes_append_newline (h line (by simp)),
      ih fun l hl => h l (List.mem_cons_of_mem _ hl), List.map_cons, List.cons_append]

/-- A stream that is empty or ends in a newline is a sequence of ended lines. -/
theorem exists_ended {bytes : List UInt8} (h : bytes = [] ∨ bytes.getLast? = some newline) :
    ∃ ended : List (List UInt8), (∀ line ∈ ended, newline ∉ line) ∧
      bytes = ended.flatMap (· ++ [newline]) := by
  induction hn : bytes.length using Nat.strong_induction_on generalizing bytes with
  | _ n ih =>
    rcases h with rfl | hlast
    · exact ⟨[], by simp, rfl⟩
    · -- what stands up to the first newline is the first line
      obtain ⟨line, rest, rfl, hline⟩ := List.eq_append_cons_of_mem (List.mem_of_getLast? hlast)
      have hrest : rest = [] ∨ rest.getLast? = some newline := by
        rw [List.getLast?_append, List.getLast?_cons] at hlast
        cases htail : rest.getLast? with
        | none => exact .inl (List.getLast?_eq_none_iff.mp htail)
        | some b => exact .inr (by simpa [htail] using hlast)
      obtain ⟨ended, hended, rfl⟩ := ih rest.length (by simp [← hn]; omega) hrest rfl
      refine ⟨line :: ended, fun l hl => ?_, by simp⟩
      rcases List.mem_cons.mp hl with rfl | hl
      · exact hline
      · exact hended l hl

/-- **A stream that ends in a newline is cut by itself.** -/
theorem lineBytes_append {a : List UInt8} (h : a = [] ∨ a.getLast? = some newline)
    (b : List UInt8) : lineBytes (a ++ b) = lineBytes a ++ lineBytes b := by
  obtain ⟨ended, hended, rfl⟩ := exists_ended h
  have ha := lineBytes_flatMap hended []
  rw [List.append_nil, lineBytes_nil, List.append_nil] at ha
  rw [lineBytes_flatMap hended, ha]

/-! ### Numbers -/

/-- The line with a number that is greater by `n`. -/
def Line.later (n : Nat) (line : Line) : Line := { line with number := n + line.number }

/-- **What stands behind a stream that ends in a newline is read as by itself**, but
for the numbers of its lines. -/
theorem lines_append {a : List UInt8} (h : a = [] ∨ a.getLast? = some newline) (b : List UInt8) :
    lines (a ++ b) = lines a ++ (lines b).map (Line.later (lineBytes a).length) := by
  have hlater : ∀ texts : List (List UInt8), ∀ n,
      (texts.zipIdx (1 + n)).map (fun entry => (⟨entry.2, decodeLossy entry.1⟩ : Line)) =
        (numbered texts).map (Line.later n) := by
    intro texts n
    rw [Nat.add_comm, ← List.map_snd_add_zipIdx_eq_zipIdx, List.map_map, numbered, List.map_map]
    refine List.map_congr_left fun entry _ => ?_
    simp [Line.later, Nat.add_comm]
  rw [lines, lineBytes_append h, numbered, List.zipIdx_append, List.map_append, hlater]
  rfl

/-- The texts of numbered lines are what their bytes say. -/
theorem map_text_numbered (texts : List (List UInt8)) :
    (numbered texts).map Line.text = texts.map decodeLossy := by
  calc (numbered texts).map Line.text
      = ((texts.zipIdx 1).map Prod.fst).map decodeLossy := by
        rw [numbered, List.map_map, List.map_map]
        rfl
    _ = texts.map decodeLossy := by rw [List.zipIdx_map_fst]

/-! ### Texts -/

theorem dropReturn_concat (bytes : List UInt8) : dropReturn (bytes ++ [13]) = bytes := by
  simp [dropReturn]

theorem dropReturn_eq_self {bytes : List UInt8} (h : bytes.getLast? ≠ some 13) :
    dropReturn bytes = bytes := by
  rw [dropReturn]
  split
  · rename_i rest hreverse
    rw [List.getLast?_eq_head?_reverse, hreverse] at h
    exact absurd rfl h
  · rfl

/-- **Texts are read back line by line**, but for what their newlines take along. -/
theorem map_text_lines_ended {texts : List (List Char)} (h : ∀ s ∈ texts, '\n' ∉ s) :
    (lines ((texts.flatMap (· ++ ['\n'])).flatMap String.utf8EncodeChar)).map Line.text =
      texts.map fun s => decodeLossy (dropReturn (s.flatMap String.utf8EncodeChar)) := by
  have hnewline : String.utf8EncodeChar '\n' = [newline] := by decide
  have hbytes : (texts.flatMap (· ++ ['\n'])).flatMap String.utf8EncodeChar =
      (texts.map fun s => s.flatMap String.utf8EncodeChar).flatMap (· ++ [newline]) := by
    simp only [List.flatMap_assoc, List.flatMap_map, List.flatMap_append, List.flatMap_singleton,
      hnewline]
  have hended : ∀ line ∈ texts.map fun s => s.flatMap String.utf8EncodeChar, newline ∉ line := by
    intro line hline hmem
    obtain ⟨s, hs, rfl⟩ := List.mem_map.mp hline
    exact h s hs (mem_of_mem_flatMap (by decide) hmem)
  have hcut := lineBytes_flatMap hended []
  rw [List.append_nil, lineBytes_nil, List.append_nil] at hcut
  rw [lines, map_text_numbered, hbytes, hcut, List.map_map, List.map_map]
  rfl

/-- A text with a carriage return behind it loses that one to its newline. -/
theorem decodeLossy_dropReturn_concat (s : List Char) :
    decodeLossy (dropReturn ((s ++ ['\r']).flatMap String.utf8EncodeChar)) = s := by
  have hreturn : String.utf8EncodeChar '\r' = [13] := by decide
  rw [List.flatMap_append, List.flatMap_singleton, hreturn, dropReturn_concat, decodeLossy_flatMap]

/-- The last byte of a text is a carriage return only if its last character is. -/
theorem getLast?_of_flatMap {s : List Char}
    (h : (s.flatMap String.utf8EncodeChar).getLast? = some 13) : s.getLast? = some '\r' := by
  rcases s.eq_nil_or_concat with rfl | ⟨s, c, rfl⟩
  · cases h
  · have hne : String.utf8EncodeChar c ≠ [] := String.utf8EncodeChar_ne_nil
    rw [List.concat_eq_append] at h ⊢
    rw [List.flatMap_append, List.flatMap_singleton, List.getLast?_append_of_ne_nil _ hne] at h
    obtain rfl : c = '\r' := (eq_of_mem_utf8EncodeChar (List.mem_of_getLast? h) (by decide)).2
    exact List.getLast?_concat

/-- **A text loses one carriage return to its newline at most.** -/
theorem exists_decodeLossy_dropReturn (s : List Char) :
    ∃ r, s = decodeLossy (dropReturn (s.flatMap String.utf8EncodeChar)) ++ r ∧
      ∀ c ∈ r, c = '\r' := by
  by_cases h : (s.flatMap String.utf8EncodeChar).getLast? = some 13
  · obtain ⟨s, rfl⟩ := List.getLast?_eq_some_iff.mp (getLast?_of_flatMap h)
    exact ⟨['\r'], by rw [decodeLossy_dropReturn_concat], by simp⟩
  · exact ⟨[], by rw [dropReturn_eq_self h, decodeLossy_flatMap, List.append_nil], by simp⟩

end BenchReport.Text
