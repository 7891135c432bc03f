import Mathlib
import BenchReport.Proofs.Report.RoundTrip
import BenchReport.Proofs.Report.Samples

/-!
# Blocks that were written are read back

A block is printed on two lines (`BenchReport.Paired.Block.render`), and blank lines may be
put anywhere, even between the two. Three things have to hold for it to come back.

* **The integers of its lines are its numbers.** The scan for integers goes from right to left
  and knows nothing of what is written around them. It is enough that a line is made of
  *fields*, each a label without digits and hyphens and then a number
  (`BenchReport.Paired.integers_fields`): the label closes the number to its right, and its
  last character keeps the number to its left apart. This one fact serves both lines, and a
  line of samples may have no field at all.
* **The lines are told apart.** A header has a letter in it and no bracket, samples open a
  bracket.
* **The headers meet their samples.** Blank lines have no say in which lines are pairs, and
  the others are headers and samples in turn (`BenchReport.Paired.map_readingOf_pairs`).
-/

namespace BenchReport.Paired

open SingleLine (LineEnd)

variable {options : ReadOptions}

/-! ### Fields -/

/-- Whether a text has neither a digit nor a hyphen. -/
def IsGap (s : List Char) : Prop := ∀ c ∈ s, Text.isDecimalDigit c = false ∧ c ≠ '-'

instance (s : List Char) : Decidable (IsGap s) := List.decidableBAll _ s

/-- Whether a text is an integer of a line: digits, and a hyphen before them where integers
have signs. -/
def IsInteger (signed : Bool) (s : List Char) : Prop :=
  ∃ digits, Text.IsDigits digits ∧ (s = digits ∨ signed = true ∧ s = '-' :: digits)

/-- Whether a label and a number are a field of a line. -/
def IsField (signed : Bool) (f : List Char × List Char) : Prop :=
  IsGap f.1 ∧ f.1 ≠ [] ∧ IsInteger signed f.2

theorem isField_of_label {signed : Bool} {label number : List Char}
    (hlabel : IsGap label ∧ label ≠ []) (hnumber : IsInteger signed number) :
    IsField signed (label, number) :=
  ⟨hlabel.1, hlabel.2, hnumber⟩

section Scan

variable {signed : Bool} {s : List Char} {closed : List (List Char)}

theorem foldr_extend_digits (h : ∀ c ∈ s, c.isDigit = true) (scan : Scan) :
    s.foldr (Scan.extend signed) scan = ⟨s ++ scan.current, scan.closed⟩ := by
  induction s with
  | nil => rfl
  | cons c s ih =>
    obtain ⟨hc, hs⟩ := List.forall_mem_cons.mp h
    rw [List.foldr_cons, ih hs, Scan.extend, if_pos (Text.isDecimalDigit_of_isDigit hc)]
    rfl

/-- An integer is open or closed once it has been gone through, and it is whole. -/
theorem integers_foldr_extend (h : IsInteger signed s) :
    (s.foldr (Scan.extend signed) ⟨[], closed⟩).integers = s :: closed := by
  obtain ⟨digits, ⟨hne, hdigits⟩, rfl | ⟨rfl, rfl⟩⟩ := h
  · rw [foldr_extend_digits hdigits, List.append_nil, Scan.integers, if_neg (by simpa using hne)]
  · rw [List.foldr_cons, foldr_extend_digits hdigits, List.append_nil, Scan.extend,
      if_neg (by decide), if_pos (by simpa using hne)]
    rfl

/-- **A label closes the integer to its right**, and opens none. -/
theorem foldr_extend_gap (h : IsGap s) (hne : s ≠ []) (scan : Scan) :
    s.foldr (Scan.extend signed) scan = ⟨[], scan.integers⟩ := by
  induction s with
  | nil => exact absurd rfl hne
  | cons c s ih =>
    obtain ⟨⟨hdigit, hhyphen⟩, hs⟩ := List.forall_mem_cons.mp h
    have hclose : ∀ scan : Scan, scan.extend signed c = ⟨[], scan.integers⟩ := by
      intro scan
      rw [Scan.extend, if_neg (by simp [hdigit]), if_neg (by simp [hhyphen])]
    rw [List.foldr_cons, hclose]
    rcases s.eq_nil_or_concat with rfl | ⟨s', d, hs'⟩
    · rfl
    · rw [ih hs (by simp [hs'])]
      rfl

/-- **The integers of a line of fields are its numbers**, in order. -/
theorem integers_fields {fields : List (List Char × List Char)}
    (h : ∀ f ∈ fields, IsField signed f) {behind : List Char}
    (hbehind : IsGap behind) :
    integers signed (fields.flatMap (fun f => f.1 ++ f.2) ++ behind) = fields.map Prod.snd := by
  have hscan : ∀ closed, (fields.flatMap fun f => f.1 ++ f.2).foldr (Scan.extend signed)
      ⟨[], closed⟩ = ⟨[], fields.map Prod.snd ++ closed⟩ := by
    intro closed
    induction fields with
    | nil => rfl
    | cons f fields ih =>
      obtain ⟨⟨hgap, hne, hinteger⟩, hfields⟩ := List.forall_mem_cons.mp h
      rw [List.flatMap_cons, List.foldr_append, ih hfields, List.foldr_append,
        foldr_extend_gap hgap hne, integers_foldr_extend hinteger]
      rfl
  have hstart : behind.foldr (Scan.extend signed) ⟨[], []⟩ = ⟨[], []⟩ := by
    rcases behind.eq_nil_or_concat with rfl | ⟨s, c, hs⟩
    · rfl
    · rw [foldr_extend_gap hbehind (by simp [hs])]
      rfl
  rw [integers, List.foldr_append, hstart, hscan, List.append_nil]
  rfl

end Scan

theorem isInteger_showSigned (n : Int64) : IsInteger true (Text.showSigned n).toList := by
  refine ⟨Nat.toDigits 10 n.toInt.natAbs, Text.isDigits_toDigits _, ?_⟩
  rw [Text.toList_showSigned]
  split
  · exact .inr ⟨rfl, rfl⟩
  · exact .inl rfl

theorem isInteger_showUnsigned (n : UInt64) : IsInteger false (Text.showUnsigned n).toList :=
  ⟨_, ResultLine.Layout.isDigits_showUnsigned n, .inl rfl⟩

/-! ### The lines of a block -/

namespace Block

variable (b : Block)

/-- The fields of a header. -/
def headerFields : List (List Char × List Char) :=
  [("Clients: ".toList, (Text.showSigned b.clients).toList),
    (", MergeRate: ".toList, (Text.showSigned b.mergeRate).toList),
    (", StreamRate: ".toList, (Text.showSigned b.streamRate).toList)]

theorem toList_renderHeader :
    b.renderHeader.toList = b.headerFields.flatMap fun f => f.1 ++ f.2 := by
  simp [renderHeader, parameters, headerFields, Parameter.spell]

/-- **A header holds its three numbers.** -/
theorem integers_renderHeader :
    integers true b.renderHeader.toList = b.headerFields.map Prod.snd := by
  have hfields : ∀ f ∈ b.headerFields, IsField true f := by
    intro f hf
    simp only [headerFields, List.mem_cons, List.not_mem_nil, or_false] at hf
    rcases hf with rfl | rfl | rfl
    · exact isField_of_label (by decide) (isInteger_showSigned _)
    · exact isField_of_label (by decide) (isInteger_showSigned _)
    · exact isField_of_label (by decide) (isInteger_showSigned _)
  have h := integers_fields hfields (by decide : IsGap [])
  rwa [List.append_nil, ← toList_renderHeader] at h

theorem intercalate_blank (w : List Char) (ws : List (List Char)) :
    [' '].intercalate (w :: ws) = w ++ ws.flatMap ([' '] ++ ·) := by
  induction ws generalizing w with
  | nil => simp
  | cons v ws ih => rw [List.intercalate_cons_cons, ih, List.flatMap_cons]; simp

theorem toList_renderSamples :
    b.renderSamples.toList = ['['] ++
      [' '].intercalate (b.samples.map fun x => (Text.showUnsigned x).toList) ++ [']'] := by
  simp [renderSamples, String.toList_intercalate, Function.comp_def]

/-- **A line of samples holds its samples**, if there are any. -/
theorem integers_renderSamples :
    integers false b.renderSamples.toList =
      b.samples.map fun x => (Text.showUnsigned x).toList := by
  rw [toList_renderSamples]
  cases hsamples : b.samples with
  | nil => rfl
  | cons x xs =>
    -- the bracket is the label of the first sample, a blank that of every other
    let fields : List (List Char × List Char) :=
      (['['], (Text.showUnsigned x).toList) ::
        xs.map fun y => ([' '], (Text.showUnsigned y).toList)
    have hfields : ∀ f ∈ fields, IsField false f := by
      refine List.forall_mem_cons.mpr
        ⟨isField_of_label (by decide) (isInteger_showUnsigned x), ?_⟩
      intro f hf
      obtain ⟨y, -, rfl⟩ := List.mem_map.mp hf
      exact isField_of_label (by decide) (isInteger_showUnsigned y)
    have h := integers_fields hfields (by decide : IsGap [']'])
    rw [List.map_cons, intercalate_blank, ← List.append_assoc]
    simpa [fields, List.flatMap_map, Function.comp_def] using h

/-- **A header and its samples are read as their block.** -/
theorem readPair_render {header samples : Text.Line} (hheader : header.text = b.renderHeader.toList)
    (hsamples : samples.text = b.renderSamples.toList) : readPair header samples = .block b := by
  rw [readPair_eq_block_iff, hheader, hsamples, integers_renderHeader, integers_renderSamples,
    readAll_eq_ok_iff, readAll_eq_ok_iff]
  constructor
  · exact .cons (Text.readSigned_showSigned _) <| .cons (Text.readSigned_showSigned _) <|
      .cons (Text.readSigned_showSigned _) .nil
  · rw [List.forall₂_map_left_iff, List.forall₂_same]
    exact fun x _ => Text.readUnsigned_showUnsigned x

/-- A character of a header stands in a number or in a label. -/
theorem notMem_renderHeader {c : Char} (hnumber : c ≠ '-' ∧ c.isDigit = false)
    (hlabel : c ∉ "Clients: ".toList ++ ", MergeRate: ".toList ++ ", StreamRate: ".toList) :
    c ∉ b.renderHeader.toList := by
  have hshow : ∀ n : Int64, c ∉ (Text.showSigned n).toList := by
    intro n hc
    rcases ResultLine.mem_showSigned hc with rfl | hdigit
    · exact hnumber.1 rfl
    · rw [hnumber.2] at hdigit
      cases hdigit
  simp only [List.mem_append, not_or] at hlabel
  simp only [toList_renderHeader, headerFields, List.flatMap_cons, List.flatMap_nil,
    List.append_nil, List.mem_append, not_or]
  exact ⟨⟨hlabel.1.1, hshow _⟩, ⟨hlabel.1.2, hshow _⟩, ⟨hlabel.2, hshow _⟩⟩

/-- A character of a line of samples stands in a number, or it is a bracket or a blank. -/
theorem notMem_renderSamples {c : Char} (hnumber : c.isDigit = false)
    (hlabel : c ≠ '[' ∧ c ≠ ' ' ∧ c ≠ ']') : c ∉ b.renderSamples.toList := by
  intro hc
  simp only [toList_renderSamples, List.mem_append] at hc
  rcases hc with (hc | hc) | hc
  · exact hlabel.1 (List.mem_singleton.mp hc)
  · rcases Text.mem_intercalate hc with rfl | ⟨w, hw, hc⟩
    · exact hlabel.2.1 rfl
    · obtain ⟨x, -, rfl⟩ := List.mem_map.mp hw
      rw [(ResultLine.Layout.isDigits_showUnsigned x).2 c hc] at hnumber
      cases hnumber
  · exact hlabel.2.2 (List.mem_singleton.mp hc)

/-- **A header is no line of samples**: it has a letter and no bracket. -/
theorem isSampleLine_renderHeader : isSampleLine b.renderHeader.toList = false := by
  obtain ⟨l, r, htext, hl, hr⟩ := Text.exists_trim b.renderHeader.toList
  have hletter : 'C' ∈ Text.trim b.renderHeader.toList := by
    have hmem : 'C' ∈ l ++ Text.trim b.renderHeader.toList ++ r := by
      rw [← htext, toList_renderHeader]
      simp [headerFields]
    rcases List.mem_append.mp hmem with hmem | hmem
    · rcases List.mem_append.mp hmem with hmem | hmem
      · exact absurd (hl _ hmem) (by decide)
      · exact hmem
    · exact absurd (hr _ hmem) (by decide)
  rw [isSampleLine]
  split
  · rename_i rest htrim
    have hbracket : '[' ∈ b.renderHeader.toList := by
      rw [htext, htrim]
      simp
    exact absurd hbracket (b.notMem_renderHeader (by decide) (by decide))
  · rw [List.all_eq_false]
    exact ⟨'C', hletter, by decide⟩

/-- Brackets are no blanks. -/
theorem trim_renderSamples : Text.trim b.renderSamples.toList = b.renderSamples.toList := by
  refine Text.trim_eq_self ?_
  rw [toList_renderSamples]
  have hopen : Text.IsTrimmed ['['] := Text.isTrimmed_of_forall (List.forall_mem_singleton.mpr rfl)
  have hclose : Text.IsTrimmed [']'] := Text.isTrimmed_of_forall (List.forall_mem_singleton.mpr rfl)
  exact hopen.append (List.cons_ne_nil _ _) hclose (List.cons_ne_nil _ _) _

/-- **Samples are a line of samples**: they open a bracket. -/
theorem isSampleLine_renderSamples : isSampleLine b.renderSamples.toList = true := by
  rw [isSampleLine, trim_renderSamples, toList_renderSamples]
  rfl

theorem isBlankLine_renderSamples : isBlankLine b.renderSamples.toList = false := by
  rw [isBlankLine, trim_renderSamples, toList_renderSamples]
  rfl

end Block

/-! ### The lines of blocks -/

theorem printed_printed (lines : List Text.Line) : printed (printed lines) = printed lines := by
  rw [printed, printed, List.filter_filter]
  simp only [Bool.and_self]

/-- Blank lines have no say in which lines are pairs. -/
theorem pairs_printed (lines : List Text.Line) :
    pairs options (printed lines) = pairs options lines := by
  rw [pairs, printed_printed, pairs]

/-- **Headers meet their samples.** Lines that say blocks, one after the other, are read as
those blocks. -/
theorem map_readingOf_pairs {blocks : List Block}
    (hlength : ∀ b ∈ blocks, (Text.encode b.renderHeader).length ≤ options.limits.maxLineLength)
    {lines : List Text.Line}
    (htexts : lines.map Text.Line.text = (blocks.flatMap Block.render).map String.toList) :
    (pairs options lines).map readingOf = blocks.map .block := by
  induction blocks generalizing lines with
  | nil =>
    rw [List.map_eq_nil_iff.mp htexts]
    rfl
  | cons b blocks ih =>
    obtain ⟨hb, hblocks⟩ := List.forall_mem_cons.mp hlength
    rw [List.flatMap_cons, Block.render] at htexts
    obtain ⟨header, lines, rfl, hheader, htexts⟩ := List.map_eq_cons_iff.mp htexts
    obtain ⟨samples, lines, rfl, hsamples, htexts⟩ := List.map_eq_cons_iff.mp htexts
    have hfits : isHeader options header = true := by
      rw [isHeader, Text.Line.length, Text.byteCount_eq, hheader, b.isSampleLine_renderHeader,
        ← Text.encode_eq]
      simpa using hb
    rw [pairs_header_cons hfits (hsamples ▸ b.isBlankLine_renderSamples),
      if_pos (hsamples ▸ b.isSampleLine_renderSamples), List.map_cons, List.map_cons,
      ih hblocks htexts, readingOf, b.readPair_render hheader hsamples]

/-! ### Texts with blank lines -/

section Written

variable {blocks : List Block} {lines : List (String × LineEnd)}

/-- What comes back of a line that was written. -/
def readBack (l : String × LineEnd) : List Char :=
  Text.decodeLossy (Text.dropReturn ((l.1.toList ++ l.2.returns).flatMap String.utf8EncodeChar))

/-- A blank line comes back blank, and no other does. -/
theorem isBlankLine_readBack (l : String × LineEnd) :
    isBlankLine (readBack l) = isBlankLine l.1.toList := by
  obtain ⟨lost, htext, hlost⟩ := l.2.exists_lost l.1.toList
  have hblank : ∀ c ∈ lost, Text.isBlank c = true := by
    intro c hc
    rw [hlost c hc]
    decide
  rw [isBlankLine, isBlankLine, htext, Text.trim_append_blanks _ hblank]
  rfl

theorem return_notMem_render {s : String} (h : s ∈ blocks.flatMap Block.render) :
    '\r' ∉ s.toList := by
  obtain ⟨b, -, hs⟩ := List.mem_flatMap.mp h
  rw [Block.render, List.mem_pair] at hs
  rcases hs with rfl | rfl
  · exact b.notMem_renderHeader (by decide) (by decide)
  · exact b.notMem_renderSamples (by decide) (by decide)

/-- **The lines of blocks come back as they are**, since no return is printed in them. -/
theorem readBack_of_mem_render {l : String × LineEnd} (h : l.1 ∈ blocks.flatMap Block.render) :
    readBack l = l.1.toList := by
  obtain ⟨lost, htext, hlost⟩ := l.2.exists_lost l.1.toList
  have hnil : lost = [] := by
    refine List.eq_nil_iff_forall_not_mem.mpr fun c hc => return_notMem_render h ?_
    rw [htext, ← hlost c hc]
    exact List.mem_append_right _ hc
  rw [hnil, List.append_nil] at htext
  exact htext.symm

/-- Whether a text is that of blocks with blank lines among their own. -/
def IsWritten (blocks : List Block) (lines : List (String × LineEnd)) : Prop :=
  (lines.map Prod.fst).filter (fun s => !isBlankLine s.toList) = blocks.flatMap Block.render

/-- **Blank lines aside, the lines of the blocks come back.** -/
theorem map_text_printed (hwritten : IsWritten blocks lines)
    (hnewline : ∀ l ∈ lines, '\n' ∉ l.1.toList) :
    (printed (Text.lines (Text.encode (SingleLine.endedText lines)))).map Text.Line.text =
      (blocks.flatMap Block.render).map String.toList := by
  have hkept : (lines.filter fun l => !isBlankLine l.1.toList).map Prod.fst =
      blocks.flatMap Block.render := by
    rw [← hwritten, List.filter_map]
    rfl
  have hprinted : (lines.map readBack).filter (fun t => !isBlankLine t) =
      (lines.filter fun l => !isBlankLine l.1.toList).map readBack := by
    rw [List.filter_map]
    simp only [Function.comp_def, isBlankLine_readBack]
  calc (printed (Text.lines (Text.encode (SingleLine.endedText lines)))).map Text.Line.text
      = (lines.map readBack).filter (fun t => !isBlankLine t) := by
        rw [printed, ← Function.comp_def (fun t => !isBlankLine t) Text.Line.text,
          ← List.filter_map, SingleLine.map_text_lines_endedText hnewline]
        rfl
    _ = (lines.filter fun l => !isBlankLine l.1.toList).map fun l => l.1.toList := by
        rw [hprinted]
        refine List.map_congr_left fun l hl => ?_
        have hmem := List.mem_map_of_mem (f := Prod.fst) hl
        rw [hkept] at hmem
        exact readBack_of_mem_render hmem
    _ = (blocks.flatMap Block.render).map String.toList := by
        rw [← hkept, List.map_map]
        rfl

/-- **The blank lines come back blank.** -/
theorem countP_isBlankLine (hnewline : ∀ l ∈ lines, '\n' ∉ l.1.toList) :
    (Text.lines (Text.encode (SingleLine.endedText lines))).countP
        (fun line => isBlankLine line.text) =
      lines.countP fun l => isBlankLine l.1.toList := by
  have htexts := SingleLine.map_text_lines_endedText hnewline
  calc (Text.lines (Text.encode (SingleLine.endedText lines))).countP
        (fun line => isBlankLine line.text)
      = (lines.map readBack).countP isBlankLine := by
        rw [← Function.comp_def isBlankLine Text.Line.text, ← List.countP_map, htexts]
        rfl
    _ = lines.countP fun l => isBlankLine l.1.toList := by
        rw [List.countP_map]
        simp only [Function.comp_def, isBlankLine_readBack]

theorem sum_tally_blocks (blocks : List Block) :
    ((blocks.map Reading.block).map Reading.tally).sum =
      ⟨2 * blocks.length, (blocks.map fun b => b.samples.length).sum, 0, 0, 0, 0⟩ := by
  induction blocks with
  | nil => rfl
  | cons b blocks ih =>
    rw [List.map_cons, List.map_cons, List.sum_cons, ih, Tally.add_def]
    simp [Reading.tally, Tally.zero, Nat.mul_add, Nat.add_comm]

theorem length_render (blocks : List Block) :
    (blocks.flatMap Block.render).length = 2 * blocks.length := by
  simp [List.length_flatMap, Block.render, Nat.mul_comm]

/-- **Blocks that were written are read back.** Let a text have the lines of some blocks, and
blank lines anywhere among them. Then every sample is a measurement, in order, under the
numbers of its header and in milliseconds; nothing is damaged, and what has no known form are
the blank lines. -/
theorem blocks_are_read_back (options : ReadOptions) (name : String) (blocks : List Block)
    (lines : List (String × LineEnd)) (hwritten : IsWritten blocks lines)
    (hnewline : ∀ l ∈ lines, '\n' ∉ l.1.toList)
    (hlength : ∀ b ∈ blocks,
      (Text.encode b.renderHeader).length ≤ options.limits.maxLineLength) :
    ∃ report, ofStream options name (.ofBytes (Text.encode (SingleLine.endedText lines))) =
        .ok report ∧
      report.measurements.map (fun m => (m.name, m.parameters, m.shape)) =
        blocks.flatMap (fun b => b.samples.map fun x => (name,
          [⟨"Clients", b.clients⟩, ⟨"MergeRate", b.mergeRate⟩, ⟨"StreamRate", b.streamRate⟩],
          .sample (x.toFloat / 1000000))) ∧
      report.metadata = [] ∧ report.footnotes = [] ∧
      report.tally = ⟨lines.length, (blocks.map fun b => b.samples.length).sum, 0,
        lines.countP fun l => isBlankLine l.1.toList, 0, 0⟩ := by
  let found := Text.lines (Text.encode (SingleLine.endedText lines))
  have hprinted := map_text_printed hwritten hnewline
  have hread : (pairs options found).map readingOf = blocks.map .block := by
    rw [← pairs_printed]
    exact map_readingOf_pairs hlength hprinted
  have hpairs : (pairs options found).length = blocks.length := by
    rw [← List.length_map readingOf, hread, List.length_map]
  obtain ⟨alone, hcount, htally⟩ := @exists_tally_ofLines options name found
  have halone : alone = 0 := by
    have hlines := congrArg List.length hprinted
    rw [List.length_map, List.length_map, length_render] at hlines
    change (printed found).length = _ at hlines
    omega
  have hlines : lines.length =
      lines.countP (fun l => isBlankLine l.1.toList) + 2 * blocks.length := by
    have hkept := congrArg List.length hwritten
    rw [length_render, ← List.countP_eq_length_filter, List.countP_map] at hkept
    rw [List.length_eq_countP_add_countP fun l => isBlankLine l.1.toList]
    simpa [Function.comp_def] using hkept
  refine ⟨ofLines options name found, rfl, ?_, rfl, rfl, ?_⟩
  · rw [measurements_ofLines, ← List.flatMap_map readingOf, hread, List.flatMap_map,
      List.map_flatMap]
    refine List.flatMap_congr fun b _ => ?_
    rw [Reading.measurements, Block.measurements, List.map_map]
    rfl
  · have hsum : ((pairs options found).map fun p => (readingOf p).tally).sum =
        ⟨2 * blocks.length, (blocks.map fun b => b.samples.length).sum, 0, 0, 0, 0⟩ := by
      rw [← sum_tally_blocks, ← hread, List.map_map]
      rfl
    rw [htally, hsum, halone, zero_smul, add_zero, countP_isBlankLine hnewline, Tally.nsmul_def,
      Tally.add_def, hlines]
    simp [Tally.unmatchedLine, Tally.zero]

end Written

/-- The least and the greatest number of every kind, a block without samples, and blank lines
in front, behind, and between a header and its samples. -/
theorem extreme_blocks_are_read_back :
    let blocks : List Block :=
      [⟨-9223372036854775808, 9223372036854775807, 0, [0, 18446744073709551615]⟩, ⟨1, 2, 3, []⟩]
    let lines : List (String × LineEnd) :=
      [("", .lf),
        ("Clients: -9223372036854775808, MergeRate: 9223372036854775807, StreamRate: 0", .crlf),
        (" \t", .lf), ("[0 18446744073709551615]", .lf),
        ("Clients: 1, MergeRate: 2, StreamRate: 3", .lf), ("[]", .crlf), ("\u3000\r", .lf)]
    IsWritten blocks lines ∧
      ∃ report, ofStream ⟨.default, none⟩ "L" (.ofBytes (Text.encode
          (SingleLine.endedText lines))) = .ok report ∧
        report.measurements.map (fun m => (m.name, m.parameters, m.shape)) =
          blocks.flatMap (fun b => b.samples.map fun x => ("L",
            [⟨"Clients", b.clients⟩, ⟨"MergeRate", b.mergeRate⟩, ⟨"StreamRate", b.streamRate⟩],
            .sample (x.toFloat / 1000000))) ∧
        report.metadata = [] ∧ report.footnotes = [] ∧
        report.tally = ⟨lines.length, (blocks.map fun b => b.samples.length).sum, 0,
          lines.countP fun l => isBlankLine l.1.toList, 0, 0⟩ := by
  intro blocks lines
  have hwritten : IsWritten blocks lines := by
    rw [IsWritten]
    decide +kernel
  have hnewline : ∀ l ∈ lines, '\n' ∉ l.1.toList := by
    decide +kernel
  have hlength : ∀ b ∈ blocks, (Text.encode b.renderHeader).length ≤
      (ReadOptions.mk .default none).limits.maxLineLength := by
    decide +kernel
  exact ⟨hwritten, blocks_are_read_back ⟨.default, none⟩ "L" blocks lines hwritten hnewline hlength⟩

end BenchReport.Paired
