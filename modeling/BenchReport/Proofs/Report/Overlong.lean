import Mathlib
import BenchReport.Proofs.Report.LineByLine
import BenchReport.Proofs.Report.Pairs

/-!
# Lines that are too long

A line longer than the limit is to be counted as damaged and to give nothing. Said of a line
that stands between others, the report is that of the lines before it, one damaged line, and
the report of the lines behind it: nothing of the line is used, and it takes nothing along.

A single-line report keeps to this (`BenchReport.SingleLine.ofLines_overlong`). So does a
paired-line report where a header is due, hence no pair has a header that is too long
(`BenchReport.Paired.length_le_of_isHeader`) and the rule holds of every line that is not
blank and does not come as samples to a header that waits
(`BenchReport.Paired.ofLines_overlong`). Of blank lines and of samples the length is not
asked for.
-/

namespace BenchReport

/-- The report of a damaged line. -/
def Report.ofDamaged : Report := { Report.empty with tally := Tally.damagedLine }

variable {options : ReadOptions} {line : Text.Line}

namespace SingleLine

/-- **A line that is too long is damaged**, whatever it holds. -/
theorem ofLines_overlong (a b : List Text.Line)
    (h : options.limits.maxLineLength < line.length) :
    ofLines options (a ++ line :: b) =
      ofLines options a ++ Report.ofDamaged ++ ofLines options b := by
  have hline : ofLines options [line] = Report.ofDamaged := by
    rw [ofLines, List.map_singleton, read, if_pos h]
    rfl
  rw [← List.singleton_append, ← List.append_assoc, ofLines_append, ofLines_append, hline]

end SingleLine

namespace Paired

/-- A line that is neither blank nor a header is read by itself, unless it brings samples to
a header that waits. -/
theorem readings_stray (a b : List Text.Line) (hblank : isBlankLine line.text = false)
    (hheader : isHeader options line = false)
    (hwaiting : isSampleLine line.text = true → waiting options a = none) :
    readings options (a ++ line :: b) =
      readings options a ++ .stray line :: readings options b := by
  have hb : readings options b = readFrom options none b := rfl
  rw [readings_append, readings, Progress.finish, header_foldl_feed, hb]
  cases hw : waiting options a with
  | none => rw [readFrom_cons_stray hblank hheader]
  | some header =>
    have hsamples : isSampleLine line.text = false := by
      by_contra h
      rw [hwaiting (Bool.of_not_eq_false h)] at hw
      cases hw
    rw [readFrom_some_cons header hblank hsamples, readFrom_cons_stray hblank hheader]
    simp

/-- A line that is read by itself is damaged. -/
theorem ofLines_stray (name : String) {a b : List Text.Line}
    (h : readings options (a ++ line :: b) =
      readings options a ++ .stray line :: readings options b) :
    ofLines options name (a ++ line :: b) =
      ofLines options name a ++ Report.ofDamaged ++ ofLines options name b := by
  have hmeasurements : (readings options (a ++ line :: b)).flatMap (Reading.measurements name) =
      (readings options a).flatMap (Reading.measurements name) ++ [] ++
        (readings options b).flatMap (Reading.measurements name) := by
    rw [h, List.flatMap_append, List.append_nil]
    rfl
  have htally : Tally.sum ((readings options (a ++ line :: b)).map Reading.tally) =
      Tally.sum ((readings options a).map Reading.tally) + Tally.damagedLine +
        Tally.sum ((readings options b).map Reading.tally) := by
    simp only [Tally.sum_eq, h, List.map_append, List.map_cons, List.sum_append, List.sum_cons,
      add_assoc]
    rfl
  rw [ofLines, hmeasurements, htally]
  rfl

/-- **A line that is too long is damaged**, unless it is blank or brings samples to a header
that waits. -/
theorem ofLines_overlong (name : String) (a b : List Text.Line)
    (h : options.limits.maxLineLength < line.length) (hblank : isBlankLine line.text = false)
    (hwaiting : isSampleLine line.text = true → waiting options a = none) :
    ofLines options name (a ++ line :: b) =
      ofLines options name a ++ Report.ofDamaged ++ ofLines options name b := by
  have hheader : isHeader options line = false := by
    by_contra hheader
    exact absurd (length_le_of_isHeader (Bool.of_not_eq_false hheader)) (Nat.not_le.mpr h)
  exact ofLines_stray name (readings_stray a b hblank hheader hwaiting)

end Paired

/-- **Lines that are too long give nothing.** Read either way, a line of a stream that exceeds
the limit is counted as damaged, and the rest of the report is that of the lines before it and
that of the lines behind it. In a paired-line report this holds of lines that are not blank
and do not come as samples to a header that waits: the header of a pair is within the limit,
and its samples are what comes to it. -/
theorem overlong_lines_give_nothing (options : ReadOptions) (name : String) (bytes : List UInt8) :
    let lines := Text.lines bytes
    (∀ a line b, lines = a ++ line :: b → options.limits.maxLineLength < line.length →
      SingleLine.ofStream options (.ofBytes bytes) =
        .ok (SingleLine.ofLines options a ++ Report.ofDamaged ++ SingleLine.ofLines options b)) ∧
    (∀ a line b, lines = a ++ line :: b → options.limits.maxLineLength < line.length →
      Paired.isBlankLine line.text = false →
      (Paired.isSampleLine line.text = true → Paired.waiting options a = none) →
      Paired.ofStream options name (.ofBytes bytes) =
        .ok (Paired.ofLines options name a ++ Report.ofDamaged ++
          Paired.ofLines options name b)) ∧
    ∃ report, Paired.ofStream options name (.ofBytes bytes) = .ok report ∧
      report.measurements = (Paired.pairs options lines).flatMap
        (fun pair => (Paired.readPair pair.1 pair.2).measurements name) ∧
      ∀ pair ∈ Paired.pairs options lines,
        pair.1.length ≤ options.limits.maxLineLength ∧
          ∃ a b, lines = a ++ pair.2 :: b ∧ Paired.waiting options a = some pair.1 := by
  intro lines
  refine ⟨fun a line b hlines hlong => ?_, fun a line b hlines hlong hblank hwaiting => ?_,
    Paired.ofLines options name lines, rfl, Paired.measurements_ofLines name lines,
    fun pair hpair => ⟨?_, Paired.exists_waiting_of_mem_pairs hpair⟩⟩
  · rw [← SingleLine.ofLines_overlong a b hlong, ← hlines]
    rfl
  · rw [← Paired.ofLines_overlong name a b hlong hblank hwaiting, ← hlines]
    rfl
  · exact Paired.length_le_of_isHeader (Paired.mem_pairs hpair).2.2.1

/-- A header of 45 bytes between another and samples, where 40 are allowed. -/
theorem overlong_header_gives_nothing :
    let options : ReadOptions := ⟨⟨1024, 40⟩, none⟩
    let bytes := Text.encode
      "Clients: 1, MergeRate: 2, StreamRate: 3\nClients: 1, MergeRate: 2, StreamRate: 3 items\n[5 6]\n"
    ∃ a line b, Text.lines bytes = a ++ line :: b ∧ options.limits.maxLineLength < line.length ∧
      SingleLine.ofStream options (.ofBytes bytes) =
        .ok (SingleLine.ofLines options a ++ Report.ofDamaged ++ SingleLine.ofLines options b) ∧
      Paired.ofStream options "Latency" (.ofBytes bytes) =
        .ok (Paired.ofLines options "Latency" a ++ Report.ofDamaged ++
          Paired.ofLines options "Latency" b) := by
  intro options bytes
  let line : Text.Line := ⟨2, "Clients: 1, MergeRate: 2, StreamRate: 3 items".toList⟩
  have hlines : Text.lines bytes = [⟨1, "Clients: 1, MergeRate: 2, StreamRate: 3".toList⟩] ++
      line :: [⟨3, "[5 6]".toList⟩] := by decide +kernel
  have hlong : options.limits.maxLineLength < line.length := by decide +kernel
  obtain ⟨hsingle, hpaired, -⟩ := overlong_lines_give_nothing options "Latency" bytes
  have hsamples : Paired.isSampleLine line.text = false := by decide +kernel
  exact ⟨_, line, _, hlines, hlong, hsingle _ _ _ hlines hlong,
    hpaired _ _ _ hlines hlong (by decide +kernel) (by simp [hsamples])⟩

/-- **Samples that are too long are read**: 49 bytes of them where 40 are allowed give six
measurements, and no line is damaged. -/
theorem overlong_samples_give_measurements :
    let options : ReadOptions := ⟨⟨1024, 40⟩, none⟩
    let bytes := Text.encode
      "Clients: 1, MergeRate: 2, StreamRate: 3\n[1000000 1000000 1000000 1000000 1000000 1000000]\n"
    ∃ report pair, Paired.ofStream options "Latency" (.ofBytes bytes) = .ok report ∧
      Paired.pairs options (Text.lines bytes) = [pair] ∧
      options.limits.maxLineLength < pair.2.length ∧ report.measurements.length = 6 ∧
      report.tally.malformed = 0 := by
  intro options bytes
  let pair : Text.Line × Text.Line :=
    (⟨1, "Clients: 1, MergeRate: 2, StreamRate: 3".toList⟩,
      ⟨2, "[1000000 1000000 1000000 1000000 1000000 1000000]".toList⟩)
  have hpair : Paired.pairs options (Text.lines bytes) = [pair] := by decide +kernel
  exact ⟨_, pair, rfl, hpair, by decide +kernel, by decide +kernel, by decide +kernel⟩

end BenchReport
