import Mathlib
import BenchReport.Proofs.Report.Pairs
import BenchReport.Proofs.ResultLine.Render
import BenchReport.Proofs.Text.Supply
import BenchReport.Report.Intake

/-!
# Reports fail with their stream

The readers of `BenchReport.Report.Intake` are refused a line wherever they ask for one, and
that may be between a header and its samples, or with a line held back. Still they have one
fault only, that of the stream: if it ends, there is a report, whatever its bytes are, and if it
fails, there is none.

For single lines this is an induction on the lines that the supply gives. The reader of paired
lines is out of step with those lines: in one round it may take two of them, or only look once
more at one it has. But it has a state for every rule of reading (`BenchReport.Paired.ReadAs`) –
a header that waits for its samples is a line that has been held back, and a blank line makes no
difference to it – and in that state a rule is a round
(`BenchReport.Paired.takeIn_eq_of_readAs`).

No fault of a line gets out of a block, since its three parameters have three keys
(`BenchReport.Paired.Block.record_eq`).
-/

namespace BenchReport

open Text (Supply)
open Text.Supply (Gives)

/-- A report, unless the stream has failed. -/
def unlessFailed (failure : Option StreamFault) (report : Report) : Except ReadFault Report :=
  match failure with
  | none => .ok report
  | some fault => .error (.stream fault)

/-! ### Single lines -/

namespace SingleLine

variable {options : ReadOptions} {supply : Supply} {lines : List Text.Line}
  {failure : Option StreamFault}

theorem takeIn_eq (h : supply.Gives lines failure) (readings : List Reading) :
    takeIn options supply readings =
      unlessFailed failure (ofReadings (readings.reverse ++ lines.map (read options))) := by
  induction h generalizing readings with
  | done hnext =>
    rw [takeIn]
    split <;> simp_all [unlessFailed]
  | failed hnext =>
    rw [takeIn]
    split <;> simp_all [unlessFailed]
  | line hnext hrest ih =>
    rw [takeIn]
    split <;> simp_all

/-- **The report of a stream is read line by line.** -/
theorem readStream_eq (options : ReadOptions) (stream : Text.Stream) :
    readStream options stream = (ofStream options stream).mapError .stream := by
  rw [readStream, takeIn_eq (Supply.gives_ofStream stream), ofStream]
  cases stream.failure <;> rfl

end SingleLine

/-! ### Paired lines -/

namespace Paired

/-- **No block repeats a key**, so its measurements are made without a fault. -/
theorem Block.record_eq (name : String) (b : Block) :
    b.record name = .ok (b.measurements name) := by
  have hmake : ∀ sample, Measurement.ofParameters name b.parameters (.sample (millis sample)) =
      pure ⟨name, b.parameters, .sample (millis sample), b.nodup_keys⟩ :=
    fun sample => Measurement.ofParameters_eq_ok b.nodup_keys
  simp only [record, hmake]
  exact List.mapM_pure

/-! ### What readings add -/

/-- A report with what has been read behind it. -/
def after (name : String) (report : Report) (rs : List Reading) : Report :=
  { report with
    measurements := report.measurements ++ rs.flatMap (Reading.measurements name)
    tally := report.tally + (rs.map Reading.tally).sum }

section After

variable {name : String} {report : Report} {header line : Text.Line}

theorem after_nil : after name report [] = report := by
  simp [after]

theorem after_cons (r : Reading) (rs : List Reading) :
    after name report (r :: rs) = after name (after name report [r]) rs := by
  simp [after, add_assoc]

theorem after_empty (rs : List Reading) :
    after name .empty rs =
      { Report.empty with
        measurements := rs.flatMap (Reading.measurements name)
        tally := Tally.sum (rs.map Reading.tally) } := by
  rw [after, Tally.sum_eq]
  exact congrArg _ (zero_add _)

theorem withLine_blank (h : isBlankLine line.text = true) :
    withLine line report = after name report [.blank] := by
  simp [withLine, after, h, Reading.measurements, Reading.tally, Tally.add_def, Tally.zero]

theorem withLine_comm :
    withLine line (withLine header report) = withLine header (withLine line report) := by
  simp only [withLine]
  congr 2
  omega

theorem withMalformed_stray (h : isBlankLine line.text = false) :
    withMalformed 1 (withLine line report) = after name report [.stray line] := by
  simp [withMalformed, withLine, after, h, Reading.measurements, Reading.tally, Tally.add_def,
    Tally.zero]

theorem withMalformed_dangling (h : isBlankLine line.text = false) :
    withMalformed 1 (withLine line report) = after name report [.dangling line] :=
  withMalformed_stray h

/-- **A pair adds what it is read as**, and no fault of a line gets out of it. -/
theorem takePair_eq (hheader : isBlankLine header.text = false)
    (hline : isBlankLine line.text = false) :
    takePair name header line (withLine line (withLine header report)) =
      .ok (after name report [readPair header line]) := by
  have hkind := (readPair_kind header line).1
  rw [takePair]
  split
  · rename_i b hread
    rw [Block.record_eq, hread]
    simp [withMeasurements, withLine, after, hheader, hline, Reading.measurements, Reading.tally,
      Tally.add_def, Tally.zero, Block.measurements, Nat.add_assoc]
  · rename_i hread
    refine congrArg Except.ok ?_
    cases hpair : readPair header line with
    | block b => exact absurd hpair (hread b)
    | blank => rw [hpair] at hkind; cases hkind
    | stray line => rw [hpair] at hkind; cases hkind
    | dangling line => rw [hpair] at hkind; cases hkind
    | miscounted line n =>
      simp [withMalformed, withLine, after, hheader, hline, Reading.measurements, Reading.tally,
        Tally.add_def, Tally.zero, Nat.add_assoc]
    | faulty line fault =>
      simp [withMalformed, withLine, after, hheader, hline, Reading.measurements, Reading.tally,
        Tally.add_def, Tally.zero, Nat.add_assoc]

end After

/-! ### Rounds -/

section Rounds

variable {options : ReadOptions} {name : String} {supply rest : Supply} {report : Report}
  {header line : Text.Line} {fault : StreamFault}

theorem nextPrinted_of_end (hnext : supply.next = .ok none) :
    nextPrinted supply report = .ok (report, none) := by
  rw [nextPrinted]
  split <;> simp_all

theorem nextPrinted_of_error (hnext : supply.next = .error fault) :
    nextPrinted supply report = .error fault := by
  rw [nextPrinted]
  split <;> simp_all

theorem nextPrinted_of_line (hnext : supply.next = .ok (some (line, rest))) :
    nextPrinted supply report =
      if isBlankLine line.text then nextPrinted rest (withLine line report)
      else .ok (withLine line report, some (line, rest)) := by
  rw [nextPrinted]
  split <;> simp_all

theorem round_of_end (hnext : supply.next = .ok none) :
    round options name none supply report = .ok (.done report) := by
  simp only [round, nextHeader, nextPrinted_of_end hnext]

theorem round_of_error (hnext : supply.next = .error fault) :
    round options name none supply report = .error (.stream fault) := by
  simp only [round, nextHeader, nextPrinted_of_error hnext]

/-- A line that has been held back is the next line. -/
theorem round_of_line (hnext : supply.next = .ok (some (line, rest)))
    (hblank : isBlankLine line.text = false) :
    round options name none supply report =
      round options name (some line) rest (withLine line report) := by
  rw [round, round, nextHeader, nextHeader, nextPrinted_of_line hnext, hblank]
  rfl

theorem round_of_stray (hline : isHeader options line = false) :
    round options name (some line) supply report =
      .ok (.again none supply (withMalformed 1 report)) := by
  rw [isHeader, Bool.not_eq_false'] at hline
  simp only [round, nextHeader, hline, if_true]

/-- Behind a header, the next line that is not blank decides. -/
theorem round_of_header (hheader : isHeader options header = true) :
    round options name (some header) supply report =
      match nextPrinted supply report with
      | .error fault => .error (.stream fault)
      | .ok (report, none) => .ok (.done (withMalformed 1 report))
      | .ok (report, some (samples, supply)) =>
        if isSampleLine samples.text then
          match takePair name header samples report with
          | .error fault => .error (.line fault)
          | .ok report => .ok (.again none supply report)
        else .ok (.again (some samples) supply (withMalformed 1 report)) := by
  rw [isHeader, Bool.not_eq_true'] at hheader
  simp only [round, nextHeader, hheader]
  rfl

/-- **A blank line makes no difference** to a reader that looks for a header or for samples. -/
theorem round_of_blank {held : Option Text.Line} (hheld : ∀ h ∈ held, isHeader options h = true)
    (hnext : supply.next = .ok (some (line, rest))) (hblank : isBlankLine line.text = true) :
    round options name held supply report =
      round options name held rest (withLine line report) := by
  have hskip : nextPrinted supply report = nextPrinted rest (withLine line report) := by
    rw [nextPrinted_of_line hnext, if_pos hblank]
  cases held with
  | none => rw [round, round, nextHeader, nextHeader, hskip]
  | some header =>
    rw [round_of_header (hheld header rfl), round_of_header (hheld header rfl), hskip]

/-- What comes of a round. -/
def Round.settle (options : ReadOptions) (name : String) : Round → Except ReadFault Report
  | done report => .ok report
  | again held supply report => takeIn options name held supply report

theorem takeIn_eq_bind (held : Option Text.Line) :
    takeIn options name held supply report =
      round options name held supply report >>= Round.settle options name := by
  rw [takeIn]
  split
  · rename_i hround; rw [hround]; rfl
  · rename_i hround; rw [hround]; rfl
  · rename_i hround; rw [hround]; rfl

end Rounds

/-! ### Whole streams -/

section Streams

variable {options : ReadOptions} {name : String} {failure : Option StreamFault}

/-- A report in which a header that waits has been counted as a line. -/
def withHeld (held : Option Text.Line) (report : Report) : Report :=
  match held with
  | none => report
  | some header => withLine header report

theorem withLine_withHeld (held : Option Text.Line) (line : Text.Line) (report : Report) :
    withLine line (withHeld held report) = withHeld held (withLine line report) := by
  cases held with
  | none => rfl
  | some header => exact withLine_comm

/-- **Every rule of reading is a round of the reader**, which holds the waiting header back. -/
theorem takeIn_eq_of_readAs {header : Option Text.Line} {lines : List Text.Line}
    {rs : List Reading} (hread : ReadAs options header lines rs) {supply : Supply}
    (hgives : supply.Gives lines failure) (report : Report) :
    takeIn options name header supply (withHeld header report) =
      unlessFailed failure (after name report rs) := by
  induction hread generalizing supply report with
  | done =>
    rw [after_nil, takeIn_eq_bind, withHeld]
    rcases hgives with hnext | hnext
    · rw [round_of_end hnext]
      rfl
    · rw [round_of_error hnext]
      rfl
  | left hheader =>
    rw [takeIn_eq_bind, round_of_header hheader]
    rcases hgives with hnext | hnext
    · rw [nextPrinted_of_end hnext]
      exact congrArg Except.ok (withMalformed_dangling (isBlankLine_eq_false_of_isHeader hheader))
    · rw [nextPrinted_of_error hnext]
      rfl
  | blank hheader hblank _ ih =>
    obtain _ | _ | ⟨hnext, hrest⟩ := hgives
    rw [takeIn_eq_bind, round_of_blank hheader hnext hblank, ← takeIn_eq_bind, withLine_withHeld,
      ih hrest, after_cons, ← withLine_blank hblank]
  | expected hline _ ih =>
    obtain _ | _ | ⟨hnext, hrest⟩ := hgives
    rw [takeIn_eq_bind, round_of_line hnext (isBlankLine_eq_false_of_isHeader hline),
      ← takeIn_eq_bind]
    exact ih hrest report
  | stray hblank hline _ ih =>
    obtain _ | _ | ⟨hnext, hrest⟩ := hgives
    rw [takeIn_eq_bind, round_of_line hnext hblank, round_of_stray hline, after_cons,
      ← withMalformed_stray hblank]
    exact ih hrest _
  | samples hheader hblank hsamples _ ih =>
    obtain _ | _ | ⟨hnext, hrest⟩ := hgives
    rw [takeIn_eq_bind, round_of_header hheader, nextPrinted_of_line hnext, hblank, after_cons]
    simp only [Bool.false_eq_true, if_false, hsamples, if_true, withHeld,
      takePair_eq (isBlankLine_eq_false_of_isHeader hheader) hblank]
    exact ih hrest _
  | @dangling header line _ _ hheader hblank hsamples _ ih =>
    -- the line is held back, which is as if it had not been taken
    have hagain := ih hgives (after name report [.dangling header])
    obtain _ | _ | ⟨hnext, hrest⟩ := hgives
    rw [takeIn_eq_bind, round_of_header hheader, nextPrinted_of_line hnext, hblank, after_cons,
      ← hagain, takeIn_eq_bind none, withHeld, withHeld, round_of_line hnext hblank,
      ← takeIn_eq_bind, ← withMalformed_dangling (isBlankLine_eq_false_of_isHeader hheader)]
    simp only [Bool.false_eq_true, if_false, hsamples]
    rfl

/-- **The report of a stream is read in rounds.** -/
theorem readStream_eq (options : ReadOptions) (name : String) (stream : Text.Stream) :
    readStream options name stream = (ofStream options name stream).mapError .stream := by
  have hrounds : readStream options name stream =
      unlessFailed stream.failure (after name .empty (readings options stream.lines)) :=
    takeIn_eq_of_readAs (readAs_readings stream.lines) (Supply.gives_ofStream stream) .empty
  rw [hrounds, after_empty, ofStream]
  cases stream.failure <;> rfl

end Streams

end Paired

/-! ### Failing with the stream -/

/-- **A report fails with its stream only, and then as a whole.** A stream that ends gives the
report of all of its lines, whatever its bytes are: no fault of a line gets out of either
reader, and no block can repeat a key. A stream that fails gives its failure, whatever came
before that, and never the report of the lines in front of it. -/
theorem readers_fail_with_stream (options : ReadOptions) (name : String) (bytes : List UInt8) :
    SingleLine.readStream options (.ofBytes bytes) =
        .ok (SingleLine.ofLines options (Text.lines bytes)) ∧
      Paired.readStream options name (.ofBytes bytes) =
        .ok (Paired.ofLines options name (Text.lines bytes)) ∧
      (∀ fault, SingleLine.readStream options ⟨bytes, some fault⟩ = .error (.stream fault) ∧
        Paired.readStream options name ⟨bytes, some fault⟩ = .error (.stream fault)) ∧
      ∀ b : Paired.Block, b.record name = .ok (b.measurements name) := by
  refine ⟨?_, ?_, fun fault => ⟨?_, ?_⟩, Paired.Block.record_eq name⟩
  · rw [SingleLine.readStream_eq]
    rfl
  · rw [Paired.readStream_eq]
    rfl
  · rw [SingleLine.readStream_eq]
    rfl
  · rw [Paired.readStream_eq]
    rfl

end BenchReport
