import Mathlib
import BenchReport.Proofs.Binary64.Arithmetic
import BenchReport.Workload.Zipf

/-!
# Draws end

A draw goes on until a candidate is kept, so that it ends hangs on one rank for which no
random number is too great: the first. Its power is the base itself, so what is compared is
`v (b - 1) / (b - 1)` with `b / b`, and a random number `v` is at most one. In doubles this
needs two things of the base: it is greater than one, and it is finite. Of a valid skew the
first always holds and the second exactly below `1025`
(`BenchReport.Zipf.exponent_lt_iff`); from there on the base is infinite, `b / b` is no
number, and no comparison with it is true.

| skew | a candidate of the first rank | theorem |
|---|---|---|
| above one and below `1025` | is kept | `BenchReport.Zipf.accepts_one_iff` |
| finite and at least `1025` | is rejected | `BenchReport.Zipf.accepts_one_iff` |

Below `1025` a draw therefore ends with any words that have the first rank for a candidate
(`BenchReport.Zipf.draws_end_at_first_rank`), and a workload with as many of them as it has
items. A number of attempts is what a draw is given to end within; that it ends is said by a
result which is the same for all greater numbers.

Powers are a parameter, and what is asked of them is `BenchReport.Zipf.IsPowerOfTwo`: it is
what powers of two give when they are rounded to doubles.
-/

namespace BenchReport.Zipf

open Binary64

/-! ### Numbers that are written down -/

section Literals

theorem value_1024 : value 1024 = 1024 :=
  (value_of_unpack (2 ^ 52) (-42) rfl).trans (by norm_num)

theorem value_1025 : value 1025 = 1025 :=
  (value_of_unpack (1025 * 2 ^ 42) (-42) rfl).trans (by norm_num)

/-- The gap between one and the next double. -/
theorem value_gap : value 2.220446049250313e-16 = 2 ^ (-52 : ℤ) :=
  (value_of_unpack (2 ^ 52) (-104) rfl).trans (by norm_num)

/-- The unit of random numbers. -/
theorem value_unit : value 1.1102230246251565e-16 = 2 ^ (-53 : ℤ) :=
  (value_of_unpack (2 ^ 52) (-105) rfl).trans (by norm_num)

end Literals

/-! ### Random numbers -/

/-- The upper bits of a word. -/
theorem shiftRight_lt (word : UInt64) : (word >>> 11).toNat < 2 ^ 53 := by
  have := word.toNat_lt
  rw [UInt64.toNat_shiftRight, show (11 : UInt64).toNat % 64 = 11 from rfl,
    Nat.shiftRight_eq_div_pow]
  omega

/-- **A random number is a fraction of 53 digits.** -/
theorem value_unitFloat (word : UInt64) : (Random.unitFloat word).isFinite = true ∧
    value (Random.unitFloat word) = (word >>> 11).toNat * 2 ^ (-53 : ℤ) := by
  have hlt := shiftRight_lt word
  have hself : ∀ e : ℤ, -1074 ≤ e →
      rounded ((word >>> 11).toNat * 2 ^ e) = (word >>> 11).toNat * 2 ^ e := fun e he => by
    refine rounded_eq_self ?_
    rw [abs_of_nonneg (mul_nonneg (Nat.cast_nonneg _) (two_zpow_pos e).le)]
    exact ⟨_, e, hlt, he, rfl⟩
  -- the whole number is a double, and so is its product with the unit
  have hwhole : rounded (word >>> 11).toNat = (word >>> 11).toNat := by
    simpa using hself 0 (by norm_num)
  obtain ⟨hfinite, hvalue⟩ := (roundsTo_toFloat (word >>> 11)).finite (by
    rw [hwhole, abs_of_nonneg (Nat.cast_nonneg _)]
    calc ((word >>> 11).toNat : ℚ) < 2 ^ 53 := mod_cast hlt
      _ ≤ overflow := zpow_le_zpow_right₀ (m := 53) one_le_two (by norm_num))
  have hproduct := roundsTo_mul hfinite (y := 1.1102230246251565e-16) rfl
  rw [hvalue, hwhole, value_unit] at hproduct
  have hle : |((word >>> 11).toNat : ℚ) * 2 ^ (-53 : ℤ)| ≤ |value 1| := by
    rw [value_one, abs_one, abs_of_nonneg (mul_nonneg (Nat.cast_nonneg _) (two_zpow_pos _).le),
      zpow_neg, ← div_eq_mul_inv, div_le_one (two_zpow_pos 53)]
    exact_mod_cast hlt.le
  obtain ⟨hfinite', hvalue'⟩ := hproduct.of_abs_le rfl hle
  exact ⟨hfinite', hvalue'.trans (hself (-53) (by norm_num))⟩

/-- A random number lies in the unit interval. -/
theorem value_unitFloat_mem (word : UInt64) :
    0 ≤ value (Random.unitFloat word) ∧ value (Random.unitFloat word) ≤ 1 := by
  have hlt : (word >>> 11).toNat ≤ 2 ^ 53 := (shiftRight_lt word).le
  rw [(value_unitFloat word).2]
  refine ⟨mul_nonneg (Nat.cast_nonneg _) (two_zpow_pos _).le, ?_⟩
  rw [zpow_neg, ← div_eq_mul_inv, div_le_one (two_zpow_pos 53)]
  exact_mod_cast hlt

/-! ### The chance of the first rank -/

/-- The least double above one is one and the gap behind it. -/
theorem gap_le_sub_one {x : Float} (hx : x.isFinite = true) (h : 1 < value x) :
    2 ^ (-52 : ℤ) ≤ value x - 1 := by
  have hgrid := onGrid_value hx
  rw [abs_of_pos (zero_lt_one.trans h)] at hgrid
  have hone : (1 : ℚ) = (2 ^ 52 : ℕ) * 2 ^ (-52 : ℤ) := by norm_num
  have hgap := hgrid.add_le_of_lt (k := -52) (m := 2 ^ 52) (by simpa using h.le) (hone ▸ h)
  rw [← hone] at hgap
  linarith

/-- What is left of a double above one is not less than the gap. -/
theorem gap_le_value_sub_one {x : Float} (hx : x.isFinite = true) (h : 1 < value x) :
    (x - 1).isFinite = true ∧ value (x - 1) = rounded (value x - 1) ∧
      2 ^ (-52 : ℤ) ≤ value (x - 1) := by
  have hgap := gap_le_sub_one hx h
  obtain ⟨hfinite, hvalue⟩ := (roundsTo_sub hx (y := 1) rfl).of_abs_le hx (by
    rw [value_one, abs_of_pos (sub_pos.mpr h), abs_of_pos (zero_lt_one.trans h)]
    linarith)
  rw [value_one] at hvalue
  refine ⟨hfinite, hvalue, ?_⟩
  have hself : rounded (2 ^ (-52 : ℤ)) = 2 ^ (-52 : ℤ) :=
    rounded_eq_self ⟨1, -52, by norm_num, by norm_num, by simp⟩
  rw [hvalue, ← hself]
  exact rounded_mono hgap

/-- **A random number is at most one**, and it stays so when it is multiplied and divided by
what a base above one leaves to one. -/
theorem mul_sub_div_sub_le {v b : Float} (hv : v.isFinite = true) (h0 : 0 ≤ value v)
    (h1 : value v ≤ 1) (hb : b.isFinite = true) (hlt : 1 < value b) :
    v * 1 * (b - 1) / (b - 1) ≤ b / b := by
  have hone : Float.isFinite 1 = true := rfl
  obtain ⟨hy, -, hgap⟩ := gap_le_value_sub_one hb hlt
  have hypos : 0 < value (b - 1) := (two_zpow_pos _).trans_le hgap
  -- the product is at most what is left of the base
  obtain ⟨hvone, hvvalue⟩ := (roundsTo_mul hv hone).of_abs_le hv (by rw [value_one, mul_one])
  rw [value_one, mul_one, rounded_value hv] at hvvalue
  have hproduct : 0 ≤ value v * value (b - 1) := mul_nonneg h0 hypos.le
  have hproduct' : value v * value (b - 1) ≤ value (b - 1) := mul_le_of_le_one_left hypos.le h1
  obtain ⟨hz, hzvalue⟩ := (roundsTo_mul hvone hy).of_abs_le hy (by
    rw [hvvalue, abs_of_nonneg hproduct, abs_of_pos hypos]
    exact hproduct')
  rw [hvvalue] at hzvalue
  have hz0 : 0 ≤ value (v * 1 * (b - 1)) := hzvalue ▸ rounded_nonneg hproduct
  have hzle : value (v * 1 * (b - 1)) ≤ value (b - 1) :=
    hzvalue ▸ (rounded_mono hproduct').trans (rounded_value hy).le
  -- so the quotient is at most one, and one is what the base gives
  have hquotient : value (v * 1 * (b - 1)) / value (b - 1) ≤ 1 := (div_le_one hypos).mpr hzle
  obtain ⟨hq, hqvalue⟩ := (roundsTo_div hz hy hypos.ne').of_abs_le hone (by
    rw [value_one, abs_one, abs_of_nonneg (div_nonneg hz0 hypos.le)]
    exact hquotient)
  have hbne : value b ≠ 0 := (zero_lt_one.trans hlt).ne'
  have hself := roundsTo_div hb hb hbne
  rw [div_self hbne] at hself
  obtain ⟨ht, htvalue⟩ := hself.of_abs_le hone (by rw [value_one])
  rw [le_iff hq ht, hqvalue, htvalue]
  exact rounded_mono hquotient

/-! ### The first rank is kept -/

/-- What is said of powers of two: they are greater than one from the gap behind one on,
finite below `1024`, and infinite from there on. -/
structure IsPowerOfTwo (power : Float → Float → Float) : Prop where
  /-- A power with an exponent of at least the gap behind one is greater than one. -/
  one_lt : ∀ e, 2.220446049250313e-16 ≤ e → 1 < power 2 e
  /-- A power with an exponent below `1024` is finite. -/
  isFinite : ∀ e, e < 1024 → (power 2 e).isFinite = true
  /-- Every greater exponent has an infinite power. -/
  infinite : ∀ e, 1024 ≤ e → power 2 e = Float.inf

/-- What draws of a valid skew are made with. -/
def samplerOf (power : Float → Float → Float) (skew : Float) : Sampler :=
  ⟨power, skew - 1, power 2 (skew - 1)⟩

section Accept

variable {power : Float → Float → Float} {skew : Float}

theorem ofSkew?_of_isValidSkew (power : Float → Float → Float) (h : isValidSkew skew = true) :
    Sampler.ofSkew? power skew = .ok (samplerOf power skew) := if_pos h

/-- A valid skew is a finite number greater than one. -/
theorem one_lt_value_of_isValidSkew (h : isValidSkew skew = true) :
    skew.isFinite = true ∧ 1 < value skew := by
  rw [isValidSkew, Bool.and_eq_true, decide_eq_true_eq] at h
  refine ⟨h.1, ?_⟩
  rw [← value_one]
  exact (lt_iff rfl h.1).mp h.2

/-- The exponent of a sampler is at least the gap behind one. -/
theorem gap_le_exponent (h : isValidSkew skew = true) : 2.220446049250313e-16 ≤ skew - 1 := by
  obtain ⟨hfinite, hlt⟩ := one_lt_value_of_isValidSkew h
  obtain ⟨hfinite', -, hgap⟩ := gap_le_value_sub_one hfinite hlt
  rw [le_iff rfl hfinite', value_gap]
  exact hgap

/-- The greatest double below `1025` leaves the greatest below `1024`. -/
theorem sub_one_le_of_lt {x : Float} (hx : x.isFinite = true) (h : 1 < value x)
    (hlt : value x < 1025) : value x - 1 ≤ 1024 - 2 ^ (-42 : ℤ) := by
  rcases lt_or_ge (value x) 1024 with hsmall | hlarge
  · have hgap : (2 : ℚ) ^ (-42 : ℤ) ≤ 1 := zpow_le_one_of_nonpos₀ one_le_two (by norm_num)
    linarith
  · have hgrid := onGrid_value hx
    rw [abs_of_pos (zero_lt_one.trans h)] at hgrid
    have hbound : (1025 : ℚ) = (1025 * 2 ^ 42 : ℕ) * 2 ^ (-42 : ℤ) := by norm_num
    have hgap := hgrid.le_sub_of_lt (k := -42) (m := 1025 * 2 ^ 42) (by norm_num; exact hlarge)
      (hbound ▸ hlt)
    rw [← hbound] at hgap
    linarith

/-- **The exponent is below `1024` exactly if the skew is below `1025`.** -/
theorem exponent_lt_iff (h : isValidSkew skew = true) : skew - 1 < 1024 ↔ skew < 1025 := by
  obtain ⟨hfinite, hlt⟩ := one_lt_value_of_isValidSkew h
  obtain ⟨hfinite', hvalue, -⟩ := gap_le_value_sub_one hfinite hlt
  rw [lt_iff hfinite' rfl, lt_iff hfinite rfl, hvalue, value_1024, value_1025]
  constructor
  · intro hexponent
    by_contra hle
    have hself : rounded 1024 = 1024 := rounded_eq_self ⟨1024, 0, by norm_num, by norm_num, by simp⟩
    have hround := rounded_mono (show 1024 ≤ value skew - 1 by linarith)
    linarith
  · intro hskew
    have hself : rounded (1024 - 2 ^ (-42 : ℤ)) = 1024 - 2 ^ (-42 : ℤ) :=
      rounded_eq_self ⟨2 ^ 52 - 1, -42, by norm_num, by norm_num, by norm_num [abs_of_pos]⟩
    calc rounded (value skew - 1) ≤ rounded (1024 - 2 ^ (-42 : ℤ)) :=
          rounded_mono (sub_one_le_of_lt hfinite hlt hskew)
      _ = 1024 - 2 ^ (-42 : ℤ) := hself
      _ < 1024 := sub_lt_self _ (two_zpow_pos _)

/-- The chance of the first rank, written out. -/
theorem accepts_one (power : Float → Float → Float) (e random : Float) :
    Sampler.accepts ⟨power, e, power 2 e⟩ 1 random =
      decide (random * 1 * (power 2 e - 1) / (power 2 e - 1) ≤ power 2 e / power 2 e) := by
  have hx : (1 : UInt64).toFloat = 1 := rfl
  have htwo : (1 + 1 / 1 : Float) = 2 := by decide +kernel
  rw [Sampler.accepts, hx, htwo]

/-- **The first rank is always kept, or never**: where the base is finite it is kept, and an
infinite base leaves no number to compare with. -/
theorem accepts_one_iff (hpower : IsPowerOfTwo power) (h : isValidSkew skew = true)
    (word : UInt64) :
    (samplerOf power skew).accepts 1 (Random.unitFloat word) = true ↔ skew < 1025 := by
  rw [samplerOf, accepts_one, decide_eq_true_iff]
  by_cases hskew : skew < 1025
  · refine iff_of_true ?_ hskew
    have hfinite := hpower.isFinite _ ((exponent_lt_iff h).mpr hskew)
    have hlt := hpower.one_lt _ (gap_le_exponent h)
    rw [lt_iff rfl hfinite, value_one] at hlt
    obtain ⟨h0, h1⟩ := value_unitFloat_mem word
    exact mul_sub_div_sub_le (value_unitFloat word).1 h0 h1 hfinite hlt
  · refine iff_of_false ?_ hskew
    have hle : 1024 ≤ skew - 1 := by
      obtain ⟨hfinite, hlt⟩ := one_lt_value_of_isValidSkew h
      have hfinite' := (gap_le_value_sub_one hfinite hlt).1
      rw [← exponent_lt_iff h, lt_iff hfinite' rfl, not_lt] at hskew
      exact (le_iff rfl hfinite').mpr hskew
    rw [hpower.infinite _ hle]
    exact not_le_of_unpack_eq rfl

end Accept

/-! ### Draws from a stream -/

section Draws

variable {σ : Type} [Random.WordSource σ]

/-- The state after the words of a number of attempts. -/
def stateAfter : ℕ → σ → σ
  | 0, state => state
  | n + 1, state => stateAfter n (Random.nextFloat (Random.nextFloat state).2).2

namespace Sampler

/-- The candidate of an attempt, the first of them counted as zero. -/
def candidateAt (s : Sampler) (n : ℕ) (state : σ) : Option UInt64 :=
  s.candidate? (Random.nextFloat (stateAfter n state)).1

/-- How many of the first attempts have the first rank for a candidate. -/
def onesWithin (s : Sampler) (n : ℕ) (state : σ) : ℕ :=
  (List.range n).countP fun k => s.candidateAt k state = some 1

theorem onesWithin_pos {s : Sampler} {n : ℕ} {state : σ} (h : s.candidateAt n state = some 1) :
    0 < s.onesWithin (n + 1) state :=
  List.countP_pos_iff.mpr ⟨n, List.mem_range.mpr n.lt_succ_self, decide_eq_true h⟩

/-- Whether the first rank is kept whenever it is a candidate. -/
def KeepsOnes (s : Sampler) : Prop :=
  ∀ first second : UInt64, s.candidate? (Random.unitFloat first) = some 1 →
    s.attempt? (Random.unitFloat first) (Random.unitFloat second) = some 1

variable {s : Sampler}

theorem onesWithin_succ (n : ℕ) (state : σ) :
    s.onesWithin (n + 1) state =
      s.onesWithin n (stateAfter 1 state) +
        if s.candidate? (Random.nextFloat state).1 = some 1 then 1 else 0 := by
  rw [onesWithin, List.range_succ_eq_map, List.countP_cons, List.countP_map]
  simp only [decide_eq_true_eq]
  rfl

/-- **A draw ends at the latest where the first rank is a candidate**, and it leaves all later
attempts to the draws after it. -/
theorem exists_draw (h : s.KeepsOnes) {n : ℕ} {state : σ} (hn : 0 < s.onesWithin n state) :
    ∃ k < n, ∃ rank, (∀ attempts, k < attempts →
        s.draw attempts state = some (rank, stateAfter (k + 1) state)) ∧
      s.onesWithin n state ≤ s.onesWithin (n - (k + 1)) (stateAfter (k + 1) state) + 1 := by
  induction n generalizing state with
  | zero => exact absurd hn (lt_irrefl 0)
  | succ n ih =>
    rw [onesWithin_succ] at hn ⊢
    cases hattempt : s.attempt? (Random.nextFloat state).1
        (Random.nextFloat (Random.nextFloat state).2).1 with
    | some rank =>
      refine ⟨0, n.succ_pos, rank, fun attempts hattempts => ?_, ?_⟩
      · obtain ⟨attempts, rfl⟩ := Nat.exists_eq_succ_of_ne_zero hattempts.ne'
        rw [draw]
        simp only [hattempt]
        rfl
      · rw [zero_add, Nat.add_sub_cancel]
        split <;> omega
    | none =>
      -- what is rejected was not the first rank
      have hcandidate : s.candidate? (Random.nextFloat state).1 ≠ some 1 := fun hone =>
        absurd ((h _ _ hone).symm.trans hattempt) (by simp)
      rw [if_neg hcandidate, Nat.add_zero] at hn ⊢
      obtain ⟨k, hk, rank, hdraw, hones⟩ := ih hn
      refine ⟨k + 1, Nat.succ_lt_succ hk, rank, fun attempts hattempts => ?_, ?_⟩
      · obtain ⟨attempts, rfl⟩ := Nat.exists_eq_succ_of_ne_zero (Nat.zero_lt_of_lt hattempts).ne'
        rw [draw]
        simp only [hattempt]
        exact hdraw attempts (Nat.lt_of_succ_lt_succ hattempts)
      · rw [Nat.add_sub_add_right]
        exact hones

/-- **As many draws end as there are candidates of the first rank.** -/
theorem exists_drawBehind (h : s.KeepsOnes) (size : ℕ) (drawn : List UInt64) {n : ℕ} {state : σ}
    (hn : size ≤ s.onesWithin n state) :
    ∃ ranks state', ∀ attempts, n ≤ attempts →
      s.drawBehind attempts size drawn state = some (ranks, state') := by
  induction size generalizing drawn n state with
  | zero => exact ⟨_, _, fun _ _ => rfl⟩
  | succ size ih =>
    obtain ⟨k, hk, rank, hdraw, hones⟩ := exists_draw h (Nat.zero_lt_of_lt hn)
    obtain ⟨ranks, state', hrest⟩ := ih (rank :: drawn)
      (Nat.le_of_succ_le_succ (hn.trans hones))
    refine ⟨ranks, state', fun attempts hattempts => ?_⟩
    rw [drawBehind, hdraw attempts (hk.trans_le hattempts)]
    exact hrest attempts ((Nat.sub_le ..).trans hattempts)

end Sampler

end Draws

section Ends

variable {power : Float → Float → Float}

/-- A configuration without a fault has a valid skew. -/
theorem isValidSkew_of_fault? {config : ZipfConfig} (h : fault? config = none) :
    isValidSkew config.skew = true := by
  rw [fault?] at h
  by_contra hskew
  rw [if_pos (by simp [hskew])] at h
  cases h

/-- **Draws end where the first rank is a candidate**, as long as the skew is below `1025`. -/
theorem draws_end_at_first_rank (hpower : IsPowerOfTwo power) {config : ZipfConfig}
    (hconfig : fault? config = none) :
    ∃ s, Sampler.ofSkew? power config.skew = .ok s ∧
      (∀ first second : UInt64, s.candidate? (Random.unitFloat first) = some 1 →
        (s.attempt? (Random.unitFloat first) (Random.unitFloat second) = some 1 ↔
          config.skew < 1025)) ∧
      (config.skew < 1025 → ∀ {σ : Type} [Random.WordSource σ] (state : σ),
        (∀ n, s.candidateAt n state = some 1 → ∃ rank state', ∀ attempts, n < attempts →
          s.draw attempts state = some (rank, state')) ∧
        ∀ n, config.size ≤ s.onesWithin n state → ∃ items state', ∀ attempts, n ≤ attempts →
          generate power attempts config state = .ok (items, state')) := by
  have hskew := isValidSkew_of_fault? hconfig
  have hsampler := ofSkew?_of_isValidSkew power hskew
  have hattempt : ∀ first second : UInt64,
      (samplerOf power config.skew).candidate? (Random.unitFloat first) = some 1 →
      ((samplerOf power config.skew).attempt? (Random.unitFloat first)
        (Random.unitFloat second) = some 1 ↔ config.skew < 1025) := by
    intro first second hone
    rw [Sampler.attempt?, hone, ← accepts_one_iff hpower hskew second, Option.filter_some]
    simp
  refine ⟨_, hsampler, hattempt, fun hlt σ _ state => ?_⟩
  have hkeeps : (samplerOf power config.skew).KeepsOnes := fun first second hone =>
    (hattempt first second hone).mpr hlt
  refine ⟨fun n hone => ?_, fun n hsize => ?_⟩
  · obtain ⟨k, hk, rank, hdraw, -⟩ := Sampler.exists_draw hkeeps (Sampler.onesWithin_pos hone)
    exact ⟨rank, _, fun attempts hattempts => hdraw attempts (by omega)⟩
  · obtain ⟨ranks, state', hdraws⟩ := Sampler.exists_drawBehind hkeeps config.size [] hsize
    refine ⟨ranks.map (itemOf config.distinct), state', fun attempts hattempts => ?_⟩
    rw [generate, hconfig, hsampler]
    simp only [Sampler.drawMany, hdraws attempts hattempts]

/-- A power function for skews of `2` and `1025`, as far as draws from words that are zero
ask for it: the powers of one, the first power of two and its infinite powers, and inverses. -/
def fewPowers (x e : Float) : Float :=
  if x = 2 then if 1024 ≤ e then Float.inf else 2 else if e = -1 then 1 / x else 1

theorem isPowerOfTwo_fewPowers : IsPowerOfTwo fewPowers where
  one_lt e _ := by
    rw [fewPowers, if_pos rfl]
    split <;> decide +kernel
  isFinite e h := by
    rw [fewPowers, if_pos rfl, if_neg (not_le_of_lt h)]
    rfl
  infinite e h := by rw [fewPowers, if_pos rfl, if_pos h]

/-- Two items of five under a skew of two: the first words give the first rank, and so do
the words behind them. -/
theorem draws_end_of_two_zeros :
    fault? ⟨2, 5, 2⟩ = none ∧ ∃ items state', ∀ attempts, 2 ≤ attempts →
      generate fewPowers attempts ⟨2, 5, 2⟩ (Random.Scripted.ofList [0, 7, 0, 7]) =
        .ok (items, state') := by
  have hconfig : fault? ⟨2, 5, 2⟩ = none := rfl
  obtain ⟨s, hs, -, hends⟩ := draws_end_at_first_rank isPowerOfTwo_fewPowers hconfig
  obtain rfl : samplerOf fewPowers 2 = s := Except.ok.inj hs
  refine ⟨hconfig, (hends (by decide +kernel) _).2 2 ?_⟩
  decide +kernel

theorem nextFloat_cons (word : UInt64) (words : List UInt64) (mixed : UInt64) (taken : ℕ) :
    Random.nextFloat (⟨word :: words, mixed, taken⟩ : Random.Scripted) =
      (Random.unitFloat word, ⟨words, mixed, taken + 1⟩) := rfl

/-- Where an attempt with words that are zero fails, no such words make a draw end. -/
theorem Sampler.draw_eq_none_of_zeros {s : Sampler}
    (h : s.attempt? (Random.unitFloat 0) (Random.unitFloat 0) = none) (attempts : ℕ)
    (mixed : UInt64) (taken : ℕ) :
    s.draw attempts (⟨List.replicate (2 * attempts) 0, mixed, taken⟩ : Random.Scripted) = none := by
  induction attempts generalizing taken with
  | zero => rfl
  | succ attempts ih =>
    rw [draw, Nat.mul_succ, List.replicate_succ, List.replicate_succ]
    simp only [nextFloat_cons, h]
    exact ih _

/-- **A skew of `1025` is valid, and no draw of it ends**: from words that are zero the first
rank is the candidate of every attempt, and none of them keeps it. -/
theorem draws_of_zeros_do_not_end :
    isValidSkew 1025 = true ∧ ∃ s, Sampler.ofSkew? fewPowers 1025 = .ok s ∧
      s.candidate? (Random.unitFloat 0) = some 1 ∧
      s.attempt? (Random.unitFloat 0) (Random.unitFloat 0) = none ∧
      ∀ attempts, s.draw attempts
        (Random.Scripted.ofList (List.replicate (2 * attempts) 0)) = none := by
  have hnone : (samplerOf fewPowers 1025).attempt? (Random.unitFloat 0) (Random.unitFloat 0) =
      none := by decide +kernel
  exact ⟨by decide +kernel, samplerOf fewPowers 1025, rfl, by decide +kernel, hnone,
    fun attempts => Sampler.draw_eq_none_of_zeros hnone attempts 0 0⟩

end Ends

end BenchReport.Zipf
