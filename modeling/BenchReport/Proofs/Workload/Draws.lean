import Mathlib
import BenchReport.Proofs.Binary64.Infinity
import BenchReport.Proofs.Binary64.Whole
import BenchReport.Proofs.Workload.Zipf

/-!
# Draws are decided by the words

A sampler hands its random source on from draw to draw, and how often a draw tries is known
only when it ends. What is drawn can nevertheless be said without any of this. The words of a
source (`BenchReport.Random.words`) are read in pairs, each pair is an attempt, and an attempt
gives a rank or gives none (`BenchReport.Zipf.Sampler.attemptAt`). The **draw sequence** is made of
the ranks that the attempts give, in their order: `BenchReport.Zipf.Sampler.ranksWithin` is what
the first of them have given so far. Draws only cut this sequence into pieces:

* a draw takes the attempts up to the first that gives a rank
  (`BenchReport.Zipf.Sampler.draw_eq_some_iff`);
* many draws take the attempts up to the last rank they need
  (`BenchReport.Zipf.Sampler.exists_needs`);
* a workload has the items of these ranks (`BenchReport.Zipf.generate_eq_ok_iff`).

So a range of items enters only after everything is drawn, and a shorter workload stops
earlier in the same sequence.
-/

namespace BenchReport

/-! ### The words of a source -/

namespace Random

variable {σ : Type} [WordSource σ]

/-- The state after a number of words. -/
def after : ℕ → σ → σ
  | 0, state => state
  | n + 1, state => after n (WordSource.next state).2

/-- **The words that a state gives**, the first of them counted as zero. -/
def words (state : σ) (n : ℕ) : UInt64 := (WordSource.next (after n state)).1

theorem after_after (m n : ℕ) (state : σ) : after n (after m state) = after (m + n) state := by
  induction m generalizing state with
  | zero => rw [Nat.zero_add, after]
  | succ m ih => rw [Nat.succ_add, after, after, ih]

theorem words_after (m : ℕ) (state : σ) : words (after m state) = fun n => words state (m + n) := by
  funext n
  rw [words, words, after_after]

/-- A source that counts its words counts those that are taken. -/
theorem Scripted.taken_after (n : ℕ) (state : Scripted) :
    (after n state).taken = state.taken + n := by
  have hnext : ∀ s : Scripted, (WordSource.next s).2.taken = s.taken + 1 := by
    rintro ⟨_ | ⟨word, rest⟩, mixed, taken⟩ <;> rfl
  induction n generalizing state with
  | zero => rfl
  | succ n ih => rw [after, ih, hnext, Nat.add_assoc, Nat.add_comm 1]

end Random

namespace Zipf

open Binary64

/-! ### Ranks are words that a double holds -/

/-- The value of the greatest rank. -/
theorem value_maxRank : value maxRank = 2 ^ 53 :=
  (value_of_unpack (2 ^ 52) 1 rfl).trans (by norm_num)

namespace Sampler

/-- **A candidate lies between one and the greatest rank**, so that one may be taken from it:
what is cut off a double in this range leaves it there. -/
theorem candidate?_mem {s : Sampler} {random : Float} {rank : UInt64}
    (h : s.candidate? random = some rank) : 1 ≤ rank.toNat ∧ rank.toNat ≤ 2 ^ 53 := by
  rw [candidate?] at h
  simp only [Option.ite_none_right_eq_some, Bool.and_eq_true, decide_eq_true_eq,
    Option.some.injEq] at h
  obtain ⟨⟨hlow, hhigh⟩, rfl⟩ := h
  generalize s.power (1 - random) (-1 / s.exponent) = x at hlow hhigh ⊢
  have hnan : x.isNaN = false := by
    by_contra hx
    exact not_le_of_isNaN (.inl (Bool.not_eq_false _ ▸ hx)) hhigh
  have hone : Float.isFinite 1 = true := rfl
  have hmax : maxRank.isFinite = true := rfl
  rw [le_iff_place_le (isNaN_of_isFinite hone) hnan, place_of_isFinite hone, value_one] at hlow
  rw [le_iff_place_le hnan (isNaN_of_isFinite hmax), place_of_isFinite hmax,
    value_maxRank] at hhigh
  have hfinite : x.isFinite = true := isFinite_of_place_mem hnan
    ((neg_lt_zero.mpr overflow_pos).trans (zero_lt_one.trans_le hlow))
    (hhigh.trans_lt (zpow_lt_zpow_right₀ (m := 53) one_lt_two (by norm_num)))
  rw [place_of_isFinite hfinite] at hlow hhigh
  have hnonneg : 0 ≤ value x := zero_le_one.trans hlow
  rw [toNat_toUInt64 hfinite hnonneg (hhigh.trans_lt (by norm_num))]
  refine ⟨Nat.le_floor (mod_cast hlow), Nat.floor_le_of_le ?_⟩
  push_cast
  exact hhigh

/-! ### The draw sequence -/

/-- **What an attempt gives**: the words are read in pairs. -/
def attemptAt (s : Sampler) (words : ℕ → UInt64) (n : ℕ) : Option UInt64 :=
  s.attempt? (Random.unitFloat (words (2 * n))) (Random.unitFloat (words (2 * n + 1)))

/-- **The draw sequence**, as far as the first attempts give it. -/
def ranksWithin (s : Sampler) (words : ℕ → UInt64) (tries : ℕ) : List UInt64 :=
  (List.range tries).filterMap (s.attemptAt words)

section Sequence

variable {s : Sampler} {words : ℕ → UInt64} {m n : ℕ}

theorem attemptAt_shift (s : Sampler) (words : ℕ → UInt64) (m n : ℕ) :
    s.attemptAt (fun k => words (2 * m + k)) n = s.attemptAt words (m + n) := by
  rw [attemptAt, attemptAt, Nat.mul_add, Nat.add_assoc]

theorem ranksWithin_add (s : Sampler) (words : ℕ → UInt64) (m n : ℕ) :
    s.ranksWithin words (m + n) =
      s.ranksWithin words m ++ s.ranksWithin (fun k => words (2 * m + k)) n := by
  rw [ranksWithin, List.range_add, List.filterMap_append, List.filterMap_map]
  refine congrArg _ (List.filterMap_congr fun k _ => ?_)
  exact (attemptAt_shift s words m k).symm

theorem ranksWithin_succ (s : Sampler) (words : ℕ → UInt64) (n : ℕ) :
    s.ranksWithin words (n + 1) = s.ranksWithin words n ++ (s.attemptAt words n).toList := by
  rw [ranksWithin, List.range_succ, List.filterMap_append]
  refine congrArg _ ?_
  rw [List.filterMap_cons, List.filterMap_nil]
  cases s.attemptAt words n <;> rfl

/-- Attempts that gave nothing stay behind when the first rank is met. -/
theorem ranksWithin_eq_nil_of_le (h : s.ranksWithin words n = []) (hle : m ≤ n) :
    s.ranksWithin words m = [] := by
  obtain ⟨k, rfl⟩ := Nat.exists_eq_add_of_le hle
  rw [ranksWithin_add] at h
  exact (List.append_eq_nil_iff.mp h).1

theorem length_ranksWithin_le (s : Sampler) (words : ℕ → UInt64) (n : ℕ) :
    (s.ranksWithin words n).length ≤ n :=
  (List.length_filterMap_le ..).trans_eq List.length_range

/-- **How many attempts a number of ranks needs**: they give these ranks, and fewer give
fewer. -/
structure Needs (s : Sampler) (words : ℕ → UInt64) (size tries : ℕ) : Prop where
  /-- The attempts give the ranks. -/
  length_eq : (s.ranksWithin words tries).length = size
  /-- Fewer attempts give fewer ranks. -/
  length_lt : ∀ n < tries, (s.ranksWithin words n).length < size

theorem Needs.le {size tries : ℕ} (h : s.Needs words size tries) : size ≤ tries :=
  h.length_eq.symm.trans_le (length_ranksWithin_le ..)

/-- What more ranks need is needed behind the first of them. -/
theorem Needs.after_first {size tries : ℕ} {rank : UInt64}
    (h : s.Needs (fun k => words (2 * (n + 1) + k)) size tries)
    (hnone : s.ranksWithin words n = []) (hfirst : s.ranksWithin words (n + 1) = [rank]) :
    s.Needs words (size + 1) (n + 1 + tries) where
  length_eq := by
    rw [ranksWithin_add, hfirst, List.length_append, h.length_eq]
    exact Nat.add_comm 1 size
  length_lt k hk := by
    rcases Nat.lt_or_ge n k with hlt | hle
    · obtain ⟨k, rfl⟩ := Nat.exists_eq_add_of_le (show n + 1 ≤ k from hlt)
      have := h.length_lt k (Nat.lt_of_add_lt_add_left hk)
      rw [ranksWithin_add, hfirst, List.length_append, List.length_singleton]
      omega
    · rw [ranksWithin_eq_nil_of_le hnone hle]
      exact size.succ_pos

/-- A rank of the draw sequence is in range. -/
theorem mem_ranksWithin {rank : UInt64} (h : rank ∈ s.ranksWithin words n) :
    1 ≤ rank.toNat ∧ rank.toNat ≤ 2 ^ 53 := by
  obtain ⟨k, -, hk⟩ := List.mem_filterMap.mp h
  rw [attemptAt, attempt?, Option.filter_eq_some_iff] at hk
  exact candidate?_mem hk.1

end Sequence

/-! ### Draws -/

section Draws

variable {σ : Type} [Random.WordSource σ] {s : Sampler} {attempts : ℕ} {state state' : σ}

/-- **A draw takes the attempts up to the first that gives a rank**, and leaves the source
behind their words. -/
theorem draw_eq_some_iff {rank : UInt64} :
    s.draw attempts state = some (rank, state') ↔
      ∃ n < attempts, s.ranksWithin (Random.words state) n = [] ∧
        s.attemptAt (Random.words state) n = some rank ∧
          Random.after (2 * (n + 1)) state = state' := by
  induction attempts generalizing state with
  | zero => simp [draw]
  | succ attempts ih =>
    have hfirst : s.attempt? (Random.nextFloat state).1
        (Random.nextFloat (Random.nextFloat state).2).1 = s.attemptAt (Random.words state) 0 := rfl
    have hleft : (Random.nextFloat (Random.nextFloat state).2).2 = Random.after 2 state := rfl
    have hone : s.ranksWithin (Random.words state) 1 =
        (s.attemptAt (Random.words state) 0).toList := ranksWithin_succ s _ 0
    rw [draw, Nat.exists_lt_succ_left]
    simp only [hfirst, hleft]
    rcases hattempt : s.attemptAt (Random.words state) 0 with _ | first
    · -- nothing is drawn yet, and the attempts that are left begin behind two words
      have hranks : ∀ n, s.ranksWithin (Random.words state) (n + 1) =
          s.ranksWithin (Random.words (Random.after 2 state)) n := fun n => by
        rw [Nat.add_comm, ranksWithin_add, hone, hattempt, Random.words_after]
        rfl
      have hnext : ∀ n, s.attemptAt (Random.words state) (n + 1) =
          s.attemptAt (Random.words (Random.after 2 state)) n := fun n => by
        rw [Random.words_after, attemptAt_shift s _ 1, Nat.add_comm]
      have hafter : ∀ n, Random.after (2 * (n + 1 + 1)) state =
          Random.after (2 * (n + 1)) (Random.after 2 state) := fun n => by
        rw [Random.after_after, Nat.mul_succ, Nat.add_comm]
      simp only [hranks, hnext, hafter, reduceCtorEq, false_and, and_false, false_or]
      exact ih
    · -- the first attempt gives a rank, so there is nothing to look for behind it
      have hsome : ∀ n, s.ranksWithin (Random.words state) (n + 1) ≠ [] := fun n hnil => by
        have hnone := ranksWithin_eq_nil_of_le hnil (Nat.le_add_left 1 n)
        rw [hone, hattempt] at hnone
        cases hnone
      simp only [hsome, false_and, and_false, exists_false, or_false]
      simp [ranksWithin]

/-- **Many draws take the attempts up to the last rank they need.** Where they end, they end on
every source with these words, and what was drawn before makes no difference. -/
theorem exists_needs {size : ℕ} {drawn ranks : List UInt64}
    (h : s.drawBehind attempts size drawn state = some (ranks, state')) :
    ∃ tries, s.Needs (Random.words state) size tries ∧
      ∀ {τ : Type} [Random.WordSource τ] (start : τ) (attempts' : ℕ) (drawn' : List UInt64),
        Random.words start = Random.words state → attempts ≤ attempts' →
        s.drawBehind attempts' size drawn' start =
          some (drawn'.reverse ++ s.ranksWithin (Random.words state) tries,
            Random.after (2 * tries) start) := by
  induction size generalizing drawn state with
  | zero =>
    refine ⟨0, ⟨rfl, fun n hn => absurd hn n.not_lt_zero⟩, ?_⟩
    intro τ _ start attempts' drawn' _ _
    rw [drawBehind, ranksWithin, List.range_zero, List.filterMap_nil, List.append_nil]
    rfl
  | succ size ih =>
    rw [drawBehind] at h
    rcases hdraw : s.draw attempts state with _ | ⟨rank, middle⟩
    · rw [hdraw] at h
      cases h
    · rw [hdraw] at h
      obtain ⟨n, hn, hnone, hsome, rfl⟩ := draw_eq_some_iff.mp hdraw
      obtain ⟨tries, hneeds, hrest⟩ := ih h
      rw [Random.words_after] at hneeds hrest
      have hfirst : s.ranksWithin (Random.words state) (n + 1) = [rank] := by
        rw [ranksWithin_succ, hnone, hsome]
        rfl
      refine ⟨n + 1 + tries, hneeds.after_first hnone hfirst, ?_⟩
      intro τ _ start attempts' drawn' hwords hattempts
      have hdraw' : s.draw attempts' start = some (rank, Random.after (2 * (n + 1)) start) :=
        draw_eq_some_iff.mpr ⟨n, hn.trans_le hattempts, hwords ▸ hnone, hwords ▸ hsome, rfl⟩
      rw [drawBehind, hdraw']
      simp only
      rw [hrest _ attempts' (rank :: drawn') (by rw [Random.words_after, hwords]) hattempts,
        Random.after_after, ranksWithin_add, hfirst, List.reverse_cons, List.append_assoc,
        Nat.mul_add 2 (n + 1)]

/-- Draws go on where the draws before them ended. -/
theorem drawBehind_add (m n : ℕ) (drawn : List UInt64) (state : σ) :
    s.drawBehind attempts (m + n) drawn state =
      (s.drawBehind attempts m drawn state).bind fun (ranks, middle) =>
        s.drawBehind attempts n ranks.reverse middle := by
  induction m generalizing drawn state with
  | zero =>
    rw [Nat.zero_add, drawBehind, Option.bind_some]
    simp only [List.reverse_reverse]
  | succ m ih =>
    rw [Nat.succ_add, drawBehind, drawBehind]
    rcases s.draw attempts state with _ | ⟨rank, middle⟩
    · rfl
    · exact ih _ _

/-- **Fewer draws give the first of the ranks.** -/
theorem drawMany_take {size n : ℕ} {ranks : List UInt64} (hle : n ≤ size)
    (h : s.drawMany attempts size state = some (ranks, state')) :
    ∃ middle, s.drawMany attempts n state = some (ranks.take n, middle) := by
  obtain ⟨k, rfl⟩ := Nat.exists_eq_add_of_le hle
  rw [drawMany, drawBehind_add, Option.bind_eq_some_iff] at h
  obtain ⟨⟨first, middle⟩, hfirst, hrest⟩ := h
  obtain ⟨tries, hneeds, hdraws⟩ := exists_needs hfirst
  obtain ⟨tries', -, hdraws'⟩ := exists_needs hrest
  have hfirst' := hfirst.symm.trans (hdraws state attempts [] rfl le_rfl)
  have hrest' := hrest.symm.trans (hdraws' middle attempts _ rfl le_rfl)
  simp only [List.reverse_nil, List.nil_append, List.reverse_reverse, Option.some.injEq,
    Prod.mk.injEq] at hfirst' hrest'
  refine ⟨middle, ?_⟩
  rw [drawMany, hfirst, hrest'.1, List.take_left' (hfirst'.1 ▸ hneeds.length_eq)]

end Draws

end Sampler

/-! ### Workloads -/

section Workloads

variable {power : Float → Float → Float} {skew : Float} {size attempts : ℕ} {distinct : UInt64}
  {items : List UInt64} {σ : Type} [Random.WordSource σ] {state state' : σ}

/-- **A workload has the items of the ranks that are drawn**, and nothing else comes into it. -/
theorem generate_eq_ok_iff :
    generate power attempts ⟨size, distinct, skew⟩ state = .ok (items, state') ↔
      isValidSkew skew = true ∧ distinct ≠ 0 ∧
        ∃ ranks, (samplerOf power skew).drawMany attempts size state = some (ranks, state') ∧
          ranks.map (itemOf distinct) = items := by
  rw [generate, fault?]
  by_cases hskew : isValidSkew skew = true
  · by_cases hdistinct : distinct = 0
    · simp [hskew, hdistinct]
    · rw [if_neg (by simp [hskew]), if_neg hdistinct, ofSkew?_of_isValidSkew power hskew]
      simp only
      rcases (samplerOf power skew).drawMany attempts size state with _ | ⟨ranks, middle⟩
      · simp
      · simp [hskew, hdistinct, and_comm]
  · simp [hskew]

/-- The item of a rank, counted. -/
theorem toNat_itemOf {rank : UInt64} (h : 1 ≤ rank.toNat) (distinct : UInt64) :
    (itemOf distinct rank).toNat = (rank.toNat - 1) % distinct.toNat := by
  have hle : (1 : UInt64) ≤ rank := UInt64.le_iff_toNat_le.mpr h
  rw [itemOf, UInt64.toNat_mod, UInt64.toNat_sub_of_le _ _ hle]
  rfl

/-- A range that divides another folds its items once more. -/
theorem itemOf_mod {divisor : UInt64} (h : divisor.toNat ∣ distinct.toNat) (rank : UInt64) :
    itemOf distinct rank % divisor = itemOf divisor rank := by
  rw [itemOf, itemOf, ← UInt64.toNat_inj, UInt64.toNat_mod, UInt64.toNat_mod, UInt64.toNat_mod,
    Nat.mod_mod_of_dvd _ h]

/-- **A workload is the draw sequence, folded into its range.** The sequence is one of the words
alone, its ranks count from one, and a workload that is generated has the items of as many of
them as it is long; behind it the source has given the words of the attempts that these ranks
need, two for each. Any source with these words gives the same ranks for any range, with any
greater number of attempts. So a range that divides another has the items of the other, folded
once more, and a shorter workload has the first of the items. -/
theorem workload_is_of_draw_sequence
    (h : generate power attempts ⟨size, distinct, skew⟩ state = .ok (items, state')) :
    ∃ tries,
      let s := samplerOf power skew
      let ranks := s.ranksWithin (Random.words state) tries
      Sampler.ofSkew? power skew = .ok s ∧
        s.drawMany attempts size state = some (ranks, state') ∧
        (∀ rank ∈ ranks, 1 ≤ rank.toNat ∧ rank.toNat ≤ 2 ^ 53) ∧
        items.length = size ∧ (∀ item ∈ items, item < distinct) ∧
        items.map UInt64.toNat = ranks.map (fun rank => (rank.toNat - 1) % distinct.toNat) ∧
        s.Needs (Random.words state) size tries ∧ size ≤ tries ∧
        state' = Random.after (2 * tries) state ∧
        (∀ {τ : Type} [Random.WordSource τ] (start : τ) (attempts' : ℕ) (distinct' : UInt64),
          Random.words start = Random.words state → attempts ≤ attempts' → distinct' ≠ 0 →
          generate power attempts' ⟨size, distinct', skew⟩ start =
            .ok (ranks.map (itemOf distinct'), Random.after (2 * tries) start)) ∧
        (∀ divisor : UInt64, divisor.toNat ∣ distinct.toNat →
          generate power attempts ⟨size, divisor, skew⟩ state =
            .ok (items.map (· % divisor), state')) ∧
        ∀ n ≤ size, ∃ middle,
          generate power attempts ⟨n, distinct, skew⟩ state = .ok (items.take n, middle) := by
  obtain ⟨hskew, hdistinct, ranks, hdraws, rfl⟩ := generate_eq_ok_iff.mp h
  obtain ⟨tries, hneeds, hsources⟩ := Sampler.exists_needs hdraws
  have hself := hdraws.symm.trans (hsources state attempts [] rfl le_rfl)
  simp only [List.reverse_nil, List.nil_append, Option.some.injEq, Prod.mk.injEq] at hself
  obtain ⟨rfl, rfl⟩ := hself
  have hpos : 0 < distinct.toNat :=
    Nat.pos_of_ne_zero fun hzero => hdistinct (UInt64.toNat_inj.mp hzero)
  refine ⟨tries, ofSkew?_of_isValidSkew power hskew, hdraws,
    fun rank hrank => Sampler.mem_ranksWithin hrank, ?_, ?_, ?_, hneeds, hneeds.le, rfl, ?_, ?_, ?_⟩
  · rw [List.length_map, hneeds.length_eq]
  · intro item hitem
    obtain ⟨rank, -, rfl⟩ := List.mem_map.mp hitem
    rw [UInt64.lt_iff_toNat_lt, itemOf, UInt64.toNat_mod]
    exact Nat.mod_lt _ hpos
  · rw [List.map_map]
    exact List.map_congr_left fun rank hrank =>
      toNat_itemOf (Sampler.mem_ranksWithin hrank).1 distinct
  · intro τ _ start attempts' distinct' hwords hattempts hdistinct'
    exact generate_eq_ok_iff.mpr ⟨hskew, hdistinct', _, hsources start attempts' [] hwords hattempts,
      rfl⟩
  · intro divisor hdvd
    have hdivisor : divisor ≠ 0 := by
      rintro rfl
      exact hpos.ne' (Nat.eq_zero_of_zero_dvd hdvd)
    refine generate_eq_ok_iff.mpr ⟨hskew, hdivisor, _, hdraws, ?_⟩
    rw [List.map_map]
    exact List.map_congr_left fun rank _ => (itemOf_mod hdvd rank).symm
  · intro n hn
    obtain ⟨middle, htake⟩ := Sampler.drawMany_take hn hdraws
    exact ⟨middle, generate_eq_ok_iff.mpr ⟨hskew, hdistinct, _, htake, List.map_take⟩⟩

/-- The powers that draws of a skew of two ask for: exponents are one and minus one. -/
def inverseOrSelf (x e : Float) : Float := if e = -1 then 1 / x else x

/-- Words of four attempts, the first of which is rejected. -/
def fourAttempts : Random.Scripted :=
  .ofList [0x8000000000000000, 0xffffffffffffffff, 0x8000000000000000, 0, 0, 7,
    0xe000000000000000, 0]

/-- Three items of four from the ranks two, one and eight: four attempts take eight words, also
where there are two items only, and two items are the first of the three. -/
theorem workload_of_three_ranks :
    generate inverseOrSelf 2 ⟨3, 4, 2⟩ fourAttempts = .ok ([1, 0, 3], ⟨[], 0, 8⟩) ∧
      (samplerOf inverseOrSelf 2).ranksWithin (Random.words fourAttempts) 4 = [2, 1, 8] ∧
      (samplerOf inverseOrSelf 2).Needs (Random.words fourAttempts) 3 4 ∧
      generate inverseOrSelf 2 ⟨3, 2, 2⟩ fourAttempts = .ok ([1, 0, 1], ⟨[], 0, 8⟩) ∧
      ∃ middle, generate inverseOrSelf 2 ⟨2, 4, 2⟩ fourAttempts = .ok ([1, 0], middle) := by
  have hrun : generate inverseOrSelf 2 ⟨3, 4, 2⟩ fourAttempts = .ok ([1, 0, 3], ⟨[], 0, 8⟩) :=
    generate_eq_ok_iff.mpr ⟨by decide +kernel, by decide, [2, 1, 8], by decide +kernel, by decide⟩
  have hranks : (samplerOf inverseOrSelf 2).ranksWithin (Random.words fourAttempts) 4 =
      [2, 1, 8] := by decide +kernel
  obtain ⟨tries, -, -, -, -, -, -, hneeds, -, hstate, -, hdivisors, hfirst⟩ :=
    workload_is_of_draw_sequence hrun
  have htries : 8 = 0 + 2 * tries :=
    (congrArg Random.Scripted.taken hstate).trans (Random.Scripted.taken_after _ _)
  obtain rfl : tries = 4 := by omega
  exact ⟨hrun, hranks, hneeds, hdivisors 2 ⟨2, rfl⟩, hfirst 2 (by decide)⟩

end Workloads

end Zipf

end BenchReport
