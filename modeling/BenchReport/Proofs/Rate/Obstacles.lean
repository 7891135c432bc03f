import Mathlib
import BenchReport.Proofs.Group.Identity
import BenchReport.Proofs.Rate

/-!
# The first obstacle decides

Several things can stand in the way of a group's rates, and more than one of them at a time: a
time between arrivals that is no time, a latency of zero, a parameter to scale by that the group
does not have. A group that is skipped is told one reason, so the obstacles have an order, and
each of them counts only where none stands before it (`BenchReport.Rate.Obstacle`). Where there
is none at all, the rates are what `BenchReport.Rate.IsRates` says.

Both are said of the values that *stand* in a key (`BenchReport.GroupKey.Assigns`), without a
word about how a value is looked up. They decide the outcome of a group, since in a key without
repeated names no parameter has two values.

| what comes of a group | exactly if | theorem |
|---|---|---|
| a reason to skip it | it is the first obstacle | `BenchReport.Rate.ofLatency_eq_error_iff` |
| rates | there is none, and they are its rates | `BenchReport.Rate.ofLatency_eq_ok_iff` |

A missing latency is not one of the obstacles. It is an error of the whole batch, and the first
group that lacks one is named (`BenchReport.Rate.deriveAll_eq_error_iff`). A batch without such
a group is dealt out to two lists, in its order (`BenchReport.Rate.Splits`).
-/

namespace BenchReport

/-- Whether a key gives a parameter a value. -/
def GroupKey.Assigns (key : GroupKey) (name : String) (value : Int64) : Prop :=
  ⟨name, value⟩ ∈ key.parameters

theorem GroupKey.parameter?_eq_none_iff {key : GroupKey} {name : String} :
    key.parameter? name = none ↔ ∀ value, ¬key.Assigns name value := by
  rw [← Option.not_isSome_iff_eq_none, isSome_parameter?_iff]
  constructor
  · exact fun h value hvalue => h (List.mem_map_of_mem hvalue)
  · intro h hmem
    obtain ⟨p, hp, rfl⟩ := List.mem_map.mp hmem
    exact h p.value hp

namespace Rate

variable {config : RateConfig} {key : GroupKey} {latency : Float}

/-! ### Obstacles and rates -/

/-- Whether the time between arrivals is positive, if there is one. -/
def PositiveArrival (config : RateConfig) (key : GroupKey) : Prop :=
  ∀ value, key.Assigns config.arrivalParameter value → 0 < value

/-- **What stands in the way of rates**, if nothing does so before it. -/
inductive Obstacle (config : RateConfig) (key : GroupKey) (latency : Float) :
    SkipReason → Prop where
  /-- The time between arrivals is zero or less. -/
  | arrival {value : Int64} (hvalue : key.Assigns config.arrivalParameter value)
    (hle : value ≤ 0) : Obstacle config key latency (.nonPositiveArrival value)
  /-- The latency is zero. -/
  | latency (harrival : PositiveArrival config key) (hzero : latency == 0) :
    Obstacle config key latency .zeroLatency
  /-- There is a parameter to scale by, and the group does not have it. -/
  | scale {parameter : String} (harrival : PositiveArrival config key) (hlatency : ¬latency == 0)
    (hscale : config.scaleBy = some parameter)
    (hmissing : ∀ value, ¬key.Assigns parameter value) :
    Obstacle config key latency (.missingScale parameter)

/-- A stream rate: none where there is no time between arrivals, else its inverse. -/
def IsStreamRate (config : RateConfig) (key : GroupKey) (rate : Option Float) : Prop :=
  (rate = none ↔ ∀ value, ¬key.Assigns config.arrivalParameter value) ∧
    ∀ value, key.Assigns config.arrivalParameter value →
      rate = some (config.arrivalUnit.perSecond / signedFloat value)

/-- The factor to scale by: one, unless there is a parameter to scale by. -/
def IsScale (config : RateConfig) (key : GroupKey) (factor : Float) : Prop :=
  config.scaleBy = none ∧ factor = 1 ∨
    ∃ parameter value, config.scaleBy = some parameter ∧ key.Assigns parameter value ∧
      factor = signedFloat value

/-- **The rates of a group** in whose way nothing stands. -/
structure IsRates (config : RateConfig) (key : GroupKey) (latency : Float)
    (rates : DerivedRates) : Prop where
  /-- Nothing stands in the way. -/
  unobstructed : ∀ reason, ¬Obstacle config key latency reason
  /-- They are the rates of this group. -/
  key_eq : rates.key = key
  /-- The stream rate, if there is one, is that of the time between arrivals. -/
  isStreamRate : IsStreamRate config key rates.streamRate
  /-- The processing rate is multiplied out from the left. -/
  processingRate_eq : ∃ factor, IsScale config key factor ∧
    rates.processingRate = config.workload / latency * 1000 * config.factor * factor

/-! ### The two values that are looked up -/

theorem streamRate_eq_error_iff (hkey : key.IsDistinct) {reason : SkipReason} :
    streamRate config key = .error reason ↔
      ∃ value, key.Assigns config.arrivalParameter value ∧ value ≤ 0 ∧
        reason = .nonPositiveArrival value := by
  have hassigns := @GroupKey.parameter?_eq_some_iff key hkey config.arrivalParameter
  rw [streamRate]
  split
  · rename_i hnone
    refine iff_of_false nofun ?_
    rintro ⟨value, hvalue, -, -⟩
    exact GroupKey.parameter?_eq_none_iff.mp hnone value hvalue
  · rename_i found hfound
    constructor
    · intro h
      split at h
      · rename_i hle
        exact ⟨found, hassigns.mp hfound, hle, (Except.error.inj h).symm⟩
      · cases h
    · rintro ⟨value, hvalue, hle, rfl⟩
      obtain rfl : found = value := Option.some.inj (hfound.symm.trans (hassigns.mpr hvalue))
      exact if_pos hle

theorem streamRate_eq_ok_iff (hkey : key.IsDistinct) {rate : Option Float} :
    streamRate config key = .ok rate ↔
      PositiveArrival config key ∧ IsStreamRate config key rate := by
  have hassigns := @GroupKey.parameter?_eq_some_iff key hkey config.arrivalParameter
  rw [streamRate]
  split
  · rename_i hnone
    have habsent := GroupKey.parameter?_eq_none_iff.mp hnone
    constructor
    · intro h
      obtain rfl := Except.ok.inj h
      exact ⟨fun value hvalue => absurd hvalue (habsent value), iff_of_true rfl habsent,
        fun value hvalue => absurd hvalue (habsent value)⟩
    · rintro ⟨-, hrate, -⟩
      rw [hrate.mpr habsent]
  · rename_i found hfound
    have hfound' : key.Assigns config.arrivalParameter found := hassigns.mp hfound
    -- a key without repeated names gives the parameter no other value
    have honly : ∀ value, key.Assigns config.arrivalParameter value → value = found :=
      fun value hvalue => Option.some.inj ((hassigns.mpr hvalue).symm.trans hfound)
    constructor
    · intro h
      split at h
      · cases h
      · rename_i hpos
        obtain rfl := Except.ok.inj h
        refine ⟨fun value hvalue => ?_, ?_, fun value hvalue => ?_⟩
        · rw [honly value hvalue]
          exact Int64.not_le.mp hpos
        · exact iff_of_false nofun fun h => h found hfound'
        · rw [honly value hvalue]
    · rintro ⟨hpos, -, hrate⟩
      rw [if_neg (Int64.not_le.mpr (hpos found hfound')), hrate found hfound']

theorem exists_streamRate (hkey : key.IsDistinct) (hpos : PositiveArrival config key) :
    ∃ rate, streamRate config key = .ok rate := by
  cases hstream : streamRate config key with
  | ok rate => exact ⟨rate, rfl⟩
  | error reason =>
    obtain ⟨value, hvalue, hle, -⟩ := (streamRate_eq_error_iff hkey).mp hstream
    exact absurd hle (Int64.not_le.mpr (hpos value hvalue))

theorem scale_eq_error_iff {reason : SkipReason} :
    scale config key = .error reason ↔
      ∃ parameter, config.scaleBy = some parameter ∧ (∀ value, ¬key.Assigns parameter value) ∧
        reason = .missingScale parameter := by
  rw [scale]
  cases config.scaleBy with
  | none => simp
  | some parameter =>
    simp only [Option.some.injEq, exists_eq_left', ← GroupKey.parameter?_eq_none_iff]
    cases key.parameter? parameter with
    | none => simp [eq_comm]
    | some value => simp

theorem scale_eq_ok_iff (hkey : key.IsDistinct) {factor : Float} :
    scale config key = .ok factor ↔ IsScale config key factor := by
  rw [scale, IsScale]
  cases config.scaleBy with
  | none => simp [eq_comm]
  | some parameter =>
    simp only [reduceCtorEq, false_and, false_or, Option.some.injEq, exists_and_left,
      exists_eq_left', GroupKey.Assigns, ← GroupKey.parameter?_eq_some_iff hkey]
    cases key.parameter? parameter with
    | none => simp
    | some value => simp [eq_comm]

/-! ### What comes of a group -/

/-- **A key is skipped for a reason exactly if that is the first obstacle.** -/
theorem ofLatency_eq_error_iff (hkey : key.IsDistinct) {reason : SkipReason} :
    ofLatency config key latency = .error reason ↔ Obstacle config key latency reason := by
  constructor
  · intro h
    rcases bind_eq_error_iff.mp h with hstream | ⟨rate, hstream, h⟩
    · obtain ⟨value, hvalue, hle, rfl⟩ := (streamRate_eq_error_iff hkey).mp hstream
      exact .arrival hvalue hle
    · have hpos := ((streamRate_eq_ok_iff hkey).mp hstream).1
      split at h
      · rename_i hzero
        obtain rfl := Except.error.inj h
        exact .latency hpos hzero
      · rename_i hlatency
        rcases bind_eq_error_iff.mp h with hscale | ⟨factor, -, h⟩
        · obtain ⟨parameter, hby, hmissing, rfl⟩ := scale_eq_error_iff.mp hscale
          exact .scale hpos hlatency hby hmissing
        · cases h
  · rintro (⟨hvalue, hle⟩ | ⟨hpos, hzero⟩ | ⟨hpos, hlatency, hby, hmissing⟩)
    · rw [ofLatency, (streamRate_eq_error_iff hkey).mpr ⟨_, hvalue, hle, rfl⟩]
      rfl
    · obtain ⟨rate, hstream⟩ := exists_streamRate hkey hpos
      rw [ofLatency, hstream]
      exact if_pos hzero
    · obtain ⟨rate, hstream⟩ := exists_streamRate hkey hpos
      rw [ofLatency, hstream, scale_eq_error_iff.mpr ⟨_, hby, hmissing, rfl⟩]
      exact if_neg hlatency

/-- **A key has rates exactly if nothing stands in their way**, and then it has these. -/
theorem ofLatency_eq_ok_iff (hkey : key.IsDistinct) {rates : DerivedRates} :
    ofLatency config key latency = .ok rates ↔ IsRates config key latency rates := by
  constructor
  · intro h
    have hclear : ∀ reason, ¬Obstacle config key latency reason := by
      intro reason hreason
      rw [(ofLatency_eq_error_iff hkey).mpr hreason] at h
      cases h
    obtain ⟨rate, hstream, h⟩ := bind_eq_ok_iff.mp h
    split at h
    · cases h
    · obtain ⟨factor, hscale, h⟩ := bind_eq_ok_iff.mp h
      obtain rfl := Except.ok.inj h
      exact ⟨hclear, rfl, ((streamRate_eq_ok_iff hkey).mp hstream).2, factor,
        (scale_eq_ok_iff hkey).mp hscale, rfl⟩
  · rintro ⟨hclear, rfl, hstream, factor, hfactor, hprocessing⟩
    have hpos : PositiveArrival config rates.key := fun value hvalue =>
      Int64.not_le.mp fun hle => hclear _ (.arrival hvalue hle)
    have hlatency : ¬latency == 0 := fun hzero => hclear _ (.latency hpos hzero)
    rw [ofLatency, (streamRate_eq_ok_iff hkey).mpr ⟨hpos, hstream⟩,
      (scale_eq_ok_iff hkey).mpr hfactor]
    refine (if_neg hlatency).trans ?_
    exact congrArg (fun rate => Except.ok (⟨rates.key, rates.streamRate, rate⟩ : DerivedRates))
      hprocessing.symm

/-! ### Batches -/

/-- **A batch that is split**: every group has a latency and is dealt out, in the order of the
batch, to the rates or to the skipped ones. -/
inductive Splits (config : RateConfig) :
    List Group → List DerivedRates → List (GroupKey × SkipReason) → Prop where
  /-- There is no group left. -/
  | nil : Splits config [] [] []
  /-- Nothing stands in the way of the first group, and these are its rates. -/
  | derived {g : Group} {latency : Float} {rates : DerivedRates} {groups : List Group}
    {ds : List DerivedRates} {ss : List (GroupKey × SkipReason)}
    (hlatency : g.latency? = some latency) (h : IsRates config g.key latency rates)
    (rest : Splits config groups ds ss) : Splits config (g :: groups) (rates :: ds) ss
  /-- Something stands in the way of the first group, and this is told of it. -/
  | skipped {g : Group} {latency : Float} {reason : SkipReason} {groups : List Group}
    {ds : List DerivedRates} {ss : List (GroupKey × SkipReason)}
    (hlatency : g.latency? = some latency) (h : Obstacle config g.key latency reason)
    (rest : Splits config groups ds ss) :
    Splits config (g :: groups) ds ((g.key, reason) :: ss)

theorem derive_eq_ok_iff {g : Group} {outcome : Except SkipReason DerivedRates} :
    derive config g = .ok outcome ↔
      ∃ latency, g.latency? = some latency ∧ ofLatency config g.key latency = outcome := by
  rw [derive]
  cases g.latency? <;> simp

section Batch

variable {groups : List Group}

/-- A table of outcomes splits the groups that they come from. -/
theorem splits_table (hkeys : ∀ g ∈ groups, g.key.IsDistinct) {found : Outcomes}
    (h : groups.mapM (ruled (derive config)) = .ok found) :
    Splits config groups (table found).derived (table found).skipped := by
  induction mapM_eq_ok_iff.mp h with
  | nil => exact .nil
  | @cons g entry groups found hentry hrest ih =>
    obtain ⟨hg, hgroups⟩ := List.forall_mem_cons.mp hkeys
    have hsplits := ih hgroups (mapM_eq_ok_iff.mpr hrest)
    obtain ⟨key, outcome⟩ := entry
    obtain ⟨rfl, houtcome⟩ := ruled_eq_ok_iff.mp hentry
    obtain ⟨latency, hlatency, hof⟩ := derive_eq_ok_iff.mp houtcome
    cases outcome with
    | error reason =>
      rw [RateTable.table_cons_error]
      exact .skipped hlatency ((ofLatency_eq_error_iff hg).mp hof) hsplits
    | ok rates =>
      rw [RateTable.table_cons_ok]
      exact .derived hlatency ((ofLatency_eq_ok_iff hg).mp hof) hsplits

/-- However a batch is split, it is split by the outcomes of its groups. -/
theorem exists_table_of_splits (hkeys : ∀ g ∈ groups, g.key.IsDistinct)
    {ds : List DerivedRates} {ss : List (GroupKey × SkipReason)} (h : Splits config groups ds ss) :
    ∃ found, groups.mapM (ruled (derive config)) = .ok found ∧ table found = ⟨ds, ss⟩ := by
  simp only [mapM_eq_ok_iff]
  induction h with
  | nil => exact ⟨[], .nil, rfl⟩
  | @derived g latency rates groups ds ss hlatency h _ ih =>
    obtain ⟨hg, hgroups⟩ := List.forall_mem_cons.mp hkeys
    obtain ⟨found, hfound, htable⟩ := ih hgroups
    have houtcome := derive_eq_ok_iff.mpr ⟨latency, hlatency, (ofLatency_eq_ok_iff hg).mpr h⟩
    refine ⟨(g.key, .ok rates) :: found, .cons (ruled_eq_ok_iff.mpr ⟨rfl, houtcome⟩) hfound, ?_⟩
    rw [RateTable.table_cons_ok, htable]
  | @skipped g latency reason groups ds ss hlatency h _ ih =>
    obtain ⟨hg, hgroups⟩ := List.forall_mem_cons.mp hkeys
    obtain ⟨found, hfound, htable⟩ := ih hgroups
    have houtcome := derive_eq_ok_iff.mpr ⟨latency, hlatency, (ofLatency_eq_error_iff hg).mpr h⟩
    refine ⟨(g.key, .error reason) :: found,
      .cons (ruled_eq_ok_iff.mpr ⟨rfl, houtcome⟩) hfound, ?_⟩
    rw [RateTable.table_cons_error, htable]

theorem deriveAll_eq_ok_iff (hkeys : ∀ g ∈ groups, g.key.IsDistinct) {t : RateTable} :
    deriveAll config groups = .ok t ↔ Splits config groups t.derived t.skipped := by
  rw [deriveAll_eq]
  constructor
  · intro h
    cases hfound : groups.mapM (ruled (derive config)) with
    | error e => rw [hfound] at h; cases h
    | ok found =>
      rw [hfound] at h
      obtain rfl := Except.ok.inj h
      exact splits_table hkeys hfound
  · intro h
    obtain ⟨found, hfound, htable⟩ := exists_table_of_splits hkeys h
    rw [hfound]
    exact congrArg Except.ok htable

/-- **A batch fails at its first group without a latency**, whatever the groups before and
after it are. -/
theorem deriveAll_eq_error_iff {e : MissingLatency} :
    deriveAll config groups = .error e ↔
      ∃ g, groups.find? (fun g => g.latency?.isNone) = some g ∧ e = ⟨g.key.spell⟩ := by
  have houtcomes : outcomes config groups = .error e ↔
      ∃ g, groups.find? (fun g => g.latency?.isNone) = some g ∧ e = ⟨g.key.spell⟩ := by
    induction groups with
    | nil => simp [outcomes]
    | cons first groups ih =>
      rw [outcomes, derive, List.find?_cons]
      cases first.latency? with
      | none => simp [eq_comm]
      | some latency =>
        rw [Option.isNone_some, ← ih]
        cases outcomes config groups <;> simp
  rw [deriveAll, ← houtcomes]
  cases outcomes config groups <;> simp

end Batch

/-- **Rates are derived by the first obstacle.** A batch of groups without repeated names in
their keys fails exactly if one of them has no mean latency, and names the first such. It gives
a table exactly if the table splits the batch: in its order, each group is skipped for the first
obstacle in its way, or has its rates where there is none. -/
theorem deriveAll_splits_by_first_obstacle (config : RateConfig) {groups : List Group}
    (hkeys : ∀ g ∈ groups, g.key.IsDistinct) :
    (∀ e, deriveAll config groups = .error e ↔
        ∃ g, groups.find? (fun g => g.latency?.isNone) = some g ∧ e = ⟨g.key.spell⟩) ∧
      ∀ t, deriveAll config groups = .ok t ↔ Splits config groups t.derived t.skipped :=
  ⟨fun _ => deriveAll_eq_error_iff, fun _ => deriveAll_eq_ok_iff hkeys⟩

/-- A setting under which every obstacle can come up. -/
def scaledByClients : RateConfig := ⟨1, 1, "StreamRate", .nanoseconds, some "Clients"⟩

/-- Groups in whose way stand three obstacles, two, one and none. -/
def obstructed : List Group :=
  [⟨⟨"B", [⟨"StreamRate", 0⟩], by decide⟩, ⟨some 0, none, none, none⟩, 1⟩,
    ⟨⟨"B", [⟨"StreamRate", 5⟩], by decide⟩, ⟨some 0, none, none, none⟩, 1⟩,
    ⟨⟨"B", [⟨"StreamRate", 7⟩], by decide⟩, ⟨some 2, none, none, none⟩, 1⟩,
    ⟨⟨"B", [⟨"Clients", 4⟩, ⟨"StreamRate", 1000⟩], by decide⟩, ⟨some 500, none, none, none⟩, 1⟩]

/-- Each of the groups is told the first of its obstacles only. -/
theorem deriveAll_splits_obstructed :
    (∀ g ∈ obstructed, g.key.IsDistinct) ∧
      ∃ t : RateTable, Splits scaledByClients obstructed t.derived t.skipped ∧
        t.skipped.map Prod.snd = [.nonPositiveArrival 0, .zeroLatency, .missingScale "Clients"] ∧
        t.derived.map (fun rates => (rates.streamRate, rates.processingRate)) =
          [(some 1e6, 8)] := by
  have hkeys : ∀ g ∈ obstructed, g.key.IsDistinct := by decide +kernel
  refine ⟨hkeys, _, ((deriveAll_splits_by_first_obstacle scaledByClients hkeys).2 _).mp rfl, ?_⟩
  decide +kernel

end Rate

end BenchReport
