import Mathlib
import BenchReport.Files.Tree
import BenchReport.Proofs.Pipeline.Units

/-!
# The order of the sources

Sources are put together in their order, so a run on the same sources in another order
averages the same measurements, and almost nothing about the groups depends on which came
first: their keys, their sizes, the metrics that they have a mean of and the units of
their members are all settled by which measurements there are
(`BenchReport.Group.forall₂_sameUpToSums`).

## Where the order shows

What is left is the sum of a metric. It is taken in the order of the measurements, and
addition of doubles is not associative, so the sums of a group with three members may be
rounded differently (`BenchReport.Pipeline.run_reverse_ne`); the rates then differ, too.
Nothing else can differ: a run on the sources in another order has the same groups and
the same rates as soon as the sums agree (`BenchReport.Pipeline.run_perm`), as they do
when no group has members from two sources
(`BenchReport.Pipeline.membersOf_eq_of_perm`).
-/

namespace BenchReport

/-! ### Groups of the same members -/

namespace Group

/-- **Groups that differ in their sums at most**: in how the sum of a metric has been
rounded, but not in what it is a sum of. -/
structure SameUpToSums (a b : Group) : Prop where
  key_eq : a.key = b.key
  size_eq : a.size = b.size
  isSome_eq : ∀ metric, (a.means.get? metric).isSome = (b.means.get? metric).isSome

section Perm

variable {α : Type} [Observation α] {xs ys : List α}

theorem membersOf_perm (h : xs.Perm ys) (key : GroupKey) :
    (membersOf key xs).Perm (membersOf key ys) :=
  h.filter _

/-- Observations in another order have the same groups. -/
theorem keys_aggregate_perm (h : xs.Perm ys) :
    (aggregate xs).map Group.key = (aggregate ys).map Group.key := by
  have : Std.Asymm fun a b : GroupKey => compare a b = .lt := Keyed.asymm_compare id
  have hsorted : ∀ zs : List α,
      ((aggregate zs).map Group.key).Pairwise fun a b => compare a b = .lt :=
    fun zs => List.pairwise_map.mpr (pairwise_aggregate zs)
  refine (hsorted xs).eq_of_mem_iff (hsorted ys) fun key => ?_
  rw [mem_keys_aggregate, mem_keys_aggregate]
  exact exists_congr fun o => and_congr_left fun _ => h.mem_iff

variable {a b : Group}

theorem get?_means_of_perm (h : xs.Perm ys) (ha : a ∈ aggregate xs) (hb : b ∈ aggregate ys)
    (hkey : a.key = b.key) (metric : Metric)
    (hsum : sumOf metric a.key xs = sumOf metric a.key ys) :
    a.means.get? metric = b.means.get? metric := by
  have hmembers := membersOf_perm h a.key
  refine Option.ext fun value => ?_
  rw [(says_of_mem_aggregate ha).2, (says_of_mem_aggregate hb).2, ← hkey, hsum,
    hmembers.length_eq]
  exact and_congr_left fun _ => forall_congr' fun o => imp_congr_left hmembers.mem_iff

theorem sameUpToSums_of_perm (h : xs.Perm ys) (ha : a ∈ aggregate xs) (hb : b ∈ aggregate ys)
    (hkey : a.key = b.key) : a.SameUpToSums b where
  key_eq := hkey
  size_eq := by
    rw [(says_of_mem_aggregate ha).1, (says_of_mem_aggregate hb).1, ← hkey,
      (membersOf_perm h a.key).length_eq]
  isSome_eq metric := by
    have hmembers := membersOf_perm h a.key
    rw [Bool.eq_iff_iff, Option.isSome_iff_exists, Option.isSome_iff_exists]
    simp only [(says_of_mem_aggregate ha).2, (says_of_mem_aggregate hb).2, ← hkey,
      hmembers.mem_iff, exists_and_left, exists_eq, and_true]

/-- Observations in another order have groups that stand side by side. -/
theorem forall₂_aggregate_perm {R : Group → Group → Prop} (h : xs.Perm ys)
    (hR : ∀ a ∈ aggregate xs, ∀ b ∈ aggregate ys, a.key = b.key → R a b) :
    List.Forall₂ R (aggregate xs) (aggregate ys) := by
  have hkeys := keys_aggregate_perm h
  have hlength : (aggregate xs).length = (aggregate ys).length := by
    simpa using congrArg List.length hkeys
  refine List.forall₂_iff_get.mpr ⟨hlength, fun i hi hi' => ?_⟩
  refine hR _ (List.get_mem ..) _ (List.get_mem ..) ?_
  have hkey := congrArg (fun keys => keys[i]?) hkeys
  simpa [hi, hi'] using hkey

/-- **The same observations in another order have the same groups but for their sums.** -/
theorem forall₂_sameUpToSums (h : xs.Perm ys) :
    List.Forall₂ SameUpToSums (aggregate xs) (aggregate ys) :=
  forall₂_aggregate_perm h fun _ ha _ hb hkey => sameUpToSums_of_perm h ha hb hkey

/-- Where the sums agree, the groups do. -/
theorem aggregate_eq_of_perm (h : xs.Perm ys)
    (hsums : ∀ metric key, sumOf metric key xs = sumOf metric key ys) :
    aggregate xs = aggregate ys := by
  refine List.forall₂_eq_eq_eq ▸ forall₂_aggregate_perm h fun a ha b hb hkey => ?_
  have hsize := (sameUpToSums_of_perm h ha hb hkey).size_eq
  have hmeans : a.means = b.means :=
    Metrics.ext_get? fun metric => get?_means_of_perm h ha hb hkey metric (hsums metric a.key)
  cases a
  cases b
  simp_all

end Perm

end Group

namespace Pipeline

/-! ### What does not depend on the order -/

/-- The measurements of a list of sources, put together. -/
def measured (view : FileView) (options : ReadOptions) (sources : List Source) :
    List Measurement :=
  measurements (loadAll view options sources)

section Perm

variable {view : FileView} {options : ReadOptions} {config : RateConfig}
  {sources sources' : List Source}

theorem measured_perm (h : sources.Perm sources') :
    (measured view options sources).Perm (measured view options sources') :=
  ((h.map _).filterMap _).flatMap_right _

theorem memberUnits_perm (h : sources.Perm sources') (key : GroupKey) :
    memberUnits view options sources key = memberUnits view options sources' key :=
  Set.ext fun _ => exists_congr fun _ => and_congr_left fun _ => h.mem_iff

/-- **What a run does with a group** depends on its key, its mean latency and the units of
its members, and on nothing else. -/
theorem groupRule_congr {a b : Group}
    (hunits : memberUnits view options sources a.key = memberUnits view options sources' a.key)
    (hne : (memberUnits view options sources a.key).Nonempty) (hkey : a.key = b.key)
    (hlatency : a.latency? = b.latency?) :
    groupRule config (loadAll view options sources) a =
      groupRule config (loadAll view options sources') b := by
  have hunits' : memberUnits view options sources a.key = memberUnits view options sources' b.key :=
    hkey ▸ hunits
  rcases (memberUnits view options sources a.key).subsingleton_or_nontrivial with hone | htwo
  · obtain ⟨unit, hunit⟩ := hne
    have hall : ∀ other ∈ memberUnits view options sources a.key, other = unit :=
      fun other hother => hone hother hunit
    rw [groupRule_of_forall ⟨unit, hunit⟩ hall,
      groupRule_of_forall ⟨unit, hunits' ▸ hunit⟩ (hunits' ▸ hall)]
    simp only [Rate.derive, hkey, hlatency]
  · obtain ⟨unit, hunit, other, hother, hdiffer⟩ := htwo
    rw [groupRule_of_ne hunit hother hdiffer,
      groupRule_of_ne (hunits' ▸ hunit) (hunits' ▸ hother) hdiffer]

/-- Where the sums agree, so does all that is derived from them. -/
theorem resultOf_eq_of_perm {found found' : Rate.Outcomes} (h : sources.Perm sources')
    (hfound : Settles config (loadAll view options sources) found)
    (hfound' : Settles config (loadAll view options sources') found')
    (hsums : ∀ metric key, Group.sumOf metric key (measured view options sources) =
      Group.sumOf metric key (measured view options sources')) :
    (resultOf (loadAll view options sources) found).groups =
        (resultOf (loadAll view options sources') found').groups ∧
      (resultOf (loadAll view options sources) found).rates =
        (resultOf (loadAll view options sources') found').rates := by
  have hgroups := Group.aggregate_eq_of_perm (measured_perm h) hsums
  have hrules : ∀ g ∈ Group.aggregate (measured view options sources),
      groupRule config (loadAll view options sources) g =
        groupRule config (loadAll view options sources') g :=
    fun g hg => groupRule_congr (memberUnits_perm h g.key) (nonempty_memberUnits hg) rfl rfl
  have hsame : (Except.ok found : Except MissingLatency Rate.Outcomes) = .ok found' := calc
    .ok found = (Group.aggregate (measured view options sources)).mapM
        (Rate.ruled (groupRule config (loadAll view options sources))) := hfound.symm
    _ = (Group.aggregate (measured view options sources)).mapM
        (Rate.ruled (groupRule config (loadAll view options sources'))) :=
      Rate.mapM_ruled_congr hrules
    _ = (Group.aggregate (measured view options sources')).mapM
        (Rate.ruled (groupRule config (loadAll view options sources'))) := by rw [hgroups]
    _ = .ok found' := hfound'
  exact ⟨hgroups, congrArg Rate.table (Except.ok.inj hsame)⟩

end Perm

/-- **The order of the sources is at most a matter of rounding.** The groups are the same
but for their sums; the outcome of a group is the same if its mean latency is; and where
all sums agree, all groups and all rates are the same. -/
theorem run_perm (view : FileView) (options : ReadOptions) (config : RateConfig)
    {sources sources' : List Source} (h : sources.Perm sources') :
    ∃ r r', run view options config sources = .ok r ∧ run view options config sources' = .ok r' ∧
      List.Forall₂ Group.SameUpToSums r.groups r'.groups ∧
      (∀ g ∈ r.groups, ∀ g' ∈ r'.groups, g.key = g'.key → g.latency? = g'.latency? →
        r.rates.outcomesAt g.key = r'.rates.outcomesAt g'.key) ∧
      ((∀ metric key, Group.sumOf metric key r.measurements =
          Group.sumOf metric key r'.measurements) →
        r.groups = r'.groups ∧ r.rates = r'.rates) := by
  obtain ⟨found, hfound, hrun⟩ := exists_settles config (loadAll view options sources)
  obtain ⟨found', hfound', hrun'⟩ := exists_settles config (loadAll view options sources')
  refine ⟨_, _, hrun, hrun', Group.forall₂_sameUpToSums (measured_perm h), ?_,
    resultOf_eq_of_perm h hfound hfound'⟩
  intro g hg g' hg' hkey hlatency
  obtain ⟨outcome, hrule, houtcome⟩ := hfound.outcomesAt hg
  obtain ⟨outcome', hrule', houtcome'⟩ := hfound'.outcomesAt hg'
  have hsame : groupRule config (loadAll view options sources) g =
      groupRule config (loadAll view options sources') g' :=
    groupRule_congr (memberUnits_perm h g.key) (nonempty_memberUnits hg) hkey hlatency
  rw [hrule, hrule'] at hsame
  obtain rfl : outcome = outcome' := Except.ok.inj hsame
  exact houtcome.trans houtcome'.symm

/-- Two sources of one group, the other way round. -/
theorem run_perm_two :
    let view := (FileTree.ofPaths
      [("a", Text.encode "X/A:_1-4 0.1m"), ("b", Text.encode "X/A:_1-4 0.2m\nX/A:_1-4 0.3m")] []).view
    let a := Source.ofPath "a" "a"
    let b := Source.ofPath "b" "b"
    [a, b].Perm [b, a] ∧
      ∃ r r', run view ⟨.default, none⟩ .default [a, b] = .ok r ∧
        run view ⟨.default, none⟩ .default [b, a] = .ok r' ∧
        List.Forall₂ Group.SameUpToSums r.groups r'.groups ∧
        (∀ g ∈ r.groups, ∀ g' ∈ r'.groups, g.key = g'.key → g.latency? = g'.latency? →
          r.rates.outcomesAt g.key = r'.rates.outcomesAt g'.key) ∧
        ((∀ metric key, Group.sumOf metric key r.measurements =
            Group.sumOf metric key r'.measurements) →
          r.groups = r'.groups ∧ r.rates = r'.rates) := by
  intro view a b
  exact ⟨.swap b a [], run_perm view ⟨.default, none⟩ .default (.swap b a [])⟩

/-! ### Sums that do not agree -/

/-- The bits of the mean latencies and of the processing rates of a result. -/
def roundings (groups : List Group) (rates : RateTable) : List (Option UInt64) × List UInt64 :=
  (groups.map fun g => g.latency?.map Float.toBits,
    rates.derived.map fun rates => rates.processingRate.toBits)

/-- **Three sources of one group, read from the last to the first**, have another mean and
another rate: a tenth, two tenths and three tenths do not add up to the same. -/
theorem run_reverse_ne :
    let view := (FileTree.ofPaths
      [("a", Text.encode "X/A:_1-4 0.1m"), ("b", Text.encode "X/A:_1-4 0.2m"),
        ("c", Text.encode "X/A:_1-4 0.3m")] []).view
    let sources := [Source.ofPath "a" "a", Source.ofPath "b" "b", Source.ofPath "c" "c"]
    sources.Perm sources.reverse ∧
      ∃ r r', run view ⟨.default, none⟩ .default sources = .ok r ∧
        run view ⟨.default, none⟩ .default sources.reverse = .ok r' ∧
        r.groups ≠ r'.groups ∧ r.rates ≠ r'.rates := by
  intro view sources
  have hruns : ∀ sources, ∃ r, run view ⟨.default, none⟩ .default sources = .ok r := fun sources =>
    let ⟨_, _, hrun⟩ := exists_settles .default (loadAll view ⟨.default, none⟩ sources)
    ⟨_, hrun⟩
  obtain ⟨r, hrun⟩ := hruns sources
  obtain ⟨r', hrun'⟩ := hruns sources.reverse
  have hforward : (run view ⟨.default, none⟩ .default sources).toOption.map
      (fun r => roundings r.groups r.rates) =
      some ([some 0x3fc999999999999b], [0x40b387ffffffffff]) := by decide +kernel
  have hbackward : (run view ⟨.default, none⟩ .default sources.reverse).toOption.map
      (fun r => roundings r.groups r.rates) =
      some ([some 0x3fc9999999999999], [0x40b3880000000000]) := by decide +kernel
  rw [hrun] at hforward
  rw [hrun'] at hbackward
  obtain ⟨hmeans, hrates⟩ := Prod.mk.inj (Option.some.inj hforward)
  obtain ⟨hmeans', hrates'⟩ := Prod.mk.inj (Option.some.inj hbackward)
  refine ⟨sources.reverse_perm.symm, r, r', hrun, hrun', fun hgroups => ?_, fun htables => ?_⟩
  · rw [hgroups, hmeans'] at hmeans
    exact absurd hmeans (by decide)
  · rw [htables, hrates'] at hrates
    exact absurd hrates (by decide)

/-! ### Sources that share no group -/

section Apart

variable {view : FileView} {options : ReadOptions} {sources sources' : List Source}

/-- Two sources of which no group has members from both. -/
def ShareNoGroup (view : FileView) (options : ReadOptions) (s s' : Source) : Prop :=
  ∀ m ∈ measured view options [s], ∀ m' ∈ measured view options [s'], m.key ≠ m'.key

theorem measured_cons (s : Source) (sources : List Source) :
    measured view options (s :: sources) =
      measured view options [s] ++ measured view options sources := by
  rw [measured, measured, measured, measurements, measurements, measurements,
    ← List.flatMap_append, reports, reports, reports, ← List.filterMap_append]
  rfl

theorem membersOf_cons (key : GroupKey) (s : Source) (sources : List Source) :
    Group.membersOf key (measured view options (s :: sources)) =
      Group.membersOf key (measured view options [s]) ++
        Group.membersOf key (measured view options sources) := by
  rw [measured_cons, Group.membersOf, List.filter_append]
  rfl

theorem ShareNoGroup.symm {s s' : Source} (h : ShareNoGroup view options s s') :
    ShareNoGroup view options s' s :=
  fun m hm m' hm' hkey => h m' hm' m hm hkey.symm

/-- The members of a group from two sources are those from one of them. -/
theorem ShareNoGroup.append_comm {s s' : Source} (h : ShareNoGroup view options s s')
    (key : GroupKey) :
    Group.membersOf key (measured view options [s]) ++
        Group.membersOf key (measured view options [s']) =
      Group.membersOf key (measured view options [s']) ++
        Group.membersOf key (measured view options [s]) := by
  rcases eq_or_ne (Group.membersOf key (measured view options [s])) [] with hnil | hne
  · rw [hnil, List.nil_append, List.append_nil]
  · obtain ⟨m, hmember⟩ := List.exists_mem_of_ne_nil _ hne
    obtain ⟨hm, hkey⟩ := List.mem_filter.mp hmember
    have hnil : Group.membersOf key (measured view options [s']) = [] := by
      refine List.filter_eq_nil_iff.mpr fun m' hm' hkey' => h m hm m' hm' ?_
      exact (of_decide_eq_true hkey).trans (of_decide_eq_true hkey').symm
    rw [hnil, List.nil_append, List.append_nil]

/-- **Sources that share no group are put together in any order**: the members of a group
all come from one of them, which has its own order. -/
theorem membersOf_eq_of_perm (h : sources.Perm sources')
    (hapart : sources.Pairwise (ShareNoGroup view options)) (key : GroupKey) :
    Group.membersOf key (measured view options sources) =
      Group.membersOf key (measured view options sources') := by
  induction h with
  | nil => rfl
  | @cons s sources sources' _ ih =>
    rw [membersOf_cons key s sources, membersOf_cons key s sources',
      ih (List.pairwise_cons.mp hapart).2]
  | swap s s' sources =>
    have hdiffer : ShareNoGroup view options s' s := (List.pairwise_cons.mp hapart).1 s (by simp)
    rw [membersOf_cons key s' (s :: sources), membersOf_cons key s sources,
      membersOf_cons key s (s' :: sources), membersOf_cons key s' sources, ← List.append_assoc,
      ← List.append_assoc, hdiffer.append_comm]
  | trans h₁ _ ih₁ ih₂ =>
    exact (ih₁ hapart).trans (ih₂ ((h₁.pairwise_iff ShareNoGroup.symm).mp hapart))

/-- **Sources that share no group can be read in any order.** -/
theorem run_eq_of_shareNoGroup (config : RateConfig) (h : sources.Perm sources')
    (hapart : sources.Pairwise (ShareNoGroup view options)) :
    ∃ r r', run view options config sources = .ok r ∧ run view options config sources' = .ok r' ∧
      r.groups = r'.groups ∧ r.rates = r'.rates := by
  obtain ⟨found, hfound, hrun⟩ := exists_settles config (loadAll view options sources)
  obtain ⟨found', hfound', hrun'⟩ := exists_settles config (loadAll view options sources')
  refine ⟨_, _, hrun, hrun', resultOf_eq_of_perm h hfound hfound' fun metric key => ?_⟩
  rw [Group.sumOf, membersOf_eq_of_perm h hapart, Group.sumOf]

end Apart

end Pipeline

end BenchReport
