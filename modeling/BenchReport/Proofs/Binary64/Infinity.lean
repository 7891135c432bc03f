import Mathlib
import BenchReport.Proofs.Binary64.Neutral

/-!
# Infinities in the order of doubles

A finite double has a value, and an infinity has none. Where the two are compared it is enough to
know where an infinity *lies*, which is at the bound from which on a number is too great for a
double. Then every double that is a number has a **place** (`BenchReport.Binary64.place`), and the
order of doubles is that of their places (`BenchReport.Binary64.le_iff_place_le`).

Places say of a result what values do not: that it grows with what it is made from, even where it
grows beyond every bound. This is so of sums (`BenchReport.Binary64.place_add_mono`), and
differences are sums (`BenchReport.Binary64.sub_eq_add_neg`). What has to be seen to is that the
result is a number. Of numbers only the two infinities have no sum
(`BenchReport.Binary64.add_infinity_neg`), and only an infinity and zero have no product
(`BenchReport.Binary64.isNaN_mul_zero`).
-/

namespace BenchReport.Binary64

open Float.Model Float.Model.UnpackedFloat

/-! ### Places -/

/-- Where an unpacked number lies: an infinity lies where numbers begin to be too great. -/
def unpackedPlace : UnpackedFloat → ℚ
  | .infinity s => signed s overflow
  | f => unpackedValue f

/-- **Where a double lies**: at its value, or, if it is an infinity, at the bound. -/
def place (x : Float) : ℚ := unpackedPlace x.toModel.unpack

/-- A number, kept between the bounds. -/
def clamp (z : ℚ) : ℚ := max (-overflow) (min overflow z)

section Places

variable {x y : Float} {s : Sign} {z w : ℚ}

theorem isNaN_iff : x.isNaN = true ↔ x.toModel.unpack = .notANumber := by
  change x.toModel.unpack.isNaN = true ↔ _
  cases x.toModel.unpack <;> simp [UnpackedFloat.isNaN]

theorem isNaN_of_isFinite (h : x.isFinite = true) : x.isNaN = false := by
  change x.toModel.unpack.isFinite = true at h
  change x.toModel.unpack.isNaN = false
  cases hx : x.toModel.unpack <;> simp_all [UnpackedFloat.isNaN, UnpackedFloat.isFinite]

theorem isNaN_of_infinity (h : x.toModel.unpack = .infinity s) : x.isNaN = false := by
  change x.toModel.unpack.isNaN = false
  rw [h]
  rfl

theorem isFinite_of_infinity (h : x.toModel.unpack = .infinity s) : x.isFinite = false := by
  change x.toModel.unpack.isFinite = false
  rw [h]
  rfl

/-- **A double that is a number** is finite or an infinity. -/
theorem finite_or_infinity (h : x.isNaN = false) :
    x.isFinite = true ∨ ∃ s, x.toModel.unpack = .infinity s := by
  change x.toModel.unpack.isNaN = false at h
  change x.toModel.unpack.isFinite = true ∨ _
  cases hx : x.toModel.unpack <;> simp_all [UnpackedFloat.isNaN, UnpackedFloat.isFinite]

theorem place_of_isFinite (h : x.isFinite = true) : place x = value x := by
  change x.toModel.unpack.isFinite = true at h
  rw [place, value]
  cases hx : x.toModel.unpack <;> simp_all [UnpackedFloat.isFinite, unpackedPlace]

theorem place_of_infinity (h : x.toModel.unpack = .infinity s) : place x = signed s overflow := by
  rw [place, h, unpackedPlace]

theorem abs_place_le (h : x.isNaN = false) : |place x| ≤ overflow := by
  obtain hfinite | ⟨s, hs⟩ := finite_or_infinity h
  · rw [place_of_isFinite hfinite]
    exact (abs_value_lt_overflow hfinite).le
  · rw [place_of_infinity hs, abs_signed s overflow_pos.le]

theorem lt_place_of_isFinite (h : x.isFinite = true) : -overflow < place x := by
  rw [place_of_isFinite h]
  exact (abs_lt.mp (abs_value_lt_overflow h)).1

theorem place_lt_of_isFinite (h : x.isFinite = true) : place x < overflow := by
  rw [place_of_isFinite h]
  exact (abs_lt.mp (abs_value_lt_overflow h)).2

theorem neg_overflow_le_place (h : x.isNaN = false) : -overflow ≤ place x :=
  (abs_le.mp (abs_place_le h)).1

theorem place_le_overflow (h : x.isNaN = false) : place x ≤ overflow :=
  (abs_le.mp (abs_place_le h)).2

/-- An infinity that does not lie at the lower bound is the positive one. -/
theorem eq_positive_of_lt (hs : x.toModel.unpack = .infinity s) (h : -overflow < place x) :
    s = .positive := by
  cases s with
  | positive => rfl
  | negative =>
    rw [place_of_infinity hs] at h
    exact absurd h (lt_irrefl _)

/-- An infinity that does not lie at the upper bound is the negative one. -/
theorem eq_negative_of_lt (hs : x.toModel.unpack = .infinity s) (h : place x < overflow) :
    s = .negative := by
  cases s with
  | negative => rfl
  | positive =>
    rw [place_of_infinity hs] at h
    exact absurd h (lt_irrefl _)

/-- **What does not lie at the bounds is finite.** -/
theorem isFinite_of_place_mem (h : x.isNaN = false) (hlow : -overflow < place x)
    (hhigh : place x < overflow) : x.isFinite = true := by
  obtain hfinite | ⟨s, hs⟩ := finite_or_infinity h
  · exact hfinite
  · cases (eq_positive_of_lt hs hlow).symm.trans (eq_negative_of_lt hs hhigh)

/-- What lies at the upper bound is the positive infinity. -/
theorem unpack_of_overflow_le (h : x.isNaN = false) (hle : overflow ≤ place x) :
    x.toModel.unpack = .infinity .positive := by
  obtain hfinite | ⟨s, hs⟩ := finite_or_infinity h
  · exact absurd (place_lt_of_isFinite hfinite) hle.not_gt
  · rwa [eq_positive_of_lt hs ((neg_lt_self overflow_pos).trans_le hle)] at hs

/-- What lies at the lower bound is the negative infinity. -/
theorem unpack_of_le_neg_overflow (h : x.isNaN = false) (hle : place x ≤ -overflow) :
    x.toModel.unpack = .infinity .negative := by
  obtain hfinite | ⟨s, hs⟩ := finite_or_infinity h
  · exact absurd (lt_place_of_isFinite hfinite) hle.not_gt
  · rwa [eq_negative_of_lt hs (hle.trans_lt (neg_lt_self overflow_pos))] at hs

/-- Two signs are compared as the bounds are. -/
theorem compare_signed_overflow (s t : Sign) :
    compare s t = compare (signed s overflow) (signed t overflow) := by
  have hlt : -overflow < overflow := neg_lt_self overflow_pos
  cases s <;> cases t
  · exact (compare_eq_iff_eq.mpr rfl).symm
  · exact (compare_lt_iff_lt.mpr hlt).symm
  · exact (compare_gt_iff_gt.mpr hlt).symm
  · exact (compare_eq_iff_eq.mpr rfl).symm

theorem compare_infinity_left (hx : x.toModel.unpack = .infinity s) (hy : y.isFinite = true) :
    x.toModel.unpack.compare y.toModel.unpack = some (compare (place x) (place y)) := by
  obtain ⟨t, v, hv, -, -⟩ := exists_holds hy
  have hbound := abs_lt.mp (abs_value_lt_overflow hy)
  rw [place_of_infinity hx, place_of_isFinite hy, hx]
  have hside : UnpackedFloat.compare (.infinity s) y.toModel.unpack =
      some (match s with | .negative => .lt | .positive => .gt) := by
    generalize y.toModel.unpack = g at hv
    cases s <;> cases hv <;> rfl
  rw [hside]
  cases s
  · exact congrArg some (compare_lt_iff_lt.mpr hbound.1).symm
  · exact congrArg some (compare_gt_iff_gt.mpr hbound.2).symm

/-- **Numbers are compared by their places**, infinities and all. -/
theorem compare_eq_of_isNaN (hx : x.isNaN = false) (hy : y.isNaN = false) :
    x.toModel.unpack.compare y.toModel.unpack = some (compare (place x) (place y)) := by
  obtain hxf | ⟨s, hs⟩ := finite_or_infinity hx
  · obtain hyf | ⟨t, ht⟩ := finite_or_infinity hy
    · rw [place_of_isFinite hxf, place_of_isFinite hyf, compare_unpack hxf hyf]
    · rw [compare_swap, compare_infinity_left ht hxf, Option.map_some, ← Std.OrientedOrd.eq_swap]
  · obtain hyf | ⟨t, ht⟩ := finite_or_infinity hy
    · exact compare_infinity_left hs hyf
    · rw [place_of_infinity hs, place_of_infinity ht, hs, ht, ← compare_signed_overflow]
      rfl

theorem le_iff_place_le (hx : x.isNaN = false) (hy : y.isNaN = false) :
    x ≤ y ↔ place x ≤ place y := by
  have hle : x ≤ y ↔ (x.toModel.unpack.compare y.toModel.unpack).any (·.isLE) = true :=
    decide_eq_true_iff
  rw [hle, compare_eq_of_isNaN hx hy]
  exact Ordering.ne_gt_iff_isLE.symm.trans compare_le_iff_le

theorem lt_iff_place_lt (hx : x.isNaN = false) (hy : y.isNaN = false) :
    x < y ↔ place x < place y := by
  have hlt : x < y ↔ (x.toModel.unpack.compare y.toModel.unpack == some .lt) = true :=
    decide_eq_true_iff
  rw [hlt, compare_eq_of_isNaN hx hy, beq_iff_eq, Option.some.injEq]
  exact compare_lt_iff_lt

theorem beq_iff_place_eq (hx : x.isNaN = false) (hy : y.isNaN = false) :
    (x == y) = true ↔ place x = place y := by
  change (x.toModel.unpack.compare y.toModel.unpack == some .eq) = true ↔ _
  rw [compare_eq_of_isNaN hx hy, beq_iff_eq, Option.some.injEq]
  exact compare_eq_iff_eq

/-- What is no number is not compared. -/
theorem not_le_of_isNaN (h : x.isNaN = true ∨ y.isNaN = true) : ¬x ≤ y := by
  obtain hx | hy := h
  · intro hle
    have hcompare : (x.toModel.unpack.compare y.toModel.unpack).any (·.isLE) = true :=
      of_decide_eq_true hle
    rw [isNaN_iff.mp hx] at hcompare
    cases hcompare
  · exact not_le_of_unpack_eq (isNaN_iff.mp hy)

/-! ### Rounded results -/

theorem clamp_mono (h : z ≤ w) : clamp z ≤ clamp w :=
  max_le_max le_rfl (min_le_min le_rfl h)

theorem clamp_eq_self (h : |z| ≤ overflow) : clamp z = z := by
  obtain ⟨hleft, hright⟩ := abs_le.mp h
  rw [clamp, min_eq_right hright, max_eq_right hleft]

theorem RoundsTo.place_eq (h : RoundsTo x z) : place x = clamp (rounded z) := by
  by_cases hlt : |rounded z| < overflow
  · obtain ⟨hfinite, hvalue⟩ := h.finite hlt
    rw [place_of_isFinite hfinite, hvalue, clamp_eq_self hlt.le]
  · have hle := not_lt.mp hlt
    rw [place_of_infinity (h.infinite hle)]
    have hbounds := overflow_pos
    rw [signOf, clamp]
    split
    · rename_i hneg
      have hrounded : rounded z ≤ 0 := by simpa using rounded_mono hneg.le
      rw [abs_of_nonpos hrounded] at hle
      rw [min_eq_right (by linarith), max_eq_left (by linarith)]
      rfl
    · rename_i hpos
      rw [abs_of_nonneg (rounded_nonneg (not_lt.mp hpos))] at hle
      rw [min_eq_left hle, max_eq_right (by linarith)]
      rfl

theorem RoundsTo.isNaN_eq (h : RoundsTo x z) : x.isNaN = false := by
  by_cases hlt : |rounded z| < overflow
  · exact isNaN_of_isFinite (h.finite hlt).1
  · exact isNaN_of_infinity (h.infinite (not_lt.mp hlt))

theorem RoundsTo.place_mono (hx : RoundsTo x z) (hy : RoundsTo y w) (h : z ≤ w) :
    place x ≤ place y := by
  rw [hx.place_eq, hy.place_eq]
  exact clamp_mono (rounded_mono h)

/-- What a finite double is rounded from it is rounded to. -/
theorem RoundsTo.value_eq (h : RoundsTo x z) (hx : x.isFinite = true) : value x = rounded z := by
  refine (h.finite (not_le.mp fun hle => ?_)).2
  rw [isFinite_of_infinity (h.infinite hle)] at hx
  cases hx

/-- The result of an operation is finite if it lies between finite doubles. -/
theorem RoundsTo.of_mem {low high : Float} (h : RoundsTo x z) (hlow : low.isFinite = true)
    (hhigh : high.isFinite = true) (hle : value low ≤ z) (hge : z ≤ value high) :
    x.isFinite = true ∧ value low ≤ value x ∧ value x ≤ value high := by
  have hleft := rounded_mono hle
  have hright := rounded_mono hge
  rw [rounded_value hlow] at hleft
  rw [rounded_value hhigh] at hright
  have hlow' := (abs_lt.mp (abs_value_lt_overflow hlow)).1
  have hhigh' := (abs_lt.mp (abs_value_lt_overflow hhigh)).2
  obtain ⟨hfinite, hvalue⟩ := h.finite (abs_lt.mpr ⟨hlow'.trans_le hleft, hright.trans_lt hhigh'⟩)
  rw [hvalue]
  exact ⟨hfinite, hleft, hright⟩

/-! ### The two infinities -/

theorem unpack_inf : Float.inf.toModel.unpack = .infinity .positive := rfl

theorem unpack_neg_inf : (-Float.inf).toModel.unpack = .infinity .negative := rfl

theorem eq_inf_iff (h : x.isNaN = false) : x = Float.inf ↔ overflow ≤ place x := by
  constructor
  · rintro rfl
    exact (place_of_infinity unpack_inf).ge
  · intro hle
    exact eq_of_unpack_eq ((unpack_of_overflow_le h hle).trans unpack_inf.symm)

theorem eq_neg_inf_iff (h : x.isNaN = false) : x = -Float.inf ↔ place x ≤ -overflow := by
  constructor
  · rintro rfl
    exact (place_of_infinity unpack_neg_inf).le
  · intro hle
    exact eq_of_unpack_eq ((unpack_of_le_neg_overflow h hle).trans unpack_neg_inf.symm)

/-- A number that is neither infinity is finite. -/
theorem isFinite_of_ne (h : x.isNaN = false) (hpos : x ≠ Float.inf) (hneg : x ≠ -Float.inf) :
    x.isFinite = true :=
  isFinite_of_place_mem h (not_le.mp fun hle => hneg ((eq_neg_inf_iff h).mpr hle))
    (not_le.mp fun hle => hpos ((eq_inf_iff h).mpr hle))

end Places

/-! ### Sums and differences -/

theorem unpack_pack_infinity (s : Sign) :
    (Float.Model.pack (.infinity s)).unpack = .infinity s := by
  cases s <;> rfl

theorem unpack_pack_notANumber : (Float.Model.pack .notANumber).unpack = .notANumber := rfl

section Sums

variable {x y z : Float} {s : Sign}

theorem neg_unpack (x : Float) : (-x).toModel.unpack = x.toModel.unpack.neg := by
  change (Float.Model.pack x.toModel.unpack.neg).unpack = _
  obtain ⟨s, v, hv, hlt⟩ | ⟨s, hs⟩ | hnone := unpack_cases x.toModel
  · exact unpack_pack_of_lt hv.neg hlt
  · rw [hs]
    exact unpack_pack_infinity _
  · rw [hnone]
    rfl

theorem isNaN_neg (x : Float) : (-x).isNaN = x.isNaN := by
  change (-x).toModel.unpack.isNaN = x.toModel.unpack.isNaN
  rw [neg_unpack]
  cases x.toModel.unpack <;> rfl

theorem place_neg (x : Float) : place (-x) = -place x := by
  rw [place, place, neg_unpack]
  cases x.toModel.unpack with
  | infinity s => exact signed_neg s _
  | finite s m e hm => exact signed_neg s _
  | _ => exact neg_zero.symm

/-- **A difference is a sum**, whatever is subtracted. -/
theorem sub_eq_add_neg (x y : Float) : x - y = x + -y := by
  have hunpacked : ∀ f g : UnpackedFloat, sub .binary64 f g = add .binary64 f g.neg := by
    have happly : ∀ (t : Sign) (n : ℕ), (-t).apply n = -t.apply n := fun t n => by
      cases t <;> simp [Sign.apply]
    intro f g
    cases f <;> cases g <;> first
      | rfl
      | simp only [UnpackedFloat.sub, UnpackedFloat.add, UnpackedFloat.neg, happly,
          Int.sub_eq_add_neg]
  change Float.ofModel (.pack (sub .binary64 x.toModel.unpack y.toModel.unpack)) =
    .ofModel (.pack (add .binary64 x.toModel.unpack (-y).toModel.unpack))
  rw [neg_unpack, hunpacked]

theorem add_infinity_left (hx : x.toModel.unpack = .infinity s) (hy : y.isFinite = true) :
    (x + y).toModel.unpack = .infinity s := by
  obtain ⟨t, v, hv, -, -⟩ := exists_holds hy
  change (Float.Model.pack (add .binary64 x.toModel.unpack y.toModel.unpack)).unpack = _
  rw [hx]
  generalize y.toModel.unpack = g at hv
  cases hv <;> exact unpack_pack_infinity s

theorem add_infinity_right (hx : x.isFinite = true) (hy : y.toModel.unpack = .infinity s) :
    (x + y).toModel.unpack = .infinity s := by
  obtain ⟨t, v, hv, -, -⟩ := exists_holds hx
  change (Float.Model.pack (add .binary64 x.toModel.unpack y.toModel.unpack)).unpack = _
  rw [hy]
  generalize x.toModel.unpack = f at hv
  cases hv <;> exact unpack_pack_infinity s

theorem add_infinity_self (hx : x.toModel.unpack = .infinity s)
    (hy : y.toModel.unpack = .infinity s) : (x + y).toModel.unpack = .infinity s := by
  change (Float.Model.pack (add .binary64 x.toModel.unpack y.toModel.unpack)).unpack = _
  rw [hx, hy]
  cases s <;> rfl

theorem add_infinity_neg (hx : x.toModel.unpack = .infinity s)
    (hy : y.toModel.unpack = .infinity (-s)) : (x + y).isNaN = true := by
  rw [isNaN_iff]
  change (Float.Model.pack (add .binary64 x.toModel.unpack y.toModel.unpack)).unpack = _
  rw [hx, hy]
  cases s <;> rfl

theorem isNaN_add_of_isNaN (h : x.isNaN = true ∨ y.isNaN = true) : (x + y).isNaN = true := by
  have hunpacked : ∀ f g : UnpackedFloat, f = .notANumber ∨ g = .notANumber →
      add .binary64 f g = .notANumber := by
    rintro f g (rfl | rfl)
    · cases g <;> rfl
    · cases f <;> rfl
  rw [isNaN_iff, isNaN_iff] at h
  rw [isNaN_iff]
  change (Float.Model.pack (add .binary64 x.toModel.unpack y.toModel.unpack)).unpack = _
  rw [hunpacked _ _ h, unpack_pack_notANumber]

theorem isNaN_add_of_isFinite (hx : x.isFinite = true) (hy : y.isNaN = false) :
    (x + y).isNaN = false := by
  obtain hfinite | ⟨t, ht⟩ := finite_or_infinity hy
  · exact (roundsTo_add hx hfinite).isNaN_eq
  · exact isNaN_of_infinity (add_infinity_right hx ht)

/-- To what is not the negative infinity a number that is not negative can be added. -/
theorem isNaN_add_of_nonneg (hx : x.isNaN = false) (hx' : -overflow < place x)
    (hy : y.isNaN = false) (hy' : 0 ≤ place y) : (x + y).isNaN = false := by
  obtain hfinite | ⟨s, hs⟩ := finite_or_infinity hx
  · exact isNaN_add_of_isFinite hfinite hy
  obtain hfinite | ⟨t, ht⟩ := finite_or_infinity hy
  · exact isNaN_of_infinity (add_infinity_left hs hfinite)
  obtain rfl := eq_positive_of_lt hs hx'
  obtain rfl := eq_positive_of_lt ht ((neg_lt_zero.mpr overflow_pos).trans_le hy')
  exact isNaN_of_infinity (add_infinity_self hs ht)

/-- A sum that is a number has numbers for its terms. -/
theorem isNaN_of_add (h : (x + y).isNaN = false) : x.isNaN = false ∧ y.isNaN = false := by
  have hterms : ¬(x.isNaN = true ∨ y.isNaN = true) := fun hnan => by
    rw [isNaN_add_of_isNaN hnan] at h
    cases h
  simpa only [not_or, Bool.not_eq_true] using hterms

theorem sign_eq_or_eq_neg (s t : Sign) : t = s ∨ t = -s := by
  cases s <;> cases t <;> first | exact .inl rfl | exact .inr rfl

/-- **What is added to an infinity leaves it as it is**, if the sum is a number. -/
theorem add_infinity (hx : x.toModel.unpack = .infinity s) (h : (x + y).isNaN = false) :
    (x + y).toModel.unpack = .infinity s := by
  obtain hfinite | ⟨t, ht⟩ := finite_or_infinity (isNaN_of_add h).2
  · exact add_infinity_left hx hfinite
  · obtain rfl | rfl := sign_eq_or_eq_neg s t
    · exact add_infinity_self hx ht
    · rw [add_infinity_neg hx ht] at h
      cases h

/-- An infinity that is added makes the sum one, if that is a number. -/
theorem add_infinity_second (hy : y.toModel.unpack = .infinity s) (h : (x + y).isNaN = false) :
    (x + y).toModel.unpack = .infinity s := by
  obtain hfinite | ⟨t, ht⟩ := finite_or_infinity (isNaN_of_add h).1
  · exact add_infinity_right hfinite hy
  · obtain rfl | rfl := sign_eq_or_eq_neg t s
    · exact add_infinity_self ht hy
    · rw [add_infinity_neg ht hy] at h
      cases h

/-- **The sum grows with its second term.** -/
theorem place_add_mono (hy : (x + y).isNaN = false) (hz : (x + z).isNaN = false)
    (h : place y ≤ place z) : place (x + y) ≤ place (x + z) := by
  obtain ⟨hxn, hyn⟩ := isNaN_of_add hy
  obtain ⟨-, hzn⟩ := isNaN_of_add hz
  obtain hxf | ⟨s, hs⟩ := finite_or_infinity hxn
  · -- the least term gives the least sum, and the greatest the greatest
    rcases le_or_gt (place y) (-overflow) with hleast | hyl
    · have hsum := add_infinity_second (unpack_of_le_neg_overflow hyn hleast) hy
      rw [place_of_infinity hsum]
      exact neg_overflow_le_place hz
    rcases le_or_gt overflow (place z) with hgreatest | hzg
    · have hsum := add_infinity_second (unpack_of_overflow_le hzn hgreatest) hz
      rw [place_of_infinity hsum]
      exact place_le_overflow hy
    have hyf := isFinite_of_place_mem hyn hyl (h.trans_lt hzg)
    have hzf := isFinite_of_place_mem hzn (hyl.trans_le h) hzg
    rw [place_of_isFinite hyf, place_of_isFinite hzf] at h
    exact (roundsTo_add hxf hyf).place_mono (roundsTo_add hxf hzf) (by linarith)
  · rw [place_of_infinity (add_infinity hs hy), place_of_infinity (add_infinity hs hz)]

theorem place_add_zero (h : x.isNaN = false) :
    (x + 0.0).isNaN = false ∧ place (x + 0.0) = place x := by
  obtain hfinite | ⟨s, hs⟩ := finite_or_infinity h
  · have hround := roundsTo_add hfinite (y := 0.0) rfl
    have hzero : value 0.0 = 0 := rfl
    rw [hzero, add_zero] at hround
    refine ⟨hround.isNaN_eq, ?_⟩
    rw [hround.place_eq, rounded_value hfinite, place_of_isFinite hfinite,
      clamp_eq_self (abs_value_lt_overflow hfinite).le]
  · have hsum := add_infinity_left hs (y := 0.0) rfl
    exact ⟨isNaN_of_infinity hsum, by rw [place_of_infinity hsum, place_of_infinity hs]⟩

theorem place_le_add (h : (x + y).isNaN = false) (hy : 0 ≤ place y) : place x ≤ place (x + y) := by
  obtain ⟨hzero, hplace⟩ := place_add_zero (isNaN_of_add h).1
  rw [← hplace]
  exact place_add_mono hzero h hy

theorem place_add_le (h : (x + y).isNaN = false) (hy : place y ≤ 0) : place (x + y) ≤ place x := by
  obtain ⟨hzero, hplace⟩ := place_add_zero (isNaN_of_add h).1
  rw [← hplace]
  exact place_add_mono h hzero hy

theorem isFinite_neg (x : Float) : (-x).isFinite = x.isFinite := by
  change (-x).toModel.unpack.isFinite = x.toModel.unpack.isFinite
  rw [neg_unpack]
  cases x.toModel.unpack <;> rfl

/-- From a number any finite double can be taken away. -/
theorem isNaN_sub_of_isFinite (hx : x.isNaN = false) (hy : y.isFinite = true) :
    (x - y).isNaN = false := by
  obtain hfinite | ⟨s, hs⟩ := finite_or_infinity hx
  · exact (roundsTo_sub hfinite hy).isNaN_eq
  · rw [sub_eq_add_neg]
    exact isNaN_of_infinity (add_infinity_left hs ((isFinite_neg y).trans hy))

/-- **A difference is not negative** if the greater number comes first. -/
theorem place_sub_nonneg (h : (x - y).isNaN = false) (hle : place y ≤ place x) :
    0 ≤ place (x - y) := by
  rw [sub_eq_add_neg] at h ⊢
  obtain ⟨hx, hy⟩ := isNaN_of_add h
  obtain hfinite | ⟨s, hs⟩ := finite_or_infinity hx
  · have hself := roundsTo_sub hfinite hfinite
    have hzero : place (x - x) = 0 := by
      rw [hself.place_eq, sub_self, rounded_zero, clamp_eq_self]
      simpa using overflow_pos.le
    rw [← hzero, sub_eq_add_neg x x]
    refine place_add_mono (isNaN_add_of_isFinite hfinite ((isNaN_neg x).trans hx)) h ?_
    rw [place_neg, place_neg]
    exact neg_le_neg hle
  · rw [place_of_infinity (add_infinity hs h)]
    cases s with
    | positive => exact overflow_pos.le
    | negative =>
      -- then both are the negative infinity, and their difference is no number
      rw [place_of_infinity hs] at hle
      have hneg : (-y).toModel.unpack = .infinity .positive := by
        rw [neg_unpack, unpack_of_le_neg_overflow ((isNaN_neg y).symm.trans hy) hle]
        rfl
      rw [add_infinity_neg hs hneg] at h
      cases h

/-- A difference is finite only between finite doubles. -/
theorem isFinite_of_sub (h : (x - y).isFinite = true) :
    x.isFinite = true ∧ y.isFinite = true := by
  have hnumber := isNaN_of_isFinite h
  rw [sub_eq_add_neg] at h hnumber
  obtain ⟨hx, hy⟩ := isNaN_of_add hnumber
  constructor
  · obtain hfinite | ⟨s, hs⟩ := finite_or_infinity hx
    · exact hfinite
    · rw [isFinite_of_infinity (add_infinity hs hnumber)] at h
      cases h
  · obtain hfinite | ⟨s, hs⟩ := finite_or_infinity hy
    · rwa [isFinite_neg] at hfinite
    · rw [isFinite_of_infinity (add_infinity_second hs hnumber)] at h
      cases h

/-- A difference is finite if one between more distant doubles is. -/
theorem isFinite_sub_of_le {w : Float} (h : (z - w).isFinite = true) (hx : x.isFinite = true)
    (hy : y.isFinite = true) (hwx : value w ≤ value x) (hxy : value x ≤ value y)
    (hyz : value y ≤ value z) : (y - x).isFinite = true := by
  obtain ⟨hz, hw⟩ := isFinite_of_sub h
  have hle : rounded (value y - value x) ≤ rounded (value z - value w) :=
    rounded_mono (by linarith)
  have hbound := abs_value_lt_overflow h
  rw [(roundsTo_sub hz hw).value_eq h] at hbound
  refine ((roundsTo_sub hy hx).finite ?_).1
  rw [abs_of_nonneg (rounded_nonneg (sub_nonneg.mpr hxy))]
  exact hle.trans_lt (abs_lt.mp hbound).2

end Sums

/-! ### Products and quotients -/

section Products

variable {x y : Float} {s : Sign}

theorem mul_infinity_left (hx : x.toModel.unpack = .infinity s) (hy : y.isFinite = true)
    (hpos : 0 < value y) : (x * y).toModel.unpack = .infinity s := by
  obtain ⟨t, v, hv, -, hvalue⟩ := exists_holds hy
  change (Float.Model.pack (mul .binary64 x.toModel.unpack y.toModel.unpack)).unpack = _
  rw [hx]
  rw [hvalue] at hpos
  generalize y.toModel.unpack = g at hv
  cases hv with
  | zero => exact absurd (signed_zero t) hpos.ne'
  | finite _ hm h =>
    cases t with
    | negative => exact absurd hpos (not_lt.mpr (neg_nonpos.mpr (by positivity)))
    | positive => cases s <;> exact unpack_pack_infinity _

theorem isNaN_mul_of_isNaN (h : x.isNaN = true ∨ y.isNaN = true) : (x * y).isNaN = true := by
  have hunpacked : ∀ f g : UnpackedFloat, f = .notANumber ∨ g = .notANumber →
      mul .binary64 f g = .notANumber := by
    rintro f g (rfl | rfl)
    · cases g <;> rfl
    · cases f <;> rfl
  rw [isNaN_iff, isNaN_iff] at h
  rw [isNaN_iff]
  change (Float.Model.pack (mul .binary64 x.toModel.unpack y.toModel.unpack)).unpack = _
  rw [hunpacked _ _ h, unpack_pack_notANumber]

/-- No multiple of an infinity by zero is a number. -/
theorem isNaN_mul_zero (hx : x.toModel.unpack = .infinity s) (hy : y.isFinite = true)
    (hzero : value y = 0) : (x * y).isNaN = true := by
  obtain ⟨t, v, hv, -, hvalue⟩ := exists_holds hy
  rw [isNaN_iff]
  change (Float.Model.pack (mul .binary64 x.toModel.unpack y.toModel.unpack)).unpack = _
  rw [hx]
  rw [hvalue, ← abs_eq_zero, abs_signed t hv.nonneg] at hzero
  generalize y.toModel.unpack = g at hv
  cases hv with
  | zero => exact unpack_pack_notANumber
  | @finite _ m e hm h => exact absurd hzero (mul_pos (mod_cast hm) (two_zpow_pos e)).ne'

theorem mul_infinity_right (hx : x.isFinite = true) (hpos : 0 < value x)
    (hy : y.toModel.unpack = .infinity s) : (x * y).toModel.unpack = .infinity s := by
  obtain ⟨t, v, hv, -, hvalue⟩ := exists_holds hx
  change (Float.Model.pack (mul .binary64 x.toModel.unpack y.toModel.unpack)).unpack = _
  rw [hy]
  rw [hvalue] at hpos
  generalize x.toModel.unpack = f at hv
  cases hv with
  | zero => exact absurd (signed_zero t) hpos.ne'
  | finite _ hm h =>
    cases t with
    | negative => exact absurd hpos (not_lt.mpr (neg_nonpos.mpr (by positivity)))
    | positive => cases s <;> exact unpack_pack_infinity _

/-- **A multiple of a number that is not negative is none either.** -/
theorem place_mul_nonneg (hx : x.isFinite = true) (hpos : 0 < value x) (hy : y.isNaN = false)
    (hnonneg : 0 ≤ place y) : (x * y).isNaN = false ∧ 0 ≤ place (x * y) := by
  obtain hfinite | ⟨s, hs⟩ := finite_or_infinity hy
  · have hround := roundsTo_mul hx hfinite
    rw [place_of_isFinite hfinite] at hnonneg
    have hproduct := rounded_nonneg (mul_nonneg hpos.le hnonneg)
    refine ⟨hround.isNaN_eq, ?_⟩
    rw [hround.place_eq]
    exact le_max_of_le_right (le_min overflow_pos.le hproduct)
  · have hproduct := mul_infinity_right hx hpos hs
    refine ⟨isNaN_of_infinity hproduct, ?_⟩
    rwa [place_of_infinity hproduct, ← place_of_infinity hs]

/-- **A quotient is a number if the dividend is one.** -/
theorem isNaN_div (x : Float) (hy : y.isFinite = true) (hne : value y ≠ 0) :
    (x / y).isNaN = x.isNaN := by
  cases hx : x.isNaN with
  | true =>
    have hunpacked : ∀ g : UnpackedFloat, div .binary64 .notANumber g = .notANumber := fun g => by
      cases g <;> rfl
    rw [isNaN_iff] at hx ⊢
    change (Float.Model.pack (div .binary64 x.toModel.unpack y.toModel.unpack)).unpack = _
    rw [hx, hunpacked, unpack_pack_notANumber]
  | false =>
    obtain hfinite | ⟨s, hs⟩ := finite_or_infinity hx
    · exact (roundsTo_div hfinite hy hne).isNaN_eq
    · obtain ⟨t, v, hv, -, -⟩ := exists_holds hy
      have hquotient : (x / y).toModel.unpack = .infinity (s / t) := by
        change (Float.Model.pack (div .binary64 x.toModel.unpack y.toModel.unpack)).unpack = _
        rw [hs]
        generalize y.toModel.unpack = g at hv
        cases hv <;> exact unpack_pack_infinity _
      exact isNaN_of_infinity hquotient

end Products

end BenchReport.Binary64
