import Mathlib
import BenchReport.Text.Blank
import BenchReport.Text.Integer

/-!
# Which texts are integers

Digits are read from the left and the reader stops at the first fault it meets. Since
a number only grows while its digits are read, it passes the bound of its type at
some digit exactly when the whole number is beyond that bound – so the order in which
faults are found does not matter to *whether* there is one
(`BenchReport.Text.readDigits_eq_ok_iff`), and an integer is what its grammar says: an
optional sign, digits, and a value that the type holds
(`BenchReport.Text.readSigned_eq_ok_iff`, `BenchReport.Text.readUnsigned_eq_ok_iff`).

The decimal text of a number is one of the texts that are read as it
(`BenchReport.Text.readSigned_showSigned`).
-/

namespace BenchReport.Text

/-! ### Digits -/

/-- A text of at least one ASCII digit, and nothing else. -/
def IsDigits (s : List Char) : Prop := s ≠ [] ∧ ∀ c ∈ s, c.isDigit = true

instance (s : List Char) : Decidable (IsDigits s) :=
  decidable_of_iff (s ≠ [] ∧ s.all Char.isDigit = true) (by simp [IsDigits])

/-- Nothing but digits is among digits. -/
theorem notMem_of_isDigit {s : List Char} (h : ∀ c ∈ s, c.isDigit = true) {c : Char}
    (hc : c.isDigit = false) : c ∉ s := by
  intro hmem
  rw [h c hmem] at hc
  cases hc

/-- The number that a text of digits spells. -/
def spelled (s : List Char) : Nat := Nat.ofDigitChars 10 s 0

theorem le_ofDigitChars (s : List Char) (value : Nat) : value ≤ Nat.ofDigitChars 10 s value := by
  rw [Nat.ofDigitChars_eq_ofDigitChars_zero]
  have hpow : 1 ≤ 10 ^ s.length := Nat.one_le_pow _ _ (by decide)
  nlinarith [Nat.zero_le (Nat.ofDigitChars 10 s 0)]

/-- **Digits are read exactly when the whole number is within the limit.** -/
theorem readDigits_eq_ok_iff {limit : Nat} {excess : IntegerFault} {s : List Char} {value n : Nat}
    (hvalue : value ≤ limit) :
    readDigits limit excess value s = .ok n ↔
      (∀ c ∈ s, c.isDigit = true) ∧ n = Nat.ofDigitChars 10 s value ∧ n ≤ limit := by
  induction s generalizing value with
  | nil =>
    rw [readDigits, Except.ok.injEq, Nat.ofDigitChars_nil]
    constructor
    · rintro rfl
      exact ⟨by simp, rfl, hvalue⟩
    · rintro ⟨-, rfl, -⟩
      rfl
  | cons c s ih =>
    rw [readDigits, digitValue?]
    by_cases hc : c.isDigit = true
    · simp only [hc, if_true]
      have hcons : Nat.ofDigitChars 10 (c :: s) value =
          Nat.ofDigitChars 10 s (value * 10 + (c.toNat - '0'.toNat)) := by
        rw [Nat.ofDigitChars_cons, Nat.mul_comm]
      rw [hcons]
      split
      · -- the number has outgrown the limit, and it will not shrink again
        rename_i hlarge
        refine iff_of_false (by simp) ?_
        rintro ⟨-, rfl, hle⟩
        have := le_ofDigitChars s (value * 10 + (c.toNat - '0'.toNat))
        omega
      · rename_i hsmall
        rw [ih (Nat.le_of_not_lt hsmall)]
        simp [hc]
    · simp [hc]

/-- A magnitude is read exactly when it is made of digits and within the limit. -/
theorem readMagnitude_eq_ok_iff {limit : Nat} {excess : IntegerFault} {whole digits : List Char}
    {n : Nat} (hwhole : digits <:+ whole) :
    readMagnitude limit excess whole digits = .ok n ↔
      IsDigits digits ∧ n = spelled digits ∧ n ≤ limit := by
  rw [readMagnitude]
  by_cases hdigits : digits = []
  · subst hdigits
    refine iff_of_false ?_ fun h => h.1.1 rfl
    split <;> simp
  · have hne : whole ≠ [] := fun h => hdigits (List.suffix_nil.mp (h ▸ hwhole))
    rw [if_neg (by simp [hne]), if_neg (by simp [hdigits]),
      readDigits_eq_ok_iff (Nat.zero_le limit), IsDigits, spelled]
    simp [hdigits]

/-- **A magnitude is read as a word exactly when it is made of digits and the word has
its value.** The value of a word, as `HasValue` states it, must be one within the limit. -/
theorem map_readMagnitude_eq_ok_iff {Word : Type} {toWord : Nat → Word} {HasValue : Nat → Prop}
    {limit : Nat} {excess : IntegerFault} {whole digits : List Char} {w : Word}
    (hwhole : digits <:+ whole) (hword : ∀ m, m ≤ limit ∧ toWord m = w ↔ HasValue m) :
    (readMagnitude limit excess whole digits).map toWord = .ok w ↔
      IsDigits digits ∧ HasValue (spelled digits) := by
  rw [← hword]
  constructor
  · intro h
    cases hm : readMagnitude limit excess whole digits with
    | error e => rw [hm] at h; cases h
    | ok m =>
      obtain ⟨hdigits, rfl, hle⟩ := (readMagnitude_eq_ok_iff hwhole).mp hm
      rw [hm] at h
      exact ⟨hdigits, hle, Except.ok.inj h⟩
  · rintro ⟨hdigits, hle, rfl⟩
    rw [(readMagnitude_eq_ok_iff hwhole).mpr ⟨hdigits, rfl, hle⟩]
    rfl

/-- A sign is no digit, so digits do not begin with one. -/
theorem IsDigits.head_ne {c : Char} {s : List Char} (h : IsDigits (c :: s)) :
    c ≠ '-' ∧ c ≠ '+' := by
  have hc : c.isDigit = true := h.2 c (by simp)
  constructor <;> (rintro rfl; exact absurd hc (by decide))

/-! ### Signed numbers -/

/-- **The grammar of a signed number**: digits with an optional sign in front, whose
value is that of the number. Being the value of a word of 64 bits, it is in range. -/
def IsSigned (s : List Char) (n : Int64) : Prop :=
  ∃ digits, IsDigits digits ∧
    ((s = digits ∨ s = '+' :: digits) ∧ n.toInt = spelled digits ∨
      s = '-' :: digits ∧ n.toInt = -(spelled digits : Int))

/-- The words that a magnitude without a minus is read as. -/
theorem ofNat_eq_iff_toInt {n : Int64} (m : Nat) :
    m ≤ 0x7fffffffffffffff ∧ Int64.ofNat m = n ↔ n.toInt = m := by
  constructor
  · rintro ⟨hm, rfl⟩
    exact Int64.toInt_ofNat_of_lt (by omega)
  · intro h
    have hm : m ≤ 0x7fffffffffffffff := by have := n.toInt_lt; omega
    exact ⟨hm, Int64.toInt.inj (by rw [Int64.toInt_ofNat_of_lt (by omega), h])⟩

/-- The words that a magnitude behind a minus is read as. -/
theorem ofInt_neg_eq_iff_toInt {n : Int64} (m : Nat) :
    m ≤ 0x8000000000000000 ∧ Int64.ofInt (-(m : Int)) = n ↔ n.toInt = -(m : Int) := by
  constructor
  · rintro ⟨hm, rfl⟩
    exact Int64.toInt_ofInt_of_le (by omega) (by omega)
  · intro h
    have hm : m ≤ 0x8000000000000000 := by have := n.le_toInt; omega
    exact ⟨hm, Int64.toInt.inj (by rw [Int64.toInt_ofInt_of_le (by omega) (by omega), h])⟩

/-- What stands behind a minus is read as a magnitude and negated. -/
theorem readSigned_minus (digits : List Char) :
    readSigned ('-' :: digits) =
      (readMagnitude 0x8000000000000000 .tooSmall ('-' :: digits) digits).map
        fun m : Nat => Int64.ofInt (-(m : Int)) := by
  rw [readSigned]
  cases readMagnitude 0x8000000000000000 .tooSmall ('-' :: digits) digits <;> rfl

/-- **A text is read as a signed number exactly when the grammar says so.** -/
theorem readSigned_eq_ok_iff {s : List Char} {n : Int64} : readSigned s = .ok n ↔ IsSigned s n := by
  rw [readSigned.eq_def, IsSigned]
  split
  · rename_i digits
    change readSigned ('-' :: digits) = .ok n ↔ _
    rw [readSigned_minus,
      map_readMagnitude_eq_ok_iff (List.suffix_cons '-' digits) ofInt_neg_eq_iff_toInt]
    constructor
    · rintro ⟨hdigits, hn⟩
      exact ⟨digits, hdigits, Or.inr ⟨rfl, hn⟩⟩
    · rintro ⟨digits', hdigits', ⟨rfl | h, -⟩ | ⟨h, hn⟩⟩
      · exact absurd rfl hdigits'.head_ne.1
      · cases h
      · obtain ⟨-, rfl⟩ := List.cons.inj h
        exact ⟨hdigits', hn⟩
  · rename_i digits
    rw [map_readMagnitude_eq_ok_iff (List.suffix_cons '+' digits) ofNat_eq_iff_toInt]
    constructor
    · rintro ⟨hdigits, hn⟩
      exact ⟨digits, hdigits, Or.inl ⟨Or.inr rfl, hn⟩⟩
    · rintro ⟨digits', hdigits', ⟨rfl | h, hn⟩ | ⟨h, -⟩⟩
      · exact absurd rfl hdigits'.head_ne.2
      · obtain ⟨-, rfl⟩ := List.cons.inj h
        exact ⟨hdigits', hn⟩
      · cases h
  · rename_i hminus hplus
    rw [map_readMagnitude_eq_ok_iff (List.suffix_refl s) ofNat_eq_iff_toInt]
    constructor
    · rintro ⟨hdigits, hn⟩
      exact ⟨s, hdigits, Or.inl ⟨Or.inl rfl, hn⟩⟩
    · rintro ⟨digits', hdigits', ⟨rfl | h, hn⟩ | ⟨h, -⟩⟩
      · exact ⟨hdigits', hn⟩
      · exact absurd h (hplus digits')
      · exact absurd h (hminus digits')

/-! ### Unsigned numbers -/

/-- The words that an unsigned number is read as. -/
theorem ofNat_eq_iff_toNat {n : UInt64} (m : Nat) :
    m ≤ UInt64.size - 1 ∧ UInt64.ofNat m = n ↔ n.toNat = m := by
  have hsize : 0 < UInt64.size := by decide
  constructor
  · rintro ⟨hm, rfl⟩
    exact UInt64.toNat_ofNat_of_lt' (by omega)
  · rintro rfl
    have hlt := n.toNat_lt_size
    exact ⟨by omega, UInt64.ofNat_toNat⟩

theorem dropPlus_eq_some_iff {s digits : List Char} :
    readUnsigned.dropPlus s = some digits ↔ s = '+' :: digits := by
  rw [readUnsigned.dropPlus.eq_def]
  split
  · simp
  · rename_i hplus
    exact iff_of_false (by simp) (hplus digits)

/-- **A text is read as an unsigned number exactly when it is digits, with an optional
plus in front, of a value that 64 bits hold.** -/
theorem readUnsigned_eq_ok_iff {s : List Char} {n : UInt64} :
    readUnsigned s = .ok n ↔
      ∃ digits, IsDigits digits ∧ (s = digits ∨ s = '+' :: digits) ∧ n.toNat = spelled digits := by
  rw [readUnsigned]
  cases hplus : readUnsigned.dropPlus s with
  | some digits =>
    obtain rfl := dropPlus_eq_some_iff.mp hplus
    rw [Option.getD_some,
      map_readMagnitude_eq_ok_iff (List.suffix_cons '+' digits) ofNat_eq_iff_toNat]
    constructor
    · rintro ⟨hdigits, hn⟩
      exact ⟨digits, hdigits, .inr rfl, hn⟩
    · rintro ⟨digits', hdigits', rfl | h, hn⟩
      · exact absurd rfl hdigits'.head_ne.2
      · obtain ⟨-, rfl⟩ := List.cons.inj h
        exact ⟨hdigits', hn⟩
  | none =>
    rw [Option.getD_none, map_readMagnitude_eq_ok_iff (List.suffix_refl s) ofNat_eq_iff_toNat]
    constructor
    · rintro ⟨hdigits, hn⟩
      exact ⟨s, hdigits, .inl rfl, hn⟩
    · rintro ⟨digits', hdigits', rfl | h, hn⟩
      · exact ⟨hdigits', hn⟩
      · rw [dropPlus_eq_some_iff.mpr h] at hplus
        cases hplus

/-! ### Decimal texts -/

theorem isDigits_toDigits (n : Nat) : IsDigits (Nat.toDigits 10 n) :=
  ⟨Nat.toDigits_ne_nil, fun _ hc => Nat.isDigit_of_mem_toDigits (by decide) (by decide) hc⟩

theorem spelled_toDigits (n : Nat) : spelled (Nat.toDigits 10 n) = n :=
  Nat.ofDigitChars_ten_toDigits

/-- The characters of the decimal text of a signed number. -/
theorem toList_showSigned (n : Int64) :
    (showSigned n).toList =
      (if n.toInt < 0 then ['-'] else []) ++ Nat.toDigits 10 n.toInt.natAbs := by
  have hneg : n < 0 ↔ n.toInt < 0 := by
    rw [Int64.lt_iff_toInt_lt]
    rfl
  rw [showSigned]
  split <;> simp_all

/-- **The decimal text of a signed number is read as that number.** -/
theorem readSigned_showSigned (n : Int64) : readSigned (showSigned n).toList = .ok n := by
  rw [readSigned_eq_ok_iff, toList_showSigned]
  refine ⟨Nat.toDigits 10 n.toInt.natAbs, isDigits_toDigits _, ?_⟩
  rw [spelled_toDigits]
  split
  · exact Or.inr ⟨rfl, by omega⟩
  · exact Or.inl ⟨Or.inl rfl, by omega⟩

theorem showSigned_injective : Function.Injective showSigned := by
  intro a b h
  have hread := readSigned_showSigned a
  rw [h, readSigned_showSigned] at hread
  exact (Except.ok.inj hread).symm

/-- **The decimal text of an unsigned number is read as that number.** -/
theorem readUnsigned_showUnsigned (n : UInt64) : readUnsigned (showUnsigned n).toList = .ok n := by
  rw [readUnsigned_eq_ok_iff, showUnsigned, Nat.toList_repr]
  exact ⟨_, isDigits_toDigits _, Or.inl rfl, (spelled_toDigits _).symm⟩

/-- A digit is no blank. -/
theorem isBlank_of_isDigit {c : Char} (h : c.isDigit = true) : isBlank c = false := by
  have hc : 48 ≤ c.toNat ∧ c.toNat ≤ 57 := by
    simp only [Char.isDigit, ge_iff_le, Bool.and_eq_true, decide_eq_true_eq] at h
    exact ⟨h.1, h.2⟩
  simp only [isBlank, Bool.or_eq_false_iff, Bool.and_eq_false_iff, decide_eq_false_iff_not]
  omega

end BenchReport.Text
