import Scriptlet.Decimal.FloatText
import Scriptlet.Decimal.Read
import Mathlib.Algebra.Field.Rat
import Mathlib.Data.List.TakeWhile
import Mathlib.Tactic.NormNum
import Mathlib.Tactic.Ring

namespace Scriptlet

/-!
# Decimals are read as they are written

A decimal is written positionally or with an exponent.  Whichever way it is, the text is
read as the digits times the power of ten that it was written for.
-/

/-! ## Integers -/

theorem toList_toString (value : Int) :
    (toString value).toList =
      if 0 ≤ value then Nat.toDigits 10 value.toNat
      else '-' :: Nat.toDigits 10 (-value).toNat := by
  rw [Int.toString_eq_repr, Int.repr_eq_if]
  split <;> simp

theorem isDigits_toDigits (number : Nat) :
    isDigits (Nat.toDigits 10 number) = true := by
  rw [isDigits_iff]
  exact ⟨Nat.toDigits_ne_nil, fun character member =>
    Nat.isDigit_of_mem_toDigits (by decide) (by decide) member⟩

theorem splitSign_of_isDigits
    {digits : List Char}
    (allDigits : isDigits digits = true) :
    splitSign digits = (false, digits) := by
  unfold splitSign
  split
  case h_1 | h_2 =>
    simp [isDigits] at allDigits
  case h_3 =>
    rfl

theorem isDigit_of_mem_toString
    {value : Int}
    {character : Char}
    (member : character ∈ (toString value).toList) :
    character = '-' ∨ character.isDigit = true := by
  rw [toList_toString] at member
  split at member
  · exact .inr (Nat.isDigit_of_mem_toDigits (by decide) (by decide) member)
  · rcases List.mem_cons.mp member with isMinus | isDigit
    · exact .inl isMinus
    · exact .inr (Nat.isDigit_of_mem_toDigits (by decide) (by decide) isDigit)

/-- An integer is read as it is written. -/
theorem readWhole?_toString (value : Int) :
    readWhole? (toString value).toList = some value := by
  rw [toList_toString]
  split
  case isTrue nonneg =>
    have digits := isDigits_toDigits value.toNat
    simp only [readWhole?, splitSign_of_isDigits digits, digits, digitsValue,
      Nat.ofDigitChars_ten_toDigits]
    simp [Int.toNat_of_nonneg nonneg]
  case isFalse negative =>
    have digits := isDigits_toDigits (-value).toNat
    simp only [readWhole?, splitSign, digits, digitsValue, Nat.ofDigitChars_ten_toDigits]
    simp
    omega

/-! ## Digits -/

theorem digitsValue_append_zeros
    (digits : List Char)
    (zeros : Nat) :
    digitsValue (digits ++ List.replicate zeros '0') = digitsValue digits * 10 ^ zeros := by
  rw [digitsValue, Nat.ofDigitChars_append, Nat.ofDigitChars_replicate_zero, Nat.mul_comm]
  rfl

theorem digitsValue_zeros_append
    (zeros : Nat)
    (digits : List Char) :
    digitsValue (List.replicate zeros '0' ++ digits) = digitsValue digits := by
  rw [digitsValue, Nat.ofDigitChars_append, Nat.ofDigitChars_replicate_zero, Nat.mul_zero]
  rfl

theorem isDigit_of_mem_zeros {zeros : Nat} :
    ∀ character ∈ List.replicate zeros '0', character.isDigit = true := by
  intro character member
  rw [List.eq_of_mem_replicate member]
  rfl

/-! ## Texts that are read as numbers -/

/-- Whether a text is read as a value. -/
def ReadsAs (text : List Char) (value : ℚ) : Prop :=
  ∃ count tens, readDecimal? text = some (count, tens) ∧
    (count : ℚ) * 10 ^ tens = value

theorem ReadsAs.unique
    {text : List Char}
    {value other : ℚ}
    (reads : ReadsAs text value)
    (otherReads : ReadsAs text other) :
    value = other := by
  obtain ⟨count, tens, isRead, rfl⟩ := reads
  obtain ⟨otherCount, otherTens, otherIsRead, rfl⟩ := otherReads
  cases isRead.symm.trans otherIsRead
  rfl

theorem takeWhile_isDigit_append
    {digits tail : List Char}
    (allDigits : ∀ character ∈ digits, character.isDigit = true)
    (ended : ∀ character ∈ tail.head?, character.isDigit = false) :
    (digits ++ tail).takeWhile Char.isDigit = digits ∧
      (digits ++ tail).dropWhile Char.isDigit = tail := by
  rw [List.takeWhile_append_of_pos allDigits, List.dropWhile_append_of_pos allDigits]
  cases tail with
  | nil =>
      simp
  | cons first rest =>
      have notDigit : first.isDigit = false := ended first rfl
      simp [notDigit]

section Texts

variable {whole fraction tail : List Char} {exponent : Int}

theorem readsAs_fraction
    (wholeDigits : isDigits whole = true)
    (fractionDigits : ∀ character ∈ fraction, character.isDigit = true)
    (ended : ∀ character ∈ tail.head?, character.isDigit = false)
    (hasExponent : readExponent? tail = some exponent) :
    ReadsAs (whole ++ '.' :: (fraction ++ tail))
      (digitsValue (whole ++ fraction) * 10 ^ (exponent - fraction.length)) := by
  obtain ⟨someWhole, allWhole⟩ := isDigits_iff.mp wholeDigits
  have pointBehind : ∀ character ∈ ('.' :: (fraction ++ tail)).head?,
      character.isDigit = false := by
    simp
  obtain ⟨isWhole, isBehind⟩ := takeWhile_isDigit_append allWhole pointBehind
  obtain ⟨isFraction, isTail⟩ := takeWhile_isDigit_append fractionDigits ended
  have notEmpty : whole.isEmpty = false := List.isEmpty_eq_false_iff.mpr someWhole
  refine ⟨_, _, ?_, rfl⟩
  simp only [readDecimal?, isWhole, isBehind, isFraction, isTail, notEmpty, hasExponent,
    Bool.false_and, Bool.false_eq_true, if_false, Option.map_some]

theorem readsAs_whole
    (wholeDigits : isDigits whole = true)
    (ended : ∀ character ∈ tail.head?, character.isDigit = false ∧ character ≠ '.')
    (hasExponent : readExponent? tail = some exponent) :
    ReadsAs (whole ++ tail) (digitsValue whole * 10 ^ exponent) := by
  obtain ⟨someWhole, allWhole⟩ := isDigits_iff.mp wholeDigits
  obtain ⟨isWhole, isTail⟩ :=
    takeWhile_isDigit_append allWhole fun character member => (ended character member).1
  refine ⟨digitsValue whole, exponent, ?_, rfl⟩
  unfold readDecimal?
  simp only [isWhole, isTail]
  split
  case h_1 rest =>
    exact absurd rfl (ended '.' rfl).2
  case h_2 =>
    simp [someWhole, hasExponent]

end Texts

theorem readExponent?_toString (exponent : Int) :
    readExponent? ('e' :: (toString exponent).toList) = some exponent := by
  rw [readExponent?, if_pos (.inl rfl), readWhole?_toString]

/-! ## Texts that are written for numbers -/

/-- Texts with a point or an exponent, and the numbers that they are written for. -/
inductive WrittenAs : List Char → ℚ → Prop where
  /-- Digits with a point among or behind them. -/
  | point
      (wholeDigits : isDigits whole = true)
      (fractionDigits : ∀ character ∈ fraction, character.isDigit = true) :
      WrittenAs (whole ++ '.' :: fraction)
        (digitsValue (whole ++ fraction) * 10 ^ (-(fraction.length : Int)))
  /-- Digits and an exponent. -/
  | exponent
      (wholeDigits : isDigits whole = true)
      (power : Int) :
      WrittenAs (whole ++ 'e' :: (toString power).toList)
        (digitsValue whole * 10 ^ power)
  /-- Digits with a point among them, and an exponent. -/
  | pointAndExponent
      (wholeDigits : isDigits whole = true)
      (fractionDigits : ∀ character ∈ fraction, character.isDigit = true)
      (power : Int) :
      WrittenAs (whole ++ '.' :: (fraction ++ 'e' :: (toString power).toList))
        (digitsValue (whole ++ fraction) * 10 ^ (power - fraction.length))

/-- Whether a character may stand in the text of a number. -/
def isNumeral (character : Char) : Bool :=
  character.isDigit || character == '.' || character == 'e' || character == '-'

/-- The form of a text that is written for a number, but not for an integer. -/
structure Fractional (text : List Char) : Prop where
  first : ∃ digit rest, text = digit :: rest ∧ digit.isDigit = true
  marked : '.' ∈ text ∨ 'e' ∈ text
  numerals : ∀ character ∈ text, isNumeral character = true

theorem isNumeral_of_isDigit
    {character : Char}
    (isDigit : character.isDigit = true) :
    isNumeral character = true := by
  simp [isNumeral, isDigit]

theorem isNumeral_of_mem_toString
    {value : Int}
    {character : Char}
    (member : character ∈ (toString value).toList) :
    isNumeral character = true := by
  rcases isDigit_of_mem_toString member with rfl | isDigit
  · rfl
  · exact isNumeral_of_isDigit isDigit

/-- Digits with a mark behind them. -/
theorem Fractional.of_append
    {whole rest : List Char}
    (wholeDigits : isDigits whole = true)
    (marked : '.' ∈ rest ∨ 'e' ∈ rest)
    (numerals : ∀ character ∈ rest, isNumeral character = true) :
    Fractional (whole ++ rest) := by
  obtain ⟨someWhole, allWhole⟩ := isDigits_iff.mp wholeDigits
  refine ⟨?_, ?_, ?_⟩
  · obtain ⟨digit, more, rfl⟩ := List.exists_cons_of_ne_nil someWhole
    exact ⟨digit, more ++ rest, rfl, allWhole digit List.mem_cons_self⟩
  · exact marked.imp (List.mem_append_right _) (List.mem_append_right _)
  · intro character member
    rcases List.mem_append.mp member with isWhole | isRest
    · exact isNumeral_of_isDigit (allWhole character isWhole)
    · exact numerals character isRest

namespace WrittenAs

variable {text : List Char} {value : ℚ}

/-- A number is read as it is written. -/
theorem readsAs (written : WrittenAs text value) :
    ReadsAs text value := by
  cases written with
  | @point whole fraction wholeDigits fractionDigits =>
      have reads := @readsAs_fraction whole fraction [] 0 wholeDigits fractionDigits nofun
        rfl
      rwa [List.append_nil, zero_sub] at reads
  | exponent wholeDigits power =>
      exact readsAs_whole wholeDigits (by simp) (readExponent?_toString power)
  | pointAndExponent wholeDigits fractionDigits power =>
      exact readsAs_fraction wholeDigits fractionDigits (by simp)
        (readExponent?_toString power)

theorem fractional (written : WrittenAs text value) :
    Fractional text := by
  have exponentNumerals (power : Int) :
      ∀ character ∈ 'e' :: (toString power).toList, isNumeral character = true :=
    List.forall_mem_cons.mpr ⟨rfl, fun _ member => isNumeral_of_mem_toString member⟩
  cases written with
  | point wholeDigits fractionDigits =>
      apply Fractional.of_append wholeDigits (.inl List.mem_cons_self)
      exact List.forall_mem_cons.mpr ⟨rfl, fun character member =>
        isNumeral_of_isDigit (fractionDigits character member)⟩
  | exponent wholeDigits power =>
      exact .of_append wholeDigits (.inr List.mem_cons_self) (exponentNumerals power)
  | pointAndExponent wholeDigits fractionDigits power =>
      apply Fractional.of_append wholeDigits (.inl List.mem_cons_self)
      refine List.forall_mem_cons.mpr ⟨rfl, List.forall_mem_append.mpr ⟨?_, ?_⟩⟩
      · exact fun character member =>
          isNumeral_of_isDigit (fractionDigits character member)
      · exact exponentNumerals power

end WrittenAs

/-! ## Decimals -/

namespace Decimal

/-- The number that a decimal stands for. -/
def value (decimal : Decimal) : ℚ :=
  digitsValue decimal.digits *
    10 ^ (decimal.leading - ((decimal.digits.length : Int) - 1))

section Written

variable {decimal : Decimal} (areDigits : isDigits decimal.digits = true)
include areDigits

/-- A decimal below one has zeros behind its point. -/
theorem writtenAs_zerosInFront (isSmall : decimal.leading < 0) :
    WrittenAs
      ('0' :: '.' ::
        (List.replicate (-decimal.leading - 1).toNat '0' ++ decimal.digits))
      decimal.value := by
  obtain ⟨_, allDigits⟩ := isDigits_iff.mp areDigits
  obtain ⟨zeros, isZeros⟩ : ∃ zeros : Nat, decimal.leading = -(zeros : Int) - 1 :=
    ⟨(-decimal.leading - 1).toNat, by omega⟩
  have isCount : (-decimal.leading - 1).toNat = zeros := by
    omega
  have wholeDigits : isDigits ['0'] = true := rfl
  have fractionDigits : ∀ character ∈ List.replicate zeros '0' ++ decimal.digits,
      character.isDigit = true :=
    List.forall_mem_append.mpr ⟨isDigit_of_mem_zeros, allDigits⟩
  have sameDigits :
      digitsValue (['0'] ++ (List.replicate zeros '0' ++ decimal.digits)) =
        digitsValue decimal.digits := by
    rw [← List.append_assoc]
    exact digitsValue_zeros_append (zeros + 1) decimal.digits
  have isPower : decimal.leading - ((decimal.digits.length : Int) - 1) =
      -((List.replicate zeros '0' ++ decimal.digits).length : Int) := by
    rw [List.length_append, List.length_replicate]
    omega
  rw [isCount, value, isPower, ← sameDigits]
  exact .point wholeDigits fractionDigits

/-- A whole decimal has zeros up to its point and one behind it. -/
theorem writtenAs_zerosBehind
    (isLarge : 0 ≤ decimal.leading)
    (isShort : decimal.digits.length ≤ decimal.leading.toNat + 1) :
    WrittenAs
      (decimal.digits ++
        List.replicate (decimal.leading.toNat + 1 - decimal.digits.length) '0' ++
        ['.', '0'])
      decimal.value := by
  obtain ⟨someDigits, allDigits⟩ := isDigits_iff.mp areDigits
  obtain ⟨zeros, isZeros⟩ :
      ∃ zeros : Nat, decimal.leading = (decimal.digits.length : Int) - 1 + zeros :=
    ⟨decimal.leading.toNat + 1 - decimal.digits.length, by omega⟩
  have isCount : decimal.leading.toNat + 1 - decimal.digits.length = zeros := by
    omega
  have wholeDigits : isDigits (decimal.digits ++ List.replicate zeros '0') = true :=
    isDigits_iff.mpr ⟨List.append_ne_nil_of_left_ne_nil someDigits _,
      List.forall_mem_append.mpr ⟨allDigits, isDigit_of_mem_zeros⟩⟩
  have fractionDigits : ∀ character ∈ ['0'], character.isDigit = true :=
    List.forall_mem_singleton.mpr rfl
  have isValue : decimal.value =
      digitsValue (decimal.digits ++ List.replicate zeros '0' ++ ['0']) *
        10 ^ (-(['0'].length : Int)) := by
    rw [List.append_assoc, ← List.replicate_succ', digitsValue_append_zeros, value,
      isZeros]
    push_cast
    rw [pow_succ, ← mul_assoc]
    simp
  rw [isCount, isValue]
  exact .point wholeDigits fractionDigits

/-- Any other decimal has its point among its digits. -/
theorem writtenAs_pointInside
    (isLarge : 0 ≤ decimal.leading)
    (isLong : decimal.leading.toNat + 1 < decimal.digits.length) :
    WrittenAs
      (decimal.digits.take (decimal.leading.toNat + 1) ++
        '.' :: decimal.digits.drop (decimal.leading.toNat + 1))
      decimal.value := by
  obtain ⟨someDigits, allDigits⟩ := isDigits_iff.mp areDigits
  have wholeDigits :
      isDigits (decimal.digits.take (decimal.leading.toNat + 1)) = true :=
    isDigits_iff.mpr ⟨by simpa using someDigits, fun character member =>
      allDigits character (List.mem_of_mem_take member)⟩
  have fractionDigits :
      ∀ character ∈ decimal.digits.drop (decimal.leading.toNat + 1),
        character.isDigit = true :=
    fun character member => allDigits character (List.mem_of_mem_drop member)
  have isPower : decimal.leading - ((decimal.digits.length : Int) - 1) =
      -((decimal.digits.drop (decimal.leading.toNat + 1)).length : Int) := by
    rw [List.length_drop]
    omega
  have written := WrittenAs.point wholeDigits fractionDigits
  rw [List.take_append_drop] at written
  rw [value, isPower]
  exact written

theorem writtenAs_positional :
    WrittenAs decimal.positional decimal.value := by
  unfold positional
  simp only
  split
  case isTrue isSmall =>
    exact writtenAs_zerosInFront areDigits isSmall
  case isFalse notSmall =>
    split
    case isTrue isShort =>
      exact writtenAs_zerosBehind areDigits (not_lt.mp notSmall) isShort
    case isFalse isLong =>
      exact writtenAs_pointInside areDigits (not_lt.mp notSmall) (not_le.mp isLong)

theorem writtenAs_scientific :
    WrittenAs decimal.scientific decimal.value := by
  obtain ⟨_, allDigits⟩ := isDigits_iff.mp areDigits
  unfold scientific value
  simp only
  split
  case h_1 isEmpty =>
    rw [isEmpty] at areDigits
    cases areDigits
  case h_2 digit isOne =>
    rw [isOne] at areDigits ⊢
    simpa using WrittenAs.exponent areDigits decimal.leading
  case h_3 digit more _ isMore =>
    rw [isMore] at allDigits ⊢
    obtain ⟨isDigit, moreDigits⟩ := List.forall_mem_cons.mp allDigits
    have oneDigit : isDigits [digit] = true := by
      simpa [isDigits] using isDigit
    simpa using WrittenAs.pointAndExponent oneDigit moreDigits decimal.leading

/-- Whichever way a decimal is written, it is written for its value. -/
theorem writtenAs_layout :
    WrittenAs decimal.layout decimal.value := by
  unfold layout
  split
  · exact writtenAs_positional areDigits
  · exact writtenAs_scientific areDigits

end Written

end Decimal

/-! ## The decimal of a binary number -/

namespace Dyadic

/-- The digits of a number are those of its count up to zeros at the end. -/
theorem toDigits_eq_shortest (number : Dyadic) :
    ∃ zeros, Nat.toDigits 10 number.shortestMultiple.1 =
      number.shortest.digits ++ List.replicate zeros '0' := by
  let digits := Nat.toDigits 10 number.shortestMultiple.1
  let zeros := digits.reverse.takeWhile (· == '0')
  have allZeros : zeros.reverse = List.replicate zeros.length '0' := by
    rw [List.eq_replicate_iff]
    refine ⟨List.length_reverse, fun character member => ?_⟩
    simpa using List.mem_takeWhile_imp (List.mem_reverse.mp member)
  refine ⟨zeros.length, ?_⟩
  calc digits
      = (zeros ++ digits.reverse.dropWhile (· == '0')).reverse := by
          rw [List.takeWhile_append_dropWhile, List.reverse_reverse]
    _ = number.shortest.digits ++ List.replicate zeros.length '0' := by
          rw [List.reverse_append, allZeros]
          rfl

/-- The decimal of a number stands for the multiple that was chosen. -/
theorem value_shortest (number : Dyadic) :
    number.shortest.value =
      number.shortestMultiple.1 * 10 ^ number.shortestMultiple.2 := by
  obtain ⟨zeros, isDigits⟩ := number.toDigits_eq_shortest
  have isCount : number.shortestMultiple.1 =
      digitsValue number.shortest.digits * 10 ^ zeros := by
    rw [← digitsValue_append_zeros, ← isDigits, digitsValue,
      Nat.ofDigitChars_ten_toDigits]
  have isLeading : number.shortest.leading - ((number.shortest.digits.length : Int) - 1) =
      zeros + number.shortestMultiple.2 := by
    have isLength := congrArg List.length isDigits
    rw [List.length_append, List.length_replicate] at isLength
    have leading : number.shortest.leading =
        ((Nat.toDigits 10 number.shortestMultiple.1).length : Int) - 1 +
          number.shortestMultiple.2 := rfl
    omega
  rw [Decimal.value, isLeading, isCount, zpow_add₀ (by norm_num), zpow_natCast]
  push_cast
  ring

theorem isDigits_shortest
    {number : Dyadic}
    (positive : 0 < number.shortestMultiple.1) :
    isDigits number.shortest.digits = true := by
  obtain ⟨zeros, isDigits⟩ := number.toDigits_eq_shortest
  rw [isDigits_iff]
  constructor
  · intro isEmpty
    rw [isEmpty] at isDigits
    have isZero := congrArg digitsValue isDigits
    rw [digitsValue_append_zeros, digitsValue, Nat.ofDigitChars_ten_toDigits] at isZero
    exact absurd (isZero.trans (Nat.zero_mul _)) positive.ne'
  · intro character member
    apply Nat.isDigit_of_mem_toDigits (b := 10) (by decide) (by decide)
    rw [isDigits]
    exact List.mem_append_left _ member

/-- The text of a number is written for the multiple that was chosen. -/
theorem writtenAs_shortest
    {number : Dyadic}
    (positive : 0 < number.shortestMultiple.1) :
    WrittenAs number.shortest.layout
      (number.shortestMultiple.1 * 10 ^ number.shortestMultiple.2) := by
  rw [← value_shortest]
  exact Decimal.writtenAs_layout (isDigits_shortest positive)

end Dyadic

end Scriptlet
