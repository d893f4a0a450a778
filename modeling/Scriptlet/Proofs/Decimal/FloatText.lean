import Scriptlet.Proofs.Decimal.Layout
import Scriptlet.Proofs.Decimal.Rounding

namespace Scriptlet

open Float.Model

/-!
# Finite floating-point numbers have different texts

The text of a finite number starts with a digit, after a minus if the number is negative.
It goes on with digits and with the marks of a fraction or an exponent, of which there is
at least one.  It is read as a value that rounds to the number, so that it is the text of
no other.
-/

/-! ## Finite numbers -/

theorem isInf_of_isFinite
    {number : Float}
    (finite : number.isFinite = true) :
    number.isInf = false := by
  change number.toModel.unpack.isFinite = true at finite
  change number.toModel.unpack.isInf = false
  cases isKind : number.toModel.unpack with
  | infinity sign =>
      rw [isKind] at finite
      cases finite
  | _ => rfl

theorem isNaN_of_isFinite
    {number : Float}
    (finite : number.isFinite = true) :
    number.isNaN = false := by
  change number.toModel.unpack.isFinite = true at finite
  change number.toModel.unpack.isNaN = false
  cases isKind : number.toModel.unpack with
  | notANumber =>
      rw [isKind] at finite
      cases finite
  | _ => rfl

/-- The bits of a number, less its sign. -/
def magnitude (number : Float) : Nat :=
  number.toBits.toNat % 2 ^ 63

theorem toBits_zero : (0.0 : Float).toBits.toNat = 0 := by
  decide +kernel

theorem toBits_negativeZero : (-0.0 : Float).toBits.toNat = 2 ^ 63 := by
  decide +kernel

theorem eq_of_toBits
    {number other : Float}
    (sameBits : number.toBits = other.toBits) :
    number = other := by
  obtain ⟨bits, valid⟩ := number
  obtain ⟨otherBits, otherValid⟩ := other
  obtain rfl : bits = otherBits := sameBits
  rfl

/-- Only a zero is equal to zero. -/
theorem exists_unpack_of_beq_zero
    {number : Float}
    (isEqual : (number == 0.0) = true) :
    ∃ sign, number.toModel.unpack = .zero sign := by
  have isZero : (0.0 : Float).toModel.unpack = .zero .positive := rfl
  change number.toModel.unpack.beq (0.0 : Float).toModel.unpack = true at isEqual
  rw [isZero] at isEqual
  cases isKind : number.toModel.unpack with
  | zero sign => exact ⟨sign, rfl⟩
  | notANumber =>
      rw [isKind] at isEqual
      cases isEqual
  | infinity sign | finite sign =>
      rw [isKind] at isEqual
      cases sign <;> cases isEqual

/-- Neither the exponent nor the fraction of a zero has a bit that is set. -/
theorem bits_of_unpack_zero
    {spec : Format}
    {bits : BitVec spec.numBits}
    {sign : UnpackedFloat.Sign}
    (isZero : UnpackedFloat.unpack spec bits = .zero sign) :
    UnpackedFloat.unpackExponent bits = 0#(spec.exponentBits) ∧
      UnpackedFloat.unpackMantissa bits = 0#(spec.mantissaBitsWithoutImplicit) := by
  unfold UnpackedFloat.unpack at isZero
  dsimp only at isZero
  by_cases isSpecial : UnpackedFloat.unpackExponent bits = -1#(spec.exponentBits)
  · rw [if_pos isSpecial] at isZero
    split at isZero <;> cases isZero
  rw [if_neg isSpecial] at isZero
  by_cases noExponent : UnpackedFloat.unpackExponent bits = 0#(spec.exponentBits)
  · rw [if_pos noExponent] at isZero
    by_cases noFraction : UnpackedFloat.unpackMantissa bits =
        0#(spec.mantissaBitsWithoutImplicit)
    · exact ⟨noExponent, noFraction⟩
    · rw [dif_neg noFraction] at isZero
      cases isZero
  · rw [if_neg noExponent] at isZero
    cases isZero

/-- The bits of a zero, less its sign, are all zero. -/
theorem magnitude_of_unpack
    {number : Float}
    {sign : UnpackedFloat.Sign}
    (isZero : number.toModel.unpack = .zero sign) :
    magnitude number = 0 := by
  obtain ⟨noExponent, noFraction⟩ := bits_of_unpack_zero isZero
  have exponent := congrArg BitVec.toNat noExponent
  have fraction := congrArg BitVec.toNat noFraction
  simp only [UnpackedFloat.unpackExponent, UnpackedFloat.unpackMantissa,
    BitVec.toNat_cast, BitVec.extractLsb_toNat,
    Nat.shiftRight_eq_div_pow] at exponent fraction
  change number.toBits.toNat / 2 ^ 52 % 2 ^ 11 = 0 at exponent
  change number.toBits.toNat / 2 ^ 0 % 2 ^ 52 = 0 at fraction
  rw [magnitude]
  omega

/-- There are two zeros, which differ in their signs. -/
theorem beq_zero_iff {number : Float} :
    (number == 0.0) = true ↔ magnitude number = 0 := by
  constructor
  · intro isEqual
    obtain ⟨sign, isZero⟩ := exists_unpack_of_beq_zero isEqual
    exact magnitude_of_unpack isZero
  · intro isZero
    have bounded := number.toBits.toNat_lt
    have bits : number.toBits.toNat = 0 ∨ number.toBits.toNat = 2 ^ 63 := by
      rw [magnitude] at isZero
      omega
    rcases bits with isPositive | isNegative
    · obtain rfl : number = 0.0 :=
        eq_of_toBits (UInt64.toNat_inj.mp (isPositive.trans toBits_zero.symm))
      decide +kernel
    · obtain rfl : number = -0.0 :=
        eq_of_toBits (UInt64.toNat_inj.mp (isNegative.trans toBits_negativeZero.symm))
      decide +kernel

/-! ## The text without its sign -/

theorem magnitudeText_eq
    {number : Float}
    (finite : number.isFinite = true)
    (notZero : magnitude number ≠ 0) :
    magnitudeText number =
      String.ofList (Dyadic.ofMagnitude (magnitude number)).shortest.layout := by
  rw [magnitudeText, isInf_of_isFinite finite, if_neg Bool.false_ne_true,
    if_neg fun isEqual => notZero (beq_zero_iff.mp isEqual), Dyadic.ofBits_eq]
  rfl

theorem magnitudeText_zero
    {number : Float}
    (finite : number.isFinite = true)
    (isZero : magnitude number = 0) :
    magnitudeText number = "0.0" := by
  rw [magnitudeText, isInf_of_isFinite finite, if_neg Bool.false_ne_true,
    if_pos (beq_zero_iff.mpr isZero)]

/-- The text of a finite number is read as a value that rounds to the number. -/
theorem reads_magnitudeText
    {number : Float}
    (finite : number.isFinite = true) :
    ∃ value, ReadsAs (magnitudeText number).toList value ∧
      (Dyadic.ofMagnitude (magnitude number)).Covers value := by
  by_cases isZero : magnitude number = 0
  · rw [magnitudeText_zero finite isZero, isZero]
    exact ⟨0, ⟨0, -1, rfl, by simp⟩, Dyadic.covers_zero⟩
  · have positive := Dyadic.mantissa_ofMagnitude_pos (Nat.pos_of_ne_zero isZero)
    rw [magnitudeText_eq finite isZero, String.toList_ofList]
    have written := Dyadic.writtenAs_shortest (Dyadic.shortestMultiple_pos positive)
    exact ⟨_, written.readsAs, Dyadic.covers_shortestMultiple positive⟩

/-- Finite numbers with one text are equal up to their signs. -/
theorem magnitude_eq_of_text
    {number other : Float}
    (finite : number.isFinite = true)
    (otherFinite : other.isFinite = true)
    (sameText : magnitudeText number = magnitudeText other) :
    magnitude number = magnitude other := by
  obtain ⟨value, reads, covers⟩ := reads_magnitudeText finite
  obtain ⟨otherValue, otherReads, otherCovers⟩ := reads_magnitudeText otherFinite
  rw [← sameText] at otherReads
  obtain rfl := reads.unique otherReads
  exact covers.unique otherCovers

/-- The text of a finite number without its sign starts with a digit and shows that the
number is no integer. -/
theorem fractional_magnitudeText
    {number : Float}
    (finite : number.isFinite = true) :
    Fractional (magnitudeText number).toList := by
  by_cases isZero : magnitude number = 0
  · rw [magnitudeText_zero finite isZero]
    exact ⟨⟨'0', ['.', '0'], rfl, rfl⟩, by simp, by simp [isNumeral]⟩
  · have positive := Dyadic.mantissa_ofMagnitude_pos (Nat.pos_of_ne_zero isZero)
    rw [magnitudeText_eq finite isZero, String.toList_ofList]
    have written := Dyadic.writtenAs_shortest (Dyadic.shortestMultiple_pos positive)
    exact written.fractional

/-! ## The text with its sign -/

/-- The text of a finite number has a minus in front if the number is negative. -/
theorem floatText_eq
    {number : Float}
    (finite : number.isFinite = true) :
    floatText number =
      if 2 ^ 63 ≤ number.toBits.toNat then "-" ++ magnitudeText number
      else magnitudeText number := by
  rw [floatText, isNaN_of_isFinite finite, if_neg Bool.false_ne_true, Nat.pow_eq]

theorem toList_floatText
    {number : Float}
    (finite : number.isFinite = true) :
    (floatText number).toList = (magnitudeText number).toList ∨
      (floatText number).toList = '-' :: (magnitudeText number).toList := by
  rw [floatText_eq finite]
  split
  · exact .inr (String.toList_append)
  · exact .inl rfl

/-- A text with a minus in front is none without. -/
theorem minus_ne_magnitudeText
    {number : Float}
    (finite : number.isFinite = true)
    (text : String) :
    "-" ++ text ≠ magnitudeText number := by
  intro isText
  obtain ⟨digit, rest, isFirst, isDigit⟩ := (fractional_magnitudeText finite).first
  rw [← isText, String.toList_append] at isFirst
  cases isFirst
  cases isDigit

/-- Finite numbers with one text are equal. -/
theorem floatText_injective
    {number other : Float}
    (finite : number.isFinite = true)
    (otherFinite : other.isFinite = true)
    (sameText : floatText number = floatText other) :
    number = other := by
  have bits : number.toBits.toNat = other.toBits.toNat := by
    have bounded := number.toBits.toNat_lt
    have otherBounded := other.toBits.toNat_lt
    rw [floatText_eq finite, floatText_eq otherFinite] at sameText
    split at sameText <;> split at sameText
    case isTrue.isTrue =>
      have same := magnitude_eq_of_text finite otherFinite
        (String.append_right_inj _ |>.mp sameText)
      unfold magnitude at same
      omega
    case isTrue.isFalse =>
      exact absurd sameText (minus_ne_magnitudeText otherFinite _)
    case isFalse.isTrue =>
      exact absurd sameText.symm (minus_ne_magnitudeText finite _)
    case isFalse.isFalse =>
      have same := magnitude_eq_of_text finite otherFinite sameText
      unfold magnitude at same
      omega
  exact eq_of_toBits (UInt64.toNat_inj.mp bits)

end Scriptlet
