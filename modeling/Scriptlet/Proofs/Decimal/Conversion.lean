import Mathlib.Tactic.Positivity
import Mathlib.Tactic.Ring
import Scriptlet.Proofs.Decimal.FloatOrder
import Scriptlet.Value.Arithmetic

namespace Scriptlet

open Float.Model
open Float.Model.UnpackedFloat (Accuracy ExtendedMantissa Sign)

/-!
# Integers as floating-point numbers

An integer with more bits than a mantissa has is cut off behind the last one that fits, and
the mantissa is rounded according to what was cut off.  So a greater integer never becomes a
smaller number, but two integers may become the same one.  They do not if one of them is
less than 2 ^ 53 away from zero.
-/

namespace Binary64

/-! ## Rounding what is cut off -/

/-- What the two bits behind a mantissa say of the value that it was cut off from: how what
was cut off compares with half of the last place. -/
def CutFrom (value shift : Nat) (cut : ExtendedMantissa) : Prop :=
  ∃ rest, value = cut.mantissa * 2 ^ shift + rest ∧
    match cut.roundBit, cut.stickyBit with
    | false, false => rest = 0
    | false, true => 0 < rest ∧ 2 * rest < 2 ^ shift
    | true, false => 2 * rest = 2 ^ shift
    | true, true => 2 ^ shift < 2 * rest ∧ rest < 2 ^ shift

/-- A value whose last places are cut off. -/
def cutOff (value shift : Nat) : ExtendedMantissa :=
  ExtendedMantissa.ofMantissaAndAccuracy value .exact >>> shift

theorem CutFrom.shiftRightOne
    {value shift : Nat}
    {cut : ExtendedMantissa}
    (isCut : CutFrom value shift cut) :
    CutFrom value (shift + 1) cut.shiftRightOne := by
  obtain ⟨rest, isValue, isRest⟩ := isCut
  obtain ⟨mantissa, roundBit, stickyBit⟩ := cut
  refine ⟨mantissa % 2 * 2 ^ shift + rest, ?_, ?_⟩
  · have halves : mantissa = mantissa / 2 * 2 + mantissa % 2 := by omega
    rw [isValue, pow_succ]
    simp only [ExtendedMantissa.shiftRightOne]
    calc mantissa * 2 ^ shift + rest
        = (mantissa / 2 * 2 + mantissa % 2) * 2 ^ shift + rest := by rw [← halves]
      _ = mantissa / 2 * (2 ^ shift * 2) + (mantissa % 2 * 2 ^ shift + rest) := by ring
  · have positive : 0 < 2 ^ shift := Nat.two_pow_pos shift
    simp only [ExtendedMantissa.shiftRightOne, pow_succ]
    rcases Nat.mod_two_eq_zero_or_one mantissa with isEven | isOdd
    · rw [isEven]
      cases roundBit <;> cases stickyBit <;> simp at isRest ⊢ <;> omega
    · rw [isOdd]
      cases roundBit <;> cases stickyBit <;> simp at isRest ⊢ <;> omega

theorem cutFrom_cutOff (value shift : Nat) : CutFrom value shift (cutOff value shift) := by
  induction shift with
  | zero => exact ⟨0, by simp [cutOff]; rfl, rfl⟩
  | succ shift inductionHypothesis => exact inductionHypothesis.shiftRightOne

/-- A value, rounded to a multiple of a power of two. -/
def rounded (value shift : Nat) : Nat :=
  (cutOff value shift).roundedMantissa

/-- A value is rounded down below half of the last place and up above it, and to an even
mantissa at half of it. -/
theorem exists_rest (value shift : Nat) :
    ∃ mantissa rest, value = mantissa * 2 ^ shift + rest ∧ rest < 2 ^ shift ∧
      rounded value shift =
        if 2 * rest < 2 ^ shift then mantissa
        else if 2 * rest = 2 ^ shift then mantissa + mantissa % 2
        else mantissa + 1 := by
  obtain ⟨rest, isValue, isRest⟩ := cutFrom_cutOff value shift
  have positive : 0 < 2 ^ shift := Nat.two_pow_pos shift
  rw [rounded]
  generalize cutOff value shift = cut at isValue isRest
  obtain ⟨mantissa, roundBit, stickyBit⟩ := cut
  refine ⟨mantissa, rest, isValue, ?_⟩
  cases roundBit with
  | false =>
      have below : 2 * rest < 2 ^ shift := by
        cases stickyBit <;> simp at isRest <;> omega
      rw [if_pos below]
      cases stickyBit <;> exact ⟨by omega, rfl⟩
  | true =>
      cases stickyBit with
      | false =>
          have isHalf : 2 * rest = 2 ^ shift := isRest
          rw [if_neg (by omega), if_pos isHalf]
          exact ⟨by omega, rfl⟩
      | true =>
          obtain ⟨above, within⟩ := isRest
          rw [if_neg (by omega), if_neg (by omega)]
          exact ⟨within, rfl⟩

/-- A multiple of the power of two is left as it is. -/
theorem rounded_mul (mantissa shift : Nat) :
    rounded (mantissa * 2 ^ shift) shift = mantissa := by
  obtain ⟨found, rest, isValue, within, isRounded⟩ :=
    exists_rest (mantissa * 2 ^ shift) shift
  have positive : 0 < 2 ^ shift := Nat.two_pow_pos shift
  have isFound : found = mantissa := by
    have quotient : mantissa * 2 ^ shift / 2 ^ shift =
        (rest + found * 2 ^ shift) / 2 ^ shift := by
      rw [isValue, Nat.add_comm]
    rw [Nat.mul_div_cancel _ positive, Nat.add_mul_div_right _ _ positive,
      Nat.div_eq_of_lt within, Nat.zero_add] at quotient
    exact quotient.symm
  have noRest : rest = 0 := by
    rw [isFound] at isValue
    omega
  rw [isRounded, noRest, if_pos (by omega), isFound]

/-- Rounding keeps the order. -/
theorem rounded_mono
    {value greater : Nat}
    (atMost : value ≤ greater)
    (shift : Nat) :
    rounded value shift ≤ rounded greater shift := by
  obtain ⟨mantissa, rest, isValue, within, isRounded⟩ := exists_rest value shift
  obtain ⟨other, otherRest, isGreater, otherWithin, isOther⟩ := exists_rest greater shift
  have mantissas : mantissa ≤ other := by
    by_contra isLess
    have next : (other + 1) * 2 ^ shift ≤ mantissa * 2 ^ shift :=
      Nat.mul_le_mul_right _ (by omega)
    rw [Nat.add_mul] at next
    omega
  rw [isRounded, isOther]
  rcases Nat.lt_or_eq_of_le mantissas with isLess | rfl
  · split_ifs <;> omega
  · have rests : rest ≤ otherRest := by omega
    split_ifs <;> omega

/-! ## Rounding numbers -/

/-- Whether a number in parts is a normal one with a sign and a place. -/
inductive Normal (sign : Sign) (size : Int) : UnpackedFloat → Prop where
  | intro
      {mantissa : Nat}
      {exponent : Int}
      {positive : 0 < mantissa}
      (atLeast : 2 ^ 52 ≤ mantissa)
      (below : mantissa < 2 ^ 53)
      (least : -1074 ≤ exponent)
      (greatest : exponent ≤ 971)
      (isPlace : place mantissa exponent = size) :
      Normal sign size (.finite sign mantissa exponent positive)

theorem log2_eq
    {value shift : Nat}
    (atLeast : 2 ^ 52 * 2 ^ shift ≤ value)
    (below : value < 2 ^ 53 * 2 ^ shift) :
    value.log2 = 52 + shift := by
  have positive : value ≠ 0 := by
    have isPower : 0 < 2 ^ 52 * 2 ^ shift := by positivity
    omega
  rw [← Nat.pow_add] at atLeast below
  have lower := (Nat.le_log2 positive).mpr atLeast
  have upper := (Nat.log2_lt positive).mpr below
  omega

/-- How far a value is cut off if its exponent is not too small. -/
theorem shiftToTargetExponent_eq
    {value shift : Nat}
    {exponent : Int}
    (atLeast : 2 ^ 52 * 2 ^ shift ≤ value)
    (below : value < 2 ^ 53 * 2 ^ shift)
    (least : -1074 ≤ exponent + shift) :
    UnpackedFloat.shiftToTargetExponent Format.binary64 value exponent .exact =
      (cutOff value shift, exponent + shift) := by
  have isTarget : Format.binary64.targetExponent (totalExponent value exponent) =
      exponent + shift := by
    have isWidth : Format.binary64.mantissaBits = 53 := by decide
    have isLeast : Format.binary64.minExponent = -1074 := by decide
    rw [Format.targetExponent, totalExponent, log2_eq atLeast below, isLeast, isWidth]
    push_cast
    omega
  have isShift : (exponent + shift - exponent).toNat = shift := by omega
  rw [UnpackedFloat.shiftToTargetExponent, isTarget, UnpackedFloat.shiftToExponent, isShift]
  rfl

/-- A value is rounded to a normal number if its exponent is neither too small nor too
great.  If the mantissa gets one bit more by rounding, the number is a power of two, which
comes next in place all the same. -/
theorem roundWithAccuracy_normal
    {value shift : Nat}
    {exponent : Int}
    (atLeast : 2 ^ 52 * 2 ^ shift ≤ value)
    (below : value < 2 ^ 53 * 2 ^ shift)
    (least : -1074 ≤ exponent + shift)
    (greatest : exponent + shift ≤ 970)
    (sign : Sign) :
    Normal sign (place (rounded value shift) (exponent + shift))
      (UnpackedFloat.roundWithAccuracy Format.binary64 sign value exponent .exact) := by
  have roundedAtLeast : 2 ^ 52 ≤ rounded value shift := by
    rw [← rounded_mul (2 ^ 52) shift]
    exact rounded_mono atLeast shift
  have roundedAtMost : rounded value shift ≤ 2 ^ 53 := by
    rw [← rounded_mul (2 ^ 53) shift]
    exact rounded_mono below.le shift
  unfold UnpackedFloat.roundWithAccuracy
  rw [shiftToTargetExponent_eq atLeast below least]
  show Normal _ (place (rounded value shift) _)
    (let (final, finalExponent) := UnpackedFloat.shiftToTargetExponent Format.binary64
        (rounded value shift) (exponent + shift) .exact
      if isZero : final.mantissa = 0 then .zero sign
      else .finite sign final.mantissa finalExponent (Nat.pos_of_ne_zero isZero))
  -- The rounded mantissa is normalized once more, which moves it only if it is 2 ^ 53.
  generalize rounded value shift = mantissa at roundedAtLeast roundedAtMost
  generalize exponent + (shift : Int) = exponent at least greatest
  rcases Nat.lt_or_eq_of_le roundedAtMost with isNormal | rfl
  · have isCut : UnpackedFloat.shiftToTargetExponent Format.binary64 mantissa exponent
        .exact = (cutOff mantissa 0, exponent + (0 : Nat)) :=
      shiftToTargetExponent_eq (by omega) (by omega) (by omega)
    have notZero : (cutOff mantissa 0).mantissa ≠ 0 := by
      show mantissa ≠ 0
      omega
    rw [isCut, Nat.cast_zero, add_zero]
    dsimp only
    rw [dif_neg notZero]
    exact .intro roundedAtLeast isNormal least (by omega) rfl
  · have isCut : UnpackedFloat.shiftToTargetExponent Format.binary64 (2 ^ 53) exponent
        .exact = (cutOff (2 ^ 53) 1, exponent + (1 : Nat)) :=
      shiftToTargetExponent_eq (by omega) (by omega) (by omega)
    have isMantissa : (cutOff (2 ^ 53) 1).mantissa = 2 ^ 52 := rfl
    have notZero : (cutOff (2 ^ 53) 1).mantissa ≠ 0 := by
      rw [isMantissa]
      decide
    rw [isCut]
    dsimp only
    rw [dif_neg notZero]
    refine .intro isMantissa.ge (isMantissa.trans_lt (by decide)) (by omega) (by omega) ?_
    rw [isMantissa]
    unfold place
    omega

/-! ## Packing -/

/-- Multiplying two finite numbers rounds the product. -/
theorem mul_finite
    {spec : Format}
    {mantissa other : Nat}
    {exponent otherExponent : Int}
    {positive : 0 < mantissa}
    {otherPositive : 0 < other} :
    UnpackedFloat.mul spec (.finite .positive mantissa exponent positive)
        (.finite .positive other otherExponent otherPositive) =
      UnpackedFloat.roundWithAccuracy spec .positive (mantissa * other)
        (exponent + otherExponent) .exact :=
  rfl

theorem unpackSign_packComponents
    {spec : Format}
    (sign : Sign)
    (exponent : BitVec spec.exponentBits)
    (fraction : BitVec spec.mantissaBitsWithoutImplicit) :
    UnpackedFloat.unpackSign (UnpackedFloat.packComponents spec sign exponent fraction) =
      sign.toBitVec := by
  apply BitVec.eq_of_getLsbD_eq
  intro index isFirst
  obtain rfl : index = 0 := by omega
  show ((BitVec.extractLsb (spec.mantissaBitsWithoutImplicit + spec.exponentBits)
    (spec.mantissaBitsWithoutImplicit + spec.exponentBits)
    (sign.toBitVec ++ exponent ++ fraction)).cast (by omega)).getLsbD 0 = _
  simp [BitVec.getLsbD_append, BitVec.getElem_append]

theorem ofBitVec_toBitVec (sign : Sign) : Sign.ofBitVec sign.toBitVec = sign := by
  cases sign <;> rfl

theorem finite_congr
    {sign other : Sign}
    {mantissa otherMantissa : Nat}
    {exponent otherExponent : Int}
    (sameSign : sign = other)
    (sameMantissa : mantissa = otherMantissa)
    (sameExponent : exponent = otherExponent)
    (positive : 0 < mantissa)
    (otherPositive : 0 < otherMantissa) :
    UnpackedFloat.finite sign mantissa exponent positive =
      .finite other otherMantissa otherExponent otherPositive := by
  subst sameSign sameMantissa sameExponent
  rfl

namespace Normal

variable {sign : Sign} {size : Int} {number : UnpackedFloat}

theorem rank_eq (normal : Normal sign size number) : rank number = sign.apply size := by
  obtain ⟨_, _, _, _, rfl⟩ := normal
  rfl

theorem isNaN_eq (normal : Normal sign size number) : number.isNaN = false := by
  obtain ⟨_, _, _, _, _⟩ := normal
  rfl

theorem neg (normal : Normal sign size number) : Normal (-sign) size number.neg := by
  obtain ⟨atLeast, below, least, greatest, isPlace⟩ := normal
  exact .intro atLeast below least greatest isPlace

/-- A normal number is kept in 64 bits as it is. -/
theorem unpack_pack (normal : Normal sign size number) :
    (pack number).unpack = number := by
  obtain @⟨mantissa, exponent, positive, atLeast, below, least, greatest, _⟩ := normal
  have isLog : mantissa.log2 = 52 + 0 := log2_eq (by omega) (by omega)
  have isBias : Format.binary64.exponentBias = 1023 := by decide
  have isBits : (exponent + (1023 : Nat) + (52 : Nat)).toNat = (exponent + 1075).toNat := by
    omega
  have isPacked :
      UnpackedFloat.pack Format.binary64 (.finite sign mantissa exponent positive) =
        UnpackedFloat.packComponents Format.binary64 sign
          (BitVec.ofNat 11 (exponent + (1023 : Nat) + (52 : Nat)).toNat)
          (BitVec.ofNat 52 mantissa) :=
    (if_neg (by omega : ¬ 2 ^ 11 ≤ (exponent + (1023 : Nat) + (52 : Nat)).toNat + 1)).trans
      (if_pos (by omega : mantissa.log2 + 1 = 53))
  show UnpackedFloat.unpack Format.binary64
    (UnpackedFloat.pack Format.binary64 (.finite sign mantissa exponent positive)) = _
  rw [isPacked, isBits]
  have isExponent : (BitVec.ofNat 11 (exponent + 1075).toNat).toNat =
      (exponent + 1075).toNat := by
    rw [BitVec.toNat_ofNat]
    omega
  have notSpecial : BitVec.ofNat 11 (exponent + 1075).toNat ≠ -1#11 := by
    intro isSpecial
    have isLast := congrArg BitVec.toNat isSpecial
    rw [isExponent] at isLast
    have isMax : (-1#11).toNat = 2047 := by decide
    omega
  have notLeast : BitVec.ofNat 11 (exponent + 1075).toNat ≠ 0#11 := by
    intro isLeast
    have isFirst := congrArg BitVec.toNat isLeast
    rw [isExponent] at isFirst
    have isZero : (0#11).toNat = 0 := by decide
    omega
  have isMantissa : (1#1 ++ BitVec.ofNat 52 mantissa).toNat = mantissa := by
    rw [toNat_implicit, BitVec.toNat_ofNat]
    omega
  unfold UnpackedFloat.unpack
  dsimp only
  rw [if_neg (by rwa [UnpackedFloat.unpackExponent_packComponents]),
    if_neg (by rwa [UnpackedFloat.unpackExponent_packComponents])]
  refine finite_congr ?_ ?_ ?_ _ _
  · rw [unpackSign_packComponents, ofBitVec_toBitVec]
  · rw [UnpackedFloat.unpackMantissa_packComponents, isMantissa]
  · rw [UnpackedFloat.unpackExponent_packComponents, isExponent, isBias]
    omega

end Normal

/-! ## Natural numbers -/

/-- The mantissa of a natural number as a floating-point number; it may be rounded up to one
bit more than a mantissa has. -/
def significand (number : Nat) : Nat :=
  rounded (number * 2 ^ 53) (number.log2 + 1)

/-- The place of a natural number, other than zero, as a floating-point number. -/
def natPlace (number : Nat) : Int :=
  place (significand number) (number.log2 - 52)

section Naturals

variable {number : Nat} (positive : 0 < number)

include positive

theorem mul_two_pow_bounds :
    2 ^ 52 * 2 ^ (number.log2 + 1) ≤ number * 2 ^ 53 ∧
      number * 2 ^ 53 < 2 ^ 53 * 2 ^ (number.log2 + 1) := by
  have lower : 2 ^ number.log2 ≤ number := Nat.log2_self_le positive.ne'
  have upper : number < 2 ^ (number.log2 + 1) := Nat.lt_log2_self
  rw [pow_succ] at upper ⊢
  constructor <;> omega

theorem significand_bounds :
    2 ^ 52 ≤ significand number ∧ significand number ≤ 2 ^ 53 := by
  obtain ⟨atLeast, below⟩ := mul_two_pow_bounds positive
  constructor
  · rw [← rounded_mul (2 ^ 52) (number.log2 + 1)]
    exact rounded_mono atLeast _
  · rw [← rounded_mul (2 ^ 53) (number.log2 + 1)]
    exact rounded_mono below.le _

/-- Numbers of no more than 53 bits are not rounded. -/
theorem significand_eq (isSmall : number < 2 ^ 53) :
    significand number = number * 2 ^ (52 - number.log2) := by
  have isShort : number.log2 < 53 := (Nat.log2_lt positive.ne').mpr isSmall
  have isSplit : 2 ^ 53 = 2 ^ (52 - number.log2) * 2 ^ (number.log2 + 1) := by
    rw [← Nat.pow_add]
    congr 1
    omega
  rw [significand, isSplit, ← Nat.mul_assoc, rounded_mul]

theorem significand_lt (isSmall : number < 2 ^ 53) :
    significand number < 2 ^ 53 := by
  have isShort : number.log2 < 53 := (Nat.log2_lt positive.ne').mpr isSmall
  have upper : number < 2 ^ (number.log2 + 1) := Nat.lt_log2_self
  have isSplit : 2 ^ 53 = 2 ^ (number.log2 + 1) * 2 ^ (52 - number.log2) := by
    rw [← Nat.pow_add]
    congr 1
    omega
  rw [significand_eq positive isSmall, isSplit]
  exact Nat.mul_lt_mul_of_pos_right upper (Nat.two_pow_pos _)

end Naturals

/-- A greater number never gets a smaller place. -/
theorem natPlace_mono
    {number greater : Nat}
    (positive : 0 < number)
    (atMost : number ≤ greater) :
    natPlace number ≤ natPlace greater := by
  have greaterPositive : 0 < greater := Nat.lt_of_lt_of_le positive atMost
  have bounds := significand_bounds positive
  have greaterBounds := significand_bounds greaterPositive
  have bits : number.log2 ≤ greater.log2 :=
    (Nat.le_log2 greaterPositive.ne').mpr
      (Nat.le_trans (Nat.log2_self_le positive.ne') atMost)
  unfold natPlace place
  rcases Nat.lt_or_eq_of_le bits with isShorter | sameBits
  · omega
  · have significands : significand number ≤ significand greater := by
      rw [significand, significand, sameBits]
      exact rounded_mono (Nat.mul_le_mul_right _ atMost) _
    omega

/-- A greater number gets a greater place if the smaller one is not rounded. -/
theorem natPlace_strictMono
    {number greater : Nat}
    (positive : 0 < number)
    (isLess : number < greater)
    (isSmall : number < 2 ^ 53) :
    natPlace number < natPlace greater := by
  have greaterPositive : 0 < greater := Nat.lt_trans positive isLess
  have greaterBounds := significand_bounds greaterPositive
  have bits : number.log2 ≤ greater.log2 :=
    (Nat.le_log2 greaterPositive.ne').mpr
      (Nat.le_trans (Nat.log2_self_le positive.ne') isLess.le)
  have isShort : number.log2 < 53 := (Nat.log2_lt positive.ne').mpr isSmall
  have isExact := significand_eq positive isSmall
  have within := significand_lt positive isSmall
  unfold natPlace place
  rcases Nat.lt_or_eq_of_le bits with isShorter | sameBits
  · omega
  · have greaterSmall : greater < 2 ^ 53 := by
      refine (Nat.log2_lt greaterPositive.ne').mp ?_
      omega
    have significands : significand number < significand greater := by
      rw [isExact, significand_eq greaterPositive greaterSmall, sameBits]
      exact Nat.mul_lt_mul_of_pos_right isLess (Nat.two_pow_pos _)
    omega

/-- Multiplying by one changes no number. -/
theorem Normal.mul_one
    {size : Int}
    {number : UnpackedFloat}
    (normal : Normal .positive size number)
    (inRange : size < 2000 * 2 ^ 52) :
    Normal .positive size
      (UnpackedFloat.mul Format.binary64 number
        (.finite .positive (2 ^ 52) (-52) (by decide))) := by
  obtain @⟨mantissa, exponent, positive, atLeast, below, least, greatest, rfl⟩ := normal
  unfold place at inRange
  have normal : Normal .positive
      (place (rounded (mantissa * 2 ^ 52) 52) (exponent + -52 + (52 : Nat)))
      (UnpackedFloat.roundWithAccuracy Format.binary64 .positive (mantissa * 2 ^ 52)
        (exponent + -52) .exact) :=
    roundWithAccuracy_normal (by omega) (by omega) (by omega) (by omega) .positive
  have isExponent : exponent + -52 + (52 : Nat) = exponent := by omega
  rw [rounded_mul, isExponent] at normal
  exact normal

section Naturals

variable {number : Nat} (positive : 0 < number)

include positive

/-- A number of no more than 53 bits is shifted to the left until it has 53 bits. -/
theorem round_normal (isSmall : number < 2 ^ 53) :
    Normal .positive (natPlace number)
      (UnpackedFloat.round Format.binary64 .positive number 0) := by
  have isShort : number.log2 < 53 := (Nat.log2_lt positive.ne').mpr isSmall
  have isExact := significand_eq positive isSmall
  have bounds := significand_bounds positive
  have within := significand_lt positive isSmall
  have isTarget : Format.binary64.targetExponent (totalExponent number 0) =
      (number.log2 : Int) - 52 := by
    have isWidth : Format.binary64.mantissaBits = 53 := by decide
    have isLeast : Format.binary64.minExponent = -1074 := by decide
    rw [Format.targetExponent, totalExponent, isLeast, isWidth]
    push_cast
    omega
  have isShift : (0 - ((number.log2 : Int) - 52)).toNat = 52 - number.log2 := by omega
  have isExponent : (0 : Int) - (52 - number.log2 : Nat) = (number.log2 : Int) - 52 := by
    omega
  rw [UnpackedFloat.round, isTarget]
  simp only [UnpackedFloat.decreaseExponent, isShift, isExponent, Nat.shiftLeft_eq]
  rw [← isExact]
  have normal : Normal .positive
      (place (rounded (significand number) 0) ((number.log2 : Int) - 52 + (0 : Nat)))
      (UnpackedFloat.roundWithAccuracy Format.binary64 .positive (significand number)
        ((number.log2 : Int) - 52) .exact) :=
    roundWithAccuracy_normal (by omega) (by omega) (by omega) (by omega) .positive
  have isPlace : place (rounded (significand number) 0)
      ((number.log2 : Int) - 52 + (0 : Nat)) = natPlace number := by
    rw [Nat.cast_zero, add_zero]
    rfl
  rwa [isPlace] at normal

theorem ofNat_normal_of_small (isSmall : number < 2 ^ 53) :
    Normal .positive (natPlace number) (Float.ofNat number).toModel.unpack := by
  -- Numbers that fit a mantissa are converted first and then multiplied by a power of ten,
  -- which here is one.
  have isProduct : Float.ofNat number =
      number.toUInt64.toFloat * Float.ofBits 0x3FF0000000000000 := by
    show Float.ofScientific number false 0 = _
    rw [Float.ofScientific, dif_pos ⟨isSmall, by decide⟩]
    rfl
  have isSame : number.toUInt64.toNat = number := by
    apply Nat.mod_eq_of_lt
    omega
  have isConverted : number.toUInt64.toFloat.toModel =
      pack (UnpackedFloat.round Format.binary64 .positive number 0) := by
    show pack (UnpackedFloat.normalize Format.binary64 number.toUInt64.toNat 0
      .positive) = _
    have isGreater : compare (number : Int) 0 = .gt := compare_gt_iff_gt.mpr (by omega)
    rw [isSame, UnpackedFloat.normalize, isGreater]
    rfl
  have isOne : (Float.ofBits 0x3FF0000000000000).toModel.unpack =
      .finite .positive (2 ^ 52) (-52) (by decide) := rfl
  have normal := round_normal positive isSmall
  have inPlace : natPlace number < 2000 * 2 ^ 52 := by
    have isShort : number.log2 < 53 := (Nat.log2_lt positive.ne').mpr isSmall
    have bounds := significand_bounds positive
    unfold natPlace place
    omega
  have product := normal.mul_one inPlace
  rw [isProduct]
  show Normal _ _ (pack (UnpackedFloat.mul Format.binary64
    number.toUInt64.toFloat.toModel.unpack _)).unpack
  rw [isConverted, normal.unpack_pack, isOne, product.unpack_pack]
  exact product

/-- A greater number is rounded as it is. -/
theorem ofScientific_eq :
    UnpackedFloat.ofScientific Format.binary64 number 0 =
      UnpackedFloat.roundWithAccuracy Format.binary64 .positive (number * 2 ^ 53) (-53)
        .exact := by
  have isWidth : Format.binary64.mantissaBits = 53 := by decide
  have notTiny : ¬ (0 : Int) < -(2 ^ 11 + number.log2) := by omega
  rw [UnpackedFloat.ofScientific, dif_neg positive.ne', if_neg (by decide),
    if_neg notTiny, if_pos (by decide), mul_finite]
  simp only [isWidth, Nat.shiftLeft_eq, Int.toNat_zero, pow_zero, Nat.mul_one, add_zero,
    Nat.cast_ofNat]

theorem ofNat_normal_of_not_small
    (isGreat : ¬ number < 2 ^ 53)
    (inRange : number < 2 ^ 64) :
    Normal .positive (natPlace number) (Float.ofNat number).toModel.unpack := by
  obtain ⟨atLeast, below⟩ := mul_two_pow_bounds positive
  have isShort : number.log2 < 64 := (Nat.log2_lt positive.ne').mpr inRange
  have isModel : (Float.ofNat number).toModel = Float.Model.ofScientific number 0 := by
    show (Float.ofScientific number false 0).toModel = _
    rw [Float.ofScientific, dif_neg fun isFast => isGreat isFast.1]
    rfl
  have normal : Normal .positive
      (place (significand number) (-53 + (number.log2 + 1 : Nat)))
      (UnpackedFloat.roundWithAccuracy Format.binary64 .positive (number * 2 ^ 53) (-53)
        .exact) :=
    roundWithAccuracy_normal atLeast below (by omega) (by omega) .positive
  have isExponent : -53 + ((number.log2 + 1 : Nat) : Int) = number.log2 - 52 := by omega
  rw [isExponent, ← ofScientific_eq positive] at normal
  rw [isModel]
  show Normal _ _ (pack (UnpackedFloat.ofScientific Format.binary64 number 0)).unpack
  rw [normal.unpack_pack]
  exact normal

/-- What a natural number other than zero is converted to. -/
theorem ofNat_normal (inRange : number < 2 ^ 64) :
    Normal .positive (natPlace number) (Float.ofNat number).toModel.unpack := by
  by_cases isSmall : number < 2 ^ 53
  · exact ofNat_normal_of_small positive isSmall
  · exact ofNat_normal_of_not_small positive isSmall inRange

end Naturals

/-! ## Integers -/

/-- The place of an integer as a floating-point number, negative below zero. -/
def intRank (number : Int) : Int :=
  if number = 0 then 0
  else if 0 < number then natPlace number.natAbs
  else -natPlace number.natAbs

theorem natPlace_pos {number : Nat} (positive : 0 < number) : 0 < natPlace number := by
  have bounds := significand_bounds positive
  unfold natPlace place
  omega

theorem intRank_of_pos {number : Int} (positive : 0 < number) :
    intRank number = natPlace number.natAbs := by
  rw [intRank, if_neg positive.ne', if_pos positive]

theorem intRank_of_neg {number : Int} (negative : number < 0) :
    intRank number = -natPlace number.natAbs := by
  rw [intRank, if_neg negative.ne, if_neg negative.le.not_gt]

theorem intRank_pos {number : Int} (positive : 0 < number) : 0 < intRank number := by
  rw [intRank_of_pos positive]
  exact natPlace_pos (by omega)

theorem intRank_neg {number : Int} (negative : number < 0) : intRank number < 0 := by
  rw [intRank_of_neg negative]
  exact neg_lt_zero.mpr (natPlace_pos (by omega))

section FloatOfInt

variable {number : Int64}

theorem floatOfInt_zero (isZero : number.toInt = 0) :
    (floatOfInt number).isNaN = false ∧ floatRank (floatOfInt number) = 0 := by
  rw [floatOfInt, isZero]
  exact ⟨rfl, rfl⟩

theorem floatOfInt_normal_of_pos (positive : 0 < number.toInt) :
    Normal .positive (natPlace number.toInt.natAbs)
      (floatOfInt number).toModel.unpack := by
  have upper := number.toInt_lt
  rw [floatOfInt]
  generalize number.toInt = value at positive upper
  cases value with
  | ofNat value => exact ofNat_normal (by omega) (by omega)
  | negSucc value => omega

theorem floatOfInt_normal_of_neg (negative : number.toInt < 0) :
    Normal .negative (natPlace number.toInt.natAbs)
      (floatOfInt number).toModel.unpack := by
  have lower := number.le_toInt
  rw [floatOfInt]
  generalize number.toInt = value at negative lower
  cases value with
  | ofNat value =>
      have notNegative := Int.natCast_nonneg value
      exact absurd negative (not_lt.mpr notNegative)
  | negSucc value =>
      have negated := (ofNat_normal value.succ_pos (by omega)).neg
      show Normal _ _ (pack (Float.ofNat value.succ).toModel.unpack.neg).unpack
      rw [negated.unpack_pack]
      exact negated

end FloatOfInt

/-- What an integer is converted to, which is never NaN. -/
theorem floatOfInt_rank (number : Int64) :
    (floatOfInt number).isNaN = false ∧
      floatRank (floatOfInt number) = intRank number.toInt := by
  rcases lt_trichotomy number.toInt 0 with isNegative | isZero | isPositive
  · have normal := floatOfInt_normal_of_neg isNegative
    rw [intRank_of_neg isNegative]
    exact ⟨normal.isNaN_eq, normal.rank_eq⟩
  · rw [isZero]
    exact floatOfInt_zero isZero
  · have normal := floatOfInt_normal_of_pos isPositive
    rw [intRank_of_pos isPositive]
    exact ⟨normal.isNaN_eq, normal.rank_eq⟩

/-- A greater integer never becomes a smaller number. -/
theorem intRank_mono {number greater : Int} (atMost : number ≤ greater) :
    intRank number ≤ intRank greater := by
  rcases lt_trichotomy number 0 with isNegative | rfl | isPositive
  · rcases lt_trichotomy greater 0 with alsoNegative | rfl | otherSign
    · rw [intRank_of_neg isNegative, intRank_of_neg alsoNegative]
      exact Int.neg_le_neg (natPlace_mono (by omega) (by omega))
    · exact (intRank_neg isNegative).le
    · exact ((intRank_neg isNegative).trans (intRank_pos otherSign)).le
  · rcases Int.lt_or_eq_of_le atMost with isPositive | rfl
    · exact (intRank_pos isPositive).le
    · exact le_rfl
  · have alsoPositive : 0 < greater := isPositive.trans_le atMost
    rw [intRank_of_pos isPositive, intRank_of_pos alsoPositive]
    exact natPlace_mono (by omega) (by omega)

/-- Different integers, one of which is near zero, become different numbers. -/
theorem intRank_strictMono
    {number greater : Int}
    (isLess : number < greater)
    (isSmall : number.natAbs < 2 ^ 53 ∨ greater.natAbs < 2 ^ 53) :
    intRank number < intRank greater := by
  rcases lt_trichotomy number 0 with isNegative | rfl | isPositive
  · rcases lt_trichotomy greater 0 with alsoNegative | rfl | otherSign
    · rw [intRank_of_neg isNegative, intRank_of_neg alsoNegative]
      exact Int.neg_lt_neg (natPlace_strictMono (by omega) (by omega) (by omega))
    · exact intRank_neg isNegative
    · exact (intRank_neg isNegative).trans (intRank_pos otherSign)
  · exact intRank_pos isLess
  · have alsoPositive : 0 < greater := isPositive.trans isLess
    rw [intRank_of_pos isPositive, intRank_of_pos alsoPositive]
    exact natPlace_strictMono (by omega) (by omega) (by omega)

end Binary64

end Scriptlet
