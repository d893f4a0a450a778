import Mathlib.Algebra.Ring.Int.Defs
import Mathlib.Algebra.Ring.Nat
import Mathlib.Data.Int.Order.Basic

namespace Scriptlet

open Float.Model
open Float.Model.UnpackedFloat (Sign)

/-!
# The order of floating-point numbers

The floating-point numbers other than NaN stand in a row, with the two zeros in one place.
The rank of a number counts the places between it and the zeros, negatively below them:
within one exponent the places follow the mantissa, and the next exponent goes on where
the mantissas end.  Comparing two numbers is comparing their ranks.
-/

namespace Binary64

/-- What holds of the parts of a 64-bit number: the mantissa has no more than 53 bits, and
fewer only at the least exponent. -/
def IsCanonical : UnpackedFloat → Prop
  | .finite _ mantissa exponent _ =>
      mantissa < 2 ^ 53 ∧ -1074 ≤ exponent ∧ exponent ≤ 971 ∧
        (2 ^ 52 ≤ mantissa ∨ exponent = -1074)
  | _ => True

/-- The place of a mantissa at an exponent, counted from zero. -/
def place (mantissa : Nat) (exponent : Int) : Int :=
  (exponent + 1074) * 2 ^ 52 + mantissa

/-- The place of a number in parts, negative below zero.  The infinities come right behind
the greatest finite number, and right before the least one. -/
def rank : UnpackedFloat → Int
  | .finite sign mantissa exponent _ => sign.apply (place mantissa exponent)
  | .infinity sign => sign.apply (2047 * 2 ^ 52)
  | .zero _ => 0
  | .notANumber => 0

theorem rank_finite
    {sign : Sign}
    {mantissa : Nat}
    {exponent : Int}
    {positive : 0 < mantissa} :
    rank (.finite sign mantissa exponent positive) = sign.apply (place mantissa exponent) :=
  rfl

theorem rank_infinity {sign : Sign} :
    rank (.infinity sign) = sign.apply (2047 * 2 ^ 52) :=
  rfl

theorem rank_zero {sign : Sign} :
    rank (.zero sign) = 0 :=
  rfl

/-- The place of a floating-point number. -/
def floatRank (number : Float) : Int :=
  rank number.toModel.unpack

/-- The bit in front of the fraction of a normal number. -/
theorem toNat_implicit {width : Nat} (fraction : BitVec width) :
    (1#1 ++ fraction).toNat = 2 ^ width + fraction.toNat := by
  rw [BitVec.toNat_append, ← Nat.shiftLeft_add_eq_or_of_lt fraction.isLt]
  simp [Nat.shiftLeft_eq]

theorem isCanonical_unpack (bits : BitVec 64) :
    IsCanonical (UnpackedFloat.unpack Format.binary64 bits) := by
  have fractionBelow :
      (@UnpackedFloat.unpackMantissa Format.binary64 bits).toNat < 2 ^ 52 := BitVec.isLt _
  have exponentBelow :
      (@UnpackedFloat.unpackExponent Format.binary64 bits).toNat < 2 ^ 11 := BitVec.isLt _
  have isBias : (Format.binary64.exponentBias : Int) +
      Format.binary64.mantissaBitsWithoutImplicit = 1075 := by decide
  unfold UnpackedFloat.unpack
  dsimp only
  by_cases isSpecial : @UnpackedFloat.unpackExponent Format.binary64 bits = -1#_
  · rw [if_pos isSpecial]
    split <;> trivial
  · rw [if_neg isSpecial]
    have notLast : (@UnpackedFloat.unpackExponent Format.binary64 bits).toNat ≠ 2047 := by
      intro isLast
      exact isSpecial (BitVec.eq_of_toNat_eq isLast)
    by_cases noExponent : @UnpackedFloat.unpackExponent Format.binary64 bits = 0#_
    · rw [if_pos noExponent]
      by_cases noMantissa : @UnpackedFloat.unpackMantissa Format.binary64 bits = 0#_
      · rw [dif_pos noMantissa]
        trivial
      · rw [dif_neg noMantissa, noExponent, isBias]
        exact ⟨by omega, by decide, by decide, .inr (by decide)⟩
    · rw [if_neg noExponent, isBias]
      have notFirst : (@UnpackedFloat.unpackExponent Format.binary64 bits).toNat ≠ 0 := by
        intro isFirst
        exact noExponent (BitVec.eq_of_toNat_eq isFirst)
      have isMantissa :
          (1#1 ++ @UnpackedFloat.unpackMantissa Format.binary64 bits).toNat =
            2 ^ 52 + (@UnpackedFloat.unpackMantissa Format.binary64 bits).toNat :=
        toNat_implicit _
      exact ⟨by omega, by omega, by omega, .inl (by omega)⟩

theorem compare_finite
    {first second : Nat}
    {firstExponent secondExponent : Int}
    {firstPositive : 0 < first}
    {secondPositive : 0 < second}
    {sign other : Sign}
    (isFirst : IsCanonical (.finite sign first firstExponent firstPositive))
    (isSecond : IsCanonical (.finite other second secondExponent secondPositive)) :
    (compare firstExponent secondExponent).then (compare first second) =
      compare (place first firstExponent) (place second secondExponent) := by
  obtain ⟨firstBelow, firstLeast, -, firstNormal⟩ := isFirst
  obtain ⟨secondBelow, secondLeast, -, secondNormal⟩ := isSecond
  unfold place
  rcases lt_trichotomy firstExponent secondExponent with isLess | rfl | isGreater
  · have placesLess : (firstExponent + 1074) * 2 ^ 52 + (first : Int) <
        (secondExponent + 1074) * 2 ^ 52 + second := by
      omega
    rw [compare_lt_iff_lt.mpr isLess, compare_lt_iff_lt.mpr placesLess]
    rfl
  · rw [compare_eq_iff_eq.mpr rfl, Ordering.eq_then]
    rcases lt_trichotomy first second with isLess | rfl | isGreater
    · rw [compare_lt_iff_lt.mpr isLess, compare_lt_iff_lt.mpr (by omega)]
    · rw [compare_eq_iff_eq.mpr rfl, compare_eq_iff_eq.mpr rfl]
    · rw [compare_gt_iff_gt.mpr isGreater, compare_gt_iff_gt.mpr (by omega)]
  · have placesGreater : (secondExponent + 1074) * 2 ^ 52 + (second : Int) <
        (firstExponent + 1074) * 2 ^ 52 + first := by
      omega
    rw [compare_gt_iff_gt.mpr isGreater, compare_gt_iff_gt.mpr placesGreater]
    rfl

/-- Finite numbers other than zero come between the zeros and the infinities. -/
theorem place_bounds
    {mantissa : Nat}
    {exponent : Int}
    {positive : 0 < mantissa}
    {sign : Sign}
    (isNumber : IsCanonical (.finite sign mantissa exponent positive)) :
    0 < place mantissa exponent ∧ place mantissa exponent < 2047 * 2 ^ 52 := by
  obtain ⟨below, least, greatest, _⟩ := isNumber
  unfold place
  omega

theorem compare_neg_neg (first second : Int) :
    compare (-first) (-second) = (compare first second).swap := by
  rcases lt_trichotomy first second with isLess | rfl | isGreater
  · rw [compare_lt_iff_lt.mpr isLess, compare_gt_iff_gt.mpr (by omega)]
    rfl
  · rw [compare_eq_iff_eq.mpr rfl, compare_eq_iff_eq.mpr rfl]
    rfl
  · rw [compare_gt_iff_gt.mpr isGreater, compare_lt_iff_lt.mpr (by omega)]
    rfl

section Compare

variable {first second : UnpackedFloat}

theorem some_lt (isLess : rank first < rank second) :
    some Ordering.lt = some (compare (rank first) (rank second)) :=
  congrArg some (compare_lt_iff_lt.mpr isLess).symm

theorem some_gt (isGreater : rank second < rank first) :
    some Ordering.gt = some (compare (rank first) (rank second)) :=
  congrArg some (compare_gt_iff_gt.mpr isGreater).symm

/-- Comparing two numbers is comparing their ranks. -/
theorem compare_eq_rank
    (isFirst : IsCanonical first)
    (isSecond : IsCanonical second)
    (firstNumber : first.isNaN = false)
    (secondNumber : second.isNaN = false) :
    first.compare second = some (compare (rank first) (rank second)) := by
  cases first with
  | notANumber => cases firstNumber
  | infinity sign =>
      cases second with
      | notANumber => cases secondNumber
      | infinity other => cases sign <;> cases other <;> rfl
      | zero other => cases sign <;> rfl
      | finite other mantissa exponent positive =>
          have bounds := place_bounds isSecond
          cases sign
          · cases other <;> exact some_lt (by
              rw [rank_infinity, rank_finite]
              simp only [Sign.apply]
              omega)
          · cases other <;> exact some_gt (by
              rw [rank_infinity, rank_finite]
              simp only [Sign.apply]
              omega)
  | zero sign =>
      cases second with
      | notANumber => cases secondNumber
      | infinity other => cases other <;> rfl
      | zero other => rfl
      | finite other mantissa exponent positive =>
          have bounds := place_bounds isSecond
          cases other
          · exact some_gt (by rw [rank_zero, rank_finite]; simp only [Sign.apply]; omega)
          · exact some_lt (by rw [rank_zero, rank_finite]; simp only [Sign.apply]; omega)
  | finite sign mantissa exponent positive =>
      have bounds := place_bounds isFirst
      cases second with
      | notANumber => cases secondNumber
      | infinity other =>
          cases other
          · cases sign <;> exact some_gt (by
              rw [rank_finite, rank_infinity]
              simp only [Sign.apply]
              omega)
          · cases sign <;> exact some_lt (by
              rw [rank_finite, rank_infinity]
              simp only [Sign.apply]
              omega)
      | zero other =>
          cases sign
          · exact some_lt (by rw [rank_finite, rank_zero]; simp only [Sign.apply]; omega)
          · exact some_gt (by rw [rank_finite, rank_zero]; simp only [Sign.apply]; omega)
      | finite other otherMantissa otherExponent otherPositive =>
          have otherBounds := place_bounds isSecond
          have places := compare_finite isFirst isSecond
          cases sign <;> cases other
          · exact congrArg some
              ((congrArg Ordering.swap places).trans (compare_neg_neg _ _).symm)
          · exact some_lt (by rw [rank_finite, rank_finite]; simp only [Sign.apply]; omega)
          · exact some_gt (by rw [rank_finite, rank_finite]; simp only [Sign.apply]; omega)
          · exact congrArg some places

end Compare

/-! ## Comparisons -/

section Floats

variable {first second : Float}
  (firstNumber : first.isNaN = false)
  (secondNumber : second.isNaN = false)

include firstNumber secondNumber

theorem compare_eq_floatRank :
    first.toModel.unpack.compare second.toModel.unpack =
      some (compare (floatRank first) (floatRank second)) :=
  compare_eq_rank (isCanonical_unpack _) (isCanonical_unpack _) firstNumber secondNumber

theorem lt_iff_floatRank :
    first < second ↔ floatRank first < floatRank second := by
  have isLess : first < second ↔
      first.toModel.unpack.compare second.toModel.unpack = some .lt := by
    show decide (first.toModel < second.toModel) = true ↔ _
    rw [decide_eq_true_iff]
    exact beq_iff_eq
  rw [isLess, compare_eq_floatRank firstNumber secondNumber, Option.some.injEq,
    compare_lt_iff_lt]

theorem beq_iff_floatRank :
    (first == second) = true ↔ floatRank first = floatRank second := by
  have isEqual : (first == second) = true ↔
      first.toModel.unpack.compare second.toModel.unpack = some .eq := by
    show (first.toModel.unpack.compare second.toModel.unpack == some .eq) = true ↔ _
    exact beq_iff_eq
  rw [isEqual, compare_eq_floatRank firstNumber secondNumber, Option.some.injEq,
    compare_eq_iff_eq]

end Floats

end Binary64

end Scriptlet
