namespace Scriptlet

/-!
# The shortest decimal of a binary number

Every binary floating-point number stands for the reals that round to it: an
interval around it that reaches halfway to its neighbours.  The number is written
with the fewest decimal digits that lie in that interval, so that reading them
gives the number back.  Everything is decided in exact arithmetic on natural
numbers.
-/

/-- A positive binary number: a mantissa times a power of two. -/
structure Dyadic where
  mantissa : Nat
  exponent : Int
  /-- Whether the neighbour below is only half as far away as the one above. -/
  narrowBelow : Bool
  deriving Repr, DecidableEq

/-- Significant decimal digits, and the power of ten that the first of them
counts. -/
structure Decimal where
  digits : List Char
  leading : Int
  deriving Repr, DecidableEq

namespace Dyadic

/-- The absolute value of the finite number with the given bits of a 64-bit
floating-point number. -/
def ofBits (bits : UInt64) : Dyadic :=
  let exponent : Nat := (bits.toNat / Nat.pow 2 52) % Nat.pow 2 11
  let fraction : Nat := bits.toNat % Nat.pow 2 52
  if exponent = 0 then
    ⟨fraction, -1074, false⟩
  else
    ⟨Nat.pow 2 52 + fraction, (exponent : Int) - 1075,
      fraction == 0 && decide (1 < exponent)⟩

/-- How `count` times a power of ten compares with `units` times a power of
two. -/
def compareScaled
    (count : Nat)
    (tens : Int)
    (units : Nat)
    (twos : Int) :
    Ordering :=
  compare
    (count * Nat.pow 10 tens.toNat * Nat.pow 2 (-twos).toNat)
    (units * Nat.pow 2 twos.toNat * Nat.pow 10 (-tens).toNat)

/-- Whether `count` times a power of ten is one of the reals that round to the
number.  A real halfway between two numbers rounds to the one with the even
mantissa. -/
def readsBack (number : Dyadic) (count : Nat) (tens : Int) : Bool :=
  let quarter := 4 * number.mantissa
  let low := if number.narrowBelow then quarter - 1 else quarter - 2
  let high := quarter + 2
  let endsBelong := number.mantissa % 2 == 0
  let aboveLow := compareScaled count tens low (number.exponent - 2)
  let belowHigh := compareScaled count tens high (number.exponent - 2)
  (aboveLow == .gt || (endsBelong && aboveLow == .eq)) &&
    (belowHigh == .lt || (endsBelong && belowHigh == .eq))

/-- How often a power of ten fits into the number. -/
def floorAt (number : Dyadic) (tens : Int) : Nat :=
  (number.mantissa * Nat.pow 2 number.exponent.toNat *
      Nat.pow 10 (-tens).toNat) /
    (Nat.pow 2 (-number.exponent).toNat * Nat.pow 10 tens.toNat)

/-- The multiple of a power of ten that reads back as the number, if there is
one: of the two multiples around the number the closer one, and the upper one if
both are equally close. -/
def multipleAt? (number : Dyadic) (tens : Int) : Option Nat :=
  let below := number.floorAt tens
  let above := below + 1
  let belowFits := number.readsBack below tens
  let aboveFits := number.readsBack above tens
  if belowFits && aboveFits then
    let belowCloser :=
      compareScaled (2 * below + 1) tens (2 * number.mantissa)
        number.exponent == .gt
    some (if belowCloser then below else above)
  else if belowFits then
    some below
  else if aboveFits then
    some above
  else
    none

/-- A power of ten that is not below the number's leading decimal digit. -/
def coarsestGrid (number : Dyadic) : Int :=
  ((Nat.log2 number.mantissa : Int) + 1 + number.exponent) * 30103 / 100000 + 1

/-- The number written out in full, as a multiple of a power of ten. -/
def exactMultiple (number : Dyadic) : Nat × Int :=
  if 0 ≤ number.exponent then
    (number.mantissa * Nat.pow 2 number.exponent.toNat, 0)
  else
    (number.mantissa * Nat.pow 5 (-number.exponent).toNat, number.exponent)

/-- The multiple of the coarsest power of ten that reads back as the number.
Seventeen digits are enough for every number of 53 bits; were they not, the
number would be written out in full. -/
def shortestMultiple (number : Dyadic) : Nat × Int :=
  let grids :=
    (List.range 20).map fun (step : Nat) => number.coarsestGrid - step
  let found? :=
    grids.findSome? fun tens =>
      (number.multipleAt? tens).map fun count => (count, tens)
  found?.getD number.exactMultiple

/-- The fewest significant digits that read back as the number. -/
def shortest (number : Dyadic) : Decimal :=
  let (count, tens) := number.shortestMultiple
  let digits := Nat.toDigits 10 count
  { digits := (digits.reverse.dropWhile (· == '0')).reverse
    leading := (digits.length : Int) - 1 + tens }

end Dyadic

end Scriptlet
