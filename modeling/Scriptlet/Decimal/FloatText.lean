import Scriptlet.Decimal.Shortest

namespace Scriptlet

/-!
# Floating-point numbers as text

Numbers from a ten thousandth up to ten quadrillions are written positionally and
always show a fraction; smaller and larger ones with an exponent.
-/

namespace Decimal

/-- Powers of ten whose numbers are written positionally. -/
def isPositional (leading : Int) : Bool :=
  -4 ≤ leading && leading < 16

/-- A decimal with its point in place and at least one digit on both sides of
it. -/
def positional (decimal : Decimal) : List Char :=
  let digits := decimal.digits
  if decimal.leading < 0 then
    '0' :: '.' ::
      (List.replicate (-decimal.leading - 1).toNat '0' ++ digits)
  else
    let whole := decimal.leading.toNat + 1
    if digits.length ≤ whole then
      digits ++ List.replicate (whole - digits.length) '0' ++ ['.', '0']
    else
      digits.take whole ++ '.' :: digits.drop whole

/-- A decimal as one digit, the fraction if there are more digits, and an
exponent. -/
def scientific (decimal : Decimal) : List Char :=
  let mantissa :=
    match decimal.digits with
    | [] => ['0']
    | [digit] => [digit]
    | digit :: more => digit :: '.' :: more
  mantissa ++ 'e' :: (toString decimal.leading).toList

/-- A decimal as text. -/
def layout (decimal : Decimal) : List Char :=
  if isPositional decimal.leading then
    decimal.positional
  else
    decimal.scientific

end Decimal

/-- The text of the absolute value of a floating-point number. -/
def magnitudeText (number : Float) : String :=
  if number.isInf then
    "inf"
  else if number == 0.0 then
    "0.0"
  else
    String.ofList (Dyadic.ofBits number.toBits).shortest.layout

/-- A floating-point number as text; a number that is none has no sign. -/
def floatText (number : Float) : String :=
  if number.isNaN then
    "NaN"
  else if Nat.pow 2 63 ≤ number.toBits.toNat then
    "-" ++ magnitudeText number
  else
    magnitudeText number

end Scriptlet
