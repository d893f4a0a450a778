namespace Scriptlet

/-!
# Reading numbers

How the digits of a literal become a number.  Integers are read exactly and must
fit into 64 bits; decimals are rounded to the nearest floating-point number and
must stay finite.
-/

/-- The number that decimal digits stand for. -/
def digitsValue (digits : List Char) : Nat :=
  Nat.ofDigitChars 10 digits 0

/-- A text without the sign it may start with, and whether that is a minus. -/
def splitSign : List Char → Bool × List Char
  | '-' :: rest => (true, rest)
  | '+' :: rest => (false, rest)
  | text => (false, text)

/-- Digits and nothing else, at least one. -/
def isDigits (text : List Char) : Bool :=
  !text.isEmpty && text.all Char.isDigit

theorem isDigits_iff {text : List Char} :
    isDigits text = true ↔ text ≠ [] ∧ ∀ character ∈ text, character.isDigit = true := by
  simp [isDigits]

/-- An integer with an optional sign, whatever its size. -/
def readWhole? (text : List Char) : Option Int :=
  let (negative, digits) := splitSign text
  if isDigits digits then
    let value : Int := digitsValue digits
    some (if negative then -value else value)
  else
    none

/-- An integer that fits into 64 bits. -/
def readInt? (text : String) : Option Int64 :=
  (readWhole? text.toList).bind fun value =>
    if Int64.minValue.toInt ≤ value ∧ value ≤ Int64.maxValue.toInt then
      some (Int64.ofInt value)
    else
      none

/-- An exponent behind its mark, or nothing. -/
def readExponent? : List Char → Option Int
  | [] => some 0
  | mark :: rest =>
      if mark = 'e' ∨ mark = 'E' then readWhole? rest else none

/-- Digits with an optional point and an optional exponent: the digits as one
number, and the power of ten that counts the last of them. -/
def readDecimal? (text : List Char) : Option (Nat × Int) :=
  let whole := text.takeWhile Char.isDigit
  let afterWhole := text.dropWhile Char.isDigit
  let behindPoint :=
    match afterWhole with
    | '.' :: rest => rest
    | _ => []
  let fraction := behindPoint.takeWhile Char.isDigit
  let tail :=
    match afterWhole with
    | '.' :: _ => behindPoint.dropWhile Char.isDigit
    | _ => afterWhole
  if whole.isEmpty && fraction.isEmpty then
    none
  else
    (readExponent? tail).map fun exponent =>
      (digitsValue (whole ++ fraction), exponent - fraction.length)

/-- The floating-point number nearest to `count` times a power of ten.  Numbers
that are far out of range are decided by their number of digits alone. -/
def nearestFloat (count : Nat) (tens : Int) : Float :=
  if count = 0 then
    0.0
  else
    let size := ((Nat.toDigits 10 count).length : Int) + tens
    if 400 < size then
      1.0 / 0.0
    else if size < -400 then
      0.0
    else if tens < 0 then
      Float.ofScientific count true (-tens).toNat
    else
      Float.ofScientific count false tens.toNat

/-- A decimal that a finite floating-point number can stand for. -/
def readFloat? (text : String) : Option Float :=
  let (negative, digits) := splitSign text.toList
  (readDecimal? digits).bind fun (count, tens) =>
    let magnitude := nearestFloat count tens
    let value := if negative then -magnitude else magnitude
    if value.isFinite then some value else none

end Scriptlet
