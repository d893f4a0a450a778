import Scriptlet.Value

namespace Scriptlet

/-!
# Operators on values

Arithmetic on two integers stays within the integers and wraps around; if one
operand is a floating-point number, so is the result.  Division always gives a
floating-point number.  The result of an operator is made in the scope of its left
operand.
-/

/-- Two numbers of a common type. -/
inductive NumberPair where
  | ints (left right : Int64)
  | floats (left right : Float)

/-- The floating-point number nearest to an integer. -/
def floatOfInt (number : Int64) : Float :=
  Float.ofInt number.toInt

namespace Payload

/-- Two payloads as numbers of a common type, if both are numbers. -/
def numbers? : Payload → Payload → Option NumberPair
  | .int left, .int right => some (.ints left right)
  | .int left, .float right => some (.floats (floatOfInt left) right)
  | .float left, .int right => some (.floats left (floatOfInt right))
  | .float left, .float right => some (.floats left right)
  | _, _ => none

/-- Whether two payloads are the same: of one type, and equal numbers or truth
values, or functions of one name declared in one scope. -/
def same : Payload → Payload → Bool
  | .int left, .int right => left == right
  | .float left, .float right => left == right
  | .bool left, .bool right => left == right
  | .function left leftClosure, .function right rightClosure =>
      left.name == right.name && leftClosure == rightClosure
  | _, _ => false

/-- Whether two payloads are equal: numbers by their value, all else if it is the
same. -/
def equal (left right : Payload) : Bool :=
  match numbers? left right with
  | some (.ints leftNumber rightNumber) => leftNumber == rightNumber
  | some (.floats leftNumber rightNumber) => leftNumber == rightNumber
  | none => same left right

end Payload

namespace NumberPair

/-- The order of the two numbers; there is none if one of them is no number. -/
def order? : NumberPair → Option Ordering
  | .ints left right => some (compare left right)
  | .floats left right =>
      if left < right then some .lt
      else if left == right then some .eq
      else if right < left then some .gt
      else none

/-- The two numbers as floating-point numbers. -/
def toFloats : NumberPair → Float × Float
  | .ints left right => (floatOfInt left, floatOfInt right)
  | .floats left right => (left, right)

end NumberPair

namespace Value

/-- The two values as numbers of a common type, or the fault that the operation
is not defined on them. -/
def numbers (operation : Operation) (left right : Value) :
    Except RuntimeFault NumberPair :=
  match left.payload.numbers? right.payload with
  | some pair => .ok pair
  | none =>
      .error (.incompatibleOperands operation left.operand right.operand)

/-- An operation that stays within the integers on integers. -/
def arithmetic
    (operation : Operation)
    (onInts : Int64 → Int64 → Int64)
    (onFloats : Float → Float → Float)
    (left right : Value) :
    Except RuntimeFault Value := do
  match ← numbers operation left right with
  | .ints leftNumber rightNumber =>
      pure (left.withPayload (.int (onInts leftNumber rightNumber)))
  | .floats leftNumber rightNumber =>
      pure (left.withPayload (.float (onFloats leftNumber rightNumber)))

def add : Value → Value → Except RuntimeFault Value :=
  arithmetic .add (· + ·) (· + ·)

def subtract : Value → Value → Except RuntimeFault Value :=
  arithmetic .subtract (· - ·) (· - ·)

def multiply : Value → Value → Except RuntimeFault Value :=
  arithmetic .multiply (· * ·) (· * ·)

/-- The quotient of two numbers, unless the divisor is zero. -/
def divide (left right : Value) : Except RuntimeFault Value := do
  let (dividend, divisor) := (← numbers .divide left right).toFloats
  if divisor == 0.0 then
    throw (.divisionByZero left.operand right.operand)
  else
    pure (left.withPayload (.float (dividend / divisor)))

/-- Whether the order of two numbers is as wanted. -/
def comparison
    (wanted : Option Ordering → Bool)
    (left right : Value) :
    Except RuntimeFault Value := do
  let pair ← numbers .compare left right
  pure (left.withPayload (.bool (wanted pair.order?)))

def greater : Value → Value → Except RuntimeFault Value :=
  comparison fun order => order == some .gt

def greaterEqual : Value → Value → Except RuntimeFault Value :=
  comparison fun order => order == some .gt || order == some .eq

def less : Value → Value → Except RuntimeFault Value :=
  comparison fun order => order == some .lt

def lessEqual : Value → Value → Except RuntimeFault Value :=
  comparison fun order => order == some .lt || order == some .eq

def equals (left right : Value) : Value :=
  left.withPayload (.bool (left.payload.equal right.payload))

def notEquals (left right : Value) : Value :=
  left.withPayload (.bool (!(left.payload.equal right.payload)))

/-- The opposite of what a condition makes of a value. -/
def negation (value : Value) : Value :=
  value.withPayload (.bool (!value.isTrue))

/-- The operation of an operator between two values. -/
def binary (kind : TokenKind) (left right : Value) :
    Except RuntimeFault Value :=
  match kind with
  | .plus => add left right
  | .dash => subtract left right
  | .star => multiply left right
  | .slash => divide left right
  | .greater => greater left right
  | .greaterEqual => greaterEqual left right
  | .less => less left right
  | .lessEqual => lessEqual left right
  | .equalEqual => .ok (equals left right)
  | .bangEqual => .ok (notEquals left right)
  | other => .error (.invalidOperator other)

/-- The operation of an operator before a value.  A number is negated by
multiplying it by minus one. -/
def unary (kind : TokenKind) (value : Value) : Except RuntimeFault Value :=
  match kind with
  | .dash => multiply value (value.withPayload (.int (-1)))
  | .notKeyword => .ok value.negation
  | other => .error (.invalidOperator other)

/-- No value has attributes. -/
def getAttribute (value : Value) (name : String) : Except RuntimeFault Value :=
  .error (.invalidAttribute value.type name)

/-- No value has attributes that could be assigned. -/
def setAttribute (object : Value) (name : String) (value : Value) :
    Except RuntimeFault Value :=
  .error (.unableToAssignAttribute object.type name value.operand)

end Value

end Scriptlet
