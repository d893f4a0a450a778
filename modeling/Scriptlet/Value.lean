import Scriptlet.Fault.Runtime
import Scriptlet.Tree.Statement

namespace Scriptlet

/-!
# Values

What expressions evaluate to: integers of 64 bits, floating-point numbers, truth
values and functions.  A value also remembers the scope that it was made in.
-/

/-- The number of a scope in the store of scopes. -/
abbrev ScopeId := Nat

/-- What a value is. -/
inductive Payload where
  | int (number : Int64)
  | float (number : Float)
  | bool (truth : Bool)
  /-- A function with the scope that it was declared in. -/
  | function (declaration : FunctionDeclaration) (closure : ScopeId)
  deriving Inhabited

namespace Payload

/-- The type of a payload. -/
def type : Payload → ValueType
  | .int _ => .int
  | .float _ => .float
  | .bool _ => .bool
  | .function _ _ => .function

/-- How a payload is shown. -/
def display : Payload → String
  | .int number => toString number.toInt
  | .float number => floatText number
  | .bool truth => toString truth
  | .function declaration _ => "function " ++ declaration.name

/-- What a condition makes of a payload: zero is false, and functions are
true. -/
def isTrue : Payload → Bool
  | .int number => number != 0
  | .float number => number != 0.0
  | .bool truth => truth
  | .function _ _ => true

end Payload

/-- A value with the scope that it was made in. -/
structure Value where
  payload : Payload
  scope : ScopeId
  deriving Inhabited

namespace Value

/-- The type of a value. -/
def type (value : Value) : ValueType :=
  value.payload.type

/-- How a value is shown. -/
def display (value : Value) : String :=
  value.payload.display

/-- A value with its type, a function by its bare name. -/
def labelled (value : Value) : String :=
  let text :=
    match value.payload with
    | .function declaration _ => declaration.name
    | payload => payload.display
  "(" ++ value.type.name ++ ": " ++ text ++ ")"

/-- A value as error messages quote it. -/
def operand (value : Value) : Operand :=
  ⟨value.type, value.display⟩

/-- What a condition makes of a value. -/
def isTrue (value : Value) : Bool :=
  value.payload.isTrue

/-- A value made in the same scope as another. -/
def withPayload (value : Value) (payload : Payload) : Value :=
  ⟨payload, value.scope⟩

end Value

/-- What a literal stands for. -/
def Literal.payload : Literal → Payload
  | .int value => .int value
  | .float value => .float value
  | .bool value => .bool value

end Scriptlet
