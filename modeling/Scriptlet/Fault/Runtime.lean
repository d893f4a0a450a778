import Scriptlet.Diagnostic
import Scriptlet.Token

namespace Scriptlet

/-!
# Runtime faults

What can go wrong while statements run.  The first fault ends the run.
-/

/-- The types of values. -/
inductive ValueType where
  | int
  | float
  | bool
  | function
  deriving Repr, DecidableEq, Inhabited

/-- The name of a type, as messages quote it. -/
def ValueType.name : ValueType → String
  | .int => "INT"
  | .float => "FLOAT"
  | .bool => "BOOL"
  | .function => "FUNCTION"

/-- A value as an error message quotes it: its type and how it is shown. -/
structure Operand where
  type : ValueType
  text : String
  deriving Repr, DecidableEq, Inhabited

/-- The type and the text of an operand, each in quotes. -/
def Operand.quote (operand : Operand) : String :=
  "'" ++ operand.type.name ++ "' with value of '" ++ operand.text ++ "'"

/-- The operations that not every pair of values supports. -/
inductive Operation where
  | add
  | subtract
  | multiply
  | divide
  | compare
  deriving Repr, DecidableEq, Inhabited

namespace Operation

/-- The verb for an operation in a message. -/
def verb : Operation → String
  | .add => "add"
  | .subtract => "subtract"
  | .multiply => "multiply"
  | .divide => "divide"
  | .compare => "compare sizes between"

/-- The word between the two operands in a message. -/
def preposition : Operation → String
  | .add => "to"
  | .subtract | .multiply | .divide => "by"
  | .compare => "and"

end Operation

/-- What can go wrong while statements run. -/
inductive RuntimeFault where
  /-- The scope already binds the name. -/
  | variableAlreadyDeclared (name : String) (line : Nat)
  /-- No scope around binds the name. -/
  | undefinedVariable (name : String)
  /-- The binding must keep its value. -/
  | constantAssignment (name : String)
  /-- The operation is not defined on these values. -/
  | incompatibleOperands (operation : Operation) (left right : Operand)
  /-- The divisor is zero. -/
  | divisionByZero (left right : Operand)
  /-- A value was needed and the expression gave none. -/
  | noValue
  /-- The value has no such attribute. -/
  | invalidAttribute (type : ValueType) (name : String)
  /-- The attribute of the value cannot be assigned. -/
  | unableToAssignAttribute (type : ValueType) (name : String) (value : Operand)
  /-- The value is no function. -/
  | invalidCall (type : ValueType)
  /-- There are more arguments than parameters. -/
  | tooManyArguments (expected got : Nat)
  /-- There are fewer arguments than parameters. -/
  | tooFewArguments (expected got : Nat)
  /-- The token is no operator of this kind of expression. -/
  | invalidOperator (kind : TokenKind)
  deriving Repr, DecidableEq, Inhabited

namespace RuntimeFault

/-- The kind of error a fault is reported as. -/
def kind : RuntimeFault → ErrorKind
  | .variableAlreadyDeclared _ _ => .variableAlreadyDeclared
  | .undefinedVariable _ => .undefinedVariable
  | .constantAssignment _ => .constantVariableAssignment
  | .incompatibleOperands _ _ _ => .value
  | .divisionByZero _ _ => .divisionByZero
  | .noValue => .value
  | .invalidAttribute _ _ => .invalidAttribute
  | .unableToAssignAttribute _ _ _ => .unableToAssignAttribute
  | .invalidCall _ => .invalidCall
  | .tooManyArguments _ _ => .argument
  | .tooFewArguments _ _ => .argument
  | .invalidOperator _ => .invalidOpToken

/-- How many arguments a function takes and how many it was given. -/
def argumentCounts (expected got : Nat) : String :=
  "object of type '" ++ ValueType.function.name ++ "' expected " ++
    toString expected ++ " arguments but got " ++ toString got ++ " arguments"

/-- What went wrong. -/
def message : RuntimeFault → String
  | .variableAlreadyDeclared name line =>
      "a variable with the name of '" ++ name ++
        "' has already been declared on line " ++ toString line
  | .undefinedVariable name =>
      "a variable with the name of '" ++ name ++ "' could not be found"
  | .constantAssignment name =>
      "the variable '" ++ name ++
        "' is a constant and can therefore not be assigned to"
  | .incompatibleOperands operation left right =>
      "unable to " ++ operation.verb ++ " " ++ left.quote ++ " " ++
        operation.preposition ++ " " ++ right.quote
  | .divisionByZero left right =>
      "unable to divide " ++ left.quote ++ " by " ++ right.quote
  | .noValue =>
      "the expression produced no value"
  | .invalidAttribute type name =>
      "object of type '" ++ type.name ++ "' has no attribute called '" ++
        name ++ "'"
  | .unableToAssignAttribute type name value =>
      "unable to assign '" ++ name ++ "' of '" ++ type.name ++ "' to a " ++
        value.quote
  | .invalidCall type =>
      "unable to call object of type '" ++ type.name ++ "'"
  | .tooManyArguments expected got =>
      "too many arguments, " ++ argumentCounts expected got
  | .tooFewArguments expected got =>
      "too few arguments, " ++ argumentCounts expected got
  | .invalidOperator kind =>
      "the op token of type '" ++ kind.name ++ "' is not valid here"

/-- What could be done about a fault. -/
def tip : RuntimeFault → Option String
  | .constantAssignment name =>
      some
        ("Declare '" ++ name ++
          "' with 'var' instead of 'const' to allow assigning to it")
  | .undefinedVariable name =>
      some ("Declare it first: 'var " ++ name ++ " = ...'")
  | _ =>
      none

/-- The report of a fault at a place, raised in a scope with the given
frames. -/
def locate (fault : RuntimeFault) (span : Span) (frames : List Frame) :
    Diagnostic where
  kind := fault.kind
  message := fault.message
  tip := fault.tip
  span := span
  stack := some frames

end RuntimeFault

end Scriptlet
