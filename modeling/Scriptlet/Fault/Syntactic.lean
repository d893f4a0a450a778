import Scriptlet.Diagnostic
import Scriptlet.Token

namespace Scriptlet

/-!
# Syntax faults

What can be wrong with the order of the tokens of a program.  The first fault
stops the reading.
-/

/-- What can be wrong with the order of tokens. -/
inductive SyntaxFault where
  /-- Another kind of token was needed than the one that stands there. -/
  | expectedToken (expected found : TokenKind)
  /-- No expression starts with a token of this kind. -/
  | invalidToken (kind : TokenKind)
  /-- A number that its type cannot hold. -/
  | tooBigValue (kind : TokenKind)
  /-- A break statement with no loop around it. -/
  | breakOutsideLoop
  /-- A continue statement with no loop around it. -/
  | continueOutsideLoop
  /-- A return statement with no function around it. -/
  | returnOutsideFunction
  deriving Repr, DecidableEq, Inhabited

namespace SyntaxFault

/-- The kind of error a fault is reported as. -/
def kind : SyntaxFault → ErrorKind
  | .expectedToken _ _ => .expectedToken
  | .invalidToken _ => .invalidTokenType
  | .tooBigValue _ => .tooBigValue
  | .breakOutsideLoop => .breakOutsideOfLoop
  | .continueOutsideLoop => .continueOutsideOfLoop
  | .returnOutsideFunction => .returnOutsideOfFunction

/-- What went wrong. -/
def message : SyntaxFault → String
  | .expectedToken expected found =>
      "expected token of type '" ++ expected.name ++
        "', not token of type '" ++ found.name ++ "'"
  | .invalidToken kind =>
      "token of type '" ++ kind.name ++ "' is invalid"
  | .tooBigValue kind =>
      "the value of number of type " ++ kind.name ++ " is too big"
  | .breakOutsideLoop =>
      "break statement found outside of loop"
  | .continueOutsideLoop =>
      "continue statement found outside of loop"
  | .returnOutsideFunction =>
      "return statement found outside of function"

/-- What could be done about a fault. -/
def tip : SyntaxFault → Option String
  | .breakOutsideLoop =>
      some "Break statements can only be used inside of loops"
  | .continueOutsideLoop =>
      some "Continue statements can only be used inside of loops"
  | .returnOutsideFunction =>
      some "Return statements can only be used inside of functions"
  | .tooBigValue .int =>
      some
        ("Integers must lie between " ++ toString Int64.minValue.toInt ++
          " and " ++ toString Int64.maxValue.toInt)
  | _ =>
      none

/-- The report of a fault at a place. -/
def locate (fault : SyntaxFault) (span : Span) : Diagnostic where
  kind := fault.kind
  message := fault.message
  tip := fault.tip
  span := span
  stack := none

end SyntaxFault

end Scriptlet
