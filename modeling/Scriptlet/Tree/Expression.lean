import Scriptlet.Decimal.FloatText
import Scriptlet.Token

namespace Scriptlet

/-!
# Expressions

The trees that tokens are read as.  Every node carries the stretch of text it was
read from; a node built from parts reaches from its first part to its last.
-/

/-- A value that is written out in a program. -/
inductive Literal where
  | int (value : Int64)
  | float (value : Float)
  | bool (value : Bool)
  deriving Repr, Inhabited

/-- How a literal is shown. -/
def Literal.display : Literal → String
  | .int value => toString value.toInt
  | .float value => floatText value
  | .bool value => toString value

/-- An operator as it stands in an expression. -/
structure Operator where
  kind : TokenKind
  lexeme : String
  deriving Repr, DecidableEq, Inhabited

/-- The operator that a token spells. -/
def Token.operator (token : Token) : Operator :=
  ⟨token.kind, token.lexeme⟩

/-- A tree that stands for a value. -/
inductive Expression where
  | literal (value : Literal) (span : Span)
  /-- The value bound to a name. -/
  | reference (name : String) (span : Span)
  /-- Giving a bound name a new value. -/
  | assign (name : String) (value : Expression) (span : Span)
  | getAttribute (object : Expression) (name : String) (span : Span)
  | setAttribute
      (object : Expression) (name : String) (value : Expression) (span : Span)
  | unary (operator : Operator) (operand : Expression) (span : Span)
  | binary (left : Expression) (operator : Operator) (right : Expression)
      (span : Span)
  /-- A conjunction or disjunction, whose right side is run only if needed. -/
  | logical (left : Expression) (operator : Operator) (right : Expression)
      (span : Span)
  /-- An expression in parentheses. -/
  | grouping (inner : Expression) (span : Span)
  | call (callee : Expression) (arguments : List Expression) (span : Span)
  deriving Repr, Inhabited

namespace Expression

/-- The stretch of text of an expression. -/
def span : Expression → Span
  | .literal _ span => span
  | .reference _ span => span
  | .assign _ _ span => span
  | .getAttribute _ _ span => span
  | .setAttribute _ _ _ span => span
  | .unary _ _ span => span
  | .binary _ _ _ span => span
  | .logical _ _ _ span => span
  | .grouping _ span => span
  | .call _ _ span => span

/-! ## Nodes built from parts -/

/-- An operator token before its operand. -/
def ofUnary (operator : Token) (operand : Expression) : Expression :=
  .unary operator.operator operand (operator.span.through operand.span)

/-- Two operands with an operator between them. -/
def ofBinary (left : Expression) (operator : Token) (right : Expression) :
    Expression :=
  .binary left operator.operator right (left.span.through right.span)

/-- Two conditions with a connective between them. -/
def ofLogical (left : Expression) (operator : Token) (right : Expression) :
    Expression :=
  .logical left operator.operator right (left.span.through right.span)

/-- An expression with parentheses around it. -/
def ofGrouping (opening : Span) (inner : Expression) (closing : Span) :
    Expression :=
  .grouping inner (opening.through closing)

/-- A callee with its arguments, up to the closing parenthesis. -/
def ofCall
    (callee : Expression)
    (arguments : List Expression)
    (closing : Span) :
    Expression :=
  .call callee arguments (callee.span.through closing)

/-- An object with the name of one of its attributes. -/
def ofGetAttribute (object : Expression) (name : String) (nameSpan : Span) :
    Expression :=
  .getAttribute object name (object.span.through nameSpan)

/-- An assignment to a name that stands at the target. -/
def ofAssign (name : String) (target : Span) (value : Expression) :
    Expression :=
  .assign name value (target.through value.span)

/-- An assignment to the attribute that stands at the target. -/
def ofSetAttribute
    (object : Expression)
    (name : String)
    (target : Span)
    (value : Expression) :
    Expression :=
  .setAttribute object name value (target.through value.span)

/-! ## Text form -/

mutual

/-- An expression in prefix form, every operator in front of its operands. -/
def display : Expression → String
  | .literal value _ => value.display
  | .reference name _ => name
  | .assign name value _ => "(= " ++ name ++ " " ++ value.display ++ ")"
  | .getAttribute object name _ =>
      "(get " ++ object.display ++ "." ++ name ++ ")"
  | .setAttribute object name value _ =>
      "(set " ++ object.display ++ "." ++ name ++ "=" ++ value.display ++ ")"
  | .unary operator operand _ =>
      "(" ++ operator.lexeme ++ " " ++ operand.display ++ ")"
  | .binary left operator right _ =>
      "(" ++ operator.lexeme ++ " " ++ left.display ++ " " ++ right.display ++
        ")"
  | .logical left operator right _ =>
      "(" ++ operator.lexeme ++ " " ++ left.display ++ " " ++ right.display ++
        ")"
  | .grouping inner _ => "(group " ++ inner.display ++ ")"
  | .call callee arguments _ =>
      "(call " ++ callee.display ++ " (" ++
        String.intercalate " " (displayAll arguments) ++ "))"

/-- The text forms of several expressions. -/
def displayAll : List Expression → List String
  | [] => []
  | expression :: rest => expression.display :: displayAll rest

end

end Expression

end Scriptlet
