import Scriptlet.Tree.Expression

namespace Scriptlet

/-!
# Statements

A program is a list of statements.  A statement is run for what it does; an
expression that stands as a statement also has a value.
-/

/-- One step of a program. -/
inductive Statement where
  /-- An expression that is run for its value or its effect. -/
  | expression (inner : Expression)
  /-- A new name, which may be assigned to later unless it is constant. -/
  | declaration
      (constant : Bool) (name : String) (initializer : Expression) (span : Span)
  /-- Statements with a scope of their own. -/
  | block (body : List Statement) (span : Span)
  /-- A statement that is repeated as long as the condition is true. -/
  | whileLoop (condition : Expression) (body : Statement) (span : Span)
  /-- The first branch whose condition is true is run, or the last resort if
  there is none. -/
  | conditional
      (branches : List (Expression × Statement)) (otherwise : Option Statement)
      (span : Span)
  /-- Leaving the loop around. -/
  | breakLoop (span : Span)
  /-- Going on with the next round of the loop around. -/
  | continueLoop (span : Span)
  /-- Leaving the function around, with or without a value. -/
  | returnValue (value : Option Expression) (span : Span)
  /-- A new function. -/
  | function
      (name : String) (parameters : List String) (body : List Statement)
      (span : Span)
  deriving Repr, Inhabited

/-- What a function value keeps of the statement that declared it. -/
structure FunctionDeclaration where
  name : String
  parameters : List String
  body : List Statement
  span : Span
  deriving Repr, Inhabited

namespace Statement

/-- The stretch of text of a statement. -/
def span : Statement → Span
  | .expression inner => inner.span
  | .declaration _ _ _ span => span
  | .block _ span => span
  | .whileLoop _ _ span => span
  | .conditional _ _ span => span
  | .breakLoop span => span
  | .continueLoop span => span
  | .returnValue _ span => span
  | .function _ _ _ span => span

/-! ## Text form -/

mutual

/-- A statement in prefix form. -/
def display : Statement → String
  | .expression inner => inner.display
  | .declaration constant name initializer _ =>
      (if constant then "(const " else "(var ") ++ name ++ " " ++
        initializer.display ++ ")"
  | .block body _ => "(block" ++ displayBody body ++ ")"
  | .whileLoop condition body _ =>
      "(while " ++ condition.display ++ " " ++ body.display ++ ")"
  | .conditional branches otherwise _ =>
      displayBranches true branches ++ displayOtherwise otherwise ++ ")"
  | .breakLoop _ => "(break)"
  | .continueLoop _ => "(continue)"
  | .returnValue (some value) _ => "(return " ++ value.display ++ ")"
  | .returnValue none _ => "(return)"
  | .function name parameters body _ =>
      "(function " ++ name ++ " (" ++ String.intercalate " " parameters ++
        ") (block" ++ displayBody body ++ "))"

/-- Statements inside a block, each after a space. -/
def displayBody : List Statement → String
  | [] => ""
  | statement :: rest => " " ++ statement.display ++ displayBody rest

/-- Branches, of which the first opens the whole form. -/
def displayBranches : Bool → List (Expression × Statement) → String
  | _, [] => ""
  | true, (condition, body) :: rest =>
      "(if " ++ condition.display ++ " " ++ body.display ++
        displayBranches false rest
  | false, (condition, body) :: rest =>
      " (elif " ++ condition.display ++ " " ++ body.display ++ ")" ++
        displayBranches false rest

/-- The last resort of a conditional. -/
def displayOtherwise : Option Statement → String
  | none => ""
  | some body => " (else " ++ body.display ++ ")"

end

end Statement

end Scriptlet
