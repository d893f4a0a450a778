import Scriptlet.Tree.Statement

namespace Scriptlet

/-!
# Outlines of trees

The nodes of a tree in the order in which they start, each with its kind and its
stretch of text.
-/

/-- The kinds of nodes. -/
inductive NodeKind where
  | intLiteral
  | floatLiteral
  | boolLiteral
  | reference
  | assign
  | getAttribute
  | setAttribute
  | unary
  | binary
  | logical
  | grouping
  | call
  | expressionStatement
  | declaration
  | block
  | whileLoop
  | conditional
  | breakLoop
  | continueLoop
  | returnValue
  | function
  deriving Repr, DecidableEq, Inhabited

/-- A node of a tree without its parts. -/
structure Node where
  kind : NodeKind
  span : Span
  deriving Repr, DecidableEq, Inhabited

/-- The kind of node that a literal is. -/
def Literal.nodeKind : Literal → NodeKind
  | .int _ => .intLiteral
  | .float _ => .floatLiteral
  | .bool _ => .boolLiteral

namespace Expression

mutual

/-- The nodes of an expression, each before its parts. -/
def outline : Expression → List Node
  | .literal value span => [⟨value.nodeKind, span⟩]
  | .reference _ span => [⟨.reference, span⟩]
  | .assign _ value span => ⟨.assign, span⟩ :: value.outline
  | .getAttribute object _ span => ⟨.getAttribute, span⟩ :: object.outline
  | .setAttribute object _ value span =>
      ⟨.setAttribute, span⟩ :: (object.outline ++ value.outline)
  | .unary _ operand span => ⟨.unary, span⟩ :: operand.outline
  | .binary left _ right span =>
      ⟨.binary, span⟩ :: (left.outline ++ right.outline)
  | .logical left _ right span =>
      ⟨.logical, span⟩ :: (left.outline ++ right.outline)
  | .grouping inner span => ⟨.grouping, span⟩ :: inner.outline
  | .call callee arguments span =>
      ⟨.call, span⟩ :: (callee.outline ++ outlineAll arguments)

/-- The nodes of several expressions. -/
def outlineAll : List Expression → List Node
  | [] => []
  | expression :: rest => expression.outline ++ outlineAll rest

end

end Expression

namespace Statement

mutual

/-- The nodes of a statement, each before its parts. -/
def outline : Statement → List Node
  | .expression inner => ⟨.expressionStatement, inner.span⟩ :: inner.outline
  | .declaration _ _ initializer span =>
      ⟨.declaration, span⟩ :: initializer.outline
  | .block body span => ⟨.block, span⟩ :: outlineAll body
  | .whileLoop condition body span =>
      ⟨.whileLoop, span⟩ :: (condition.outline ++ body.outline)
  | .conditional branches otherwise span =>
      ⟨.conditional, span⟩ ::
        (outlineBranches branches ++ outlineOtherwise otherwise)
  | .breakLoop span => [⟨.breakLoop, span⟩]
  | .continueLoop span => [⟨.continueLoop, span⟩]
  | .returnValue (some value) span => ⟨.returnValue, span⟩ :: value.outline
  | .returnValue none span => [⟨.returnValue, span⟩]
  | .function _ _ body span => ⟨.function, span⟩ :: outlineAll body

/-- The nodes of several statements. -/
def outlineAll : List Statement → List Node
  | [] => []
  | statement :: rest => statement.outline ++ outlineAll rest

/-- The nodes of branches, each condition before its body. -/
def outlineBranches : List (Expression × Statement) → List Node
  | [] => []
  | (condition, body) :: rest =>
      condition.outline ++ (body.outline ++ outlineBranches rest)

/-- The nodes of the last resort of a conditional. -/
def outlineOtherwise : Option Statement → List Node
  | none => []
  | some body => body.outline

end

end Statement

end Scriptlet
