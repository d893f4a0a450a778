import Scriptlet.Grammar.Level
import Scriptlet.Tree.Statement

namespace Scriptlet

/-!
# Well-shaped trees

Not every tree can be written down.  Operators have to be nested by their levels,
the statements that leave a loop or a function have to stand in one, and the bodies
of loops and branches have to be blocks if nothing else is to separate them from
what follows.
-/

/-! ## Levels of expressions -/

namespace Expression

/-- How tightly the outermost node of an expression binds. -/
def level : Expression → Nat
  | .assign _ _ _ => 0
  | .setAttribute _ _ _ _ => 0
  | .binary _ operator _ _ => operator.kind.level?.getD 0
  | .logical _ operator _ _ => operator.kind.level?.getD 0
  | .unary _ _ _ => unaryLevel
  | .getAttribute _ _ _ => callLevel
  | .call _ _ _ => callLevel
  | .literal _ _ => primaryLevel
  | .reference _ _ => primaryLevel
  | .grouping _ _ => primaryLevel

mutual

/-- Whether all operators of an expression are nested by their levels: what stands
left of an operator binds at least as tightly, and what stands right of it binds
tighter. -/
def Levelled : Expression → Prop
  | .literal _ _ => True
  | .reference _ _ => True
  | .assign _ value _ => value.Levelled
  | .getAttribute object _ _ => callLevel ≤ object.level ∧ object.Levelled
  | .setAttribute object _ value _ =>
      (callLevel ≤ object.level ∧ object.Levelled) ∧ value.Levelled
  | .unary operator operand _ =>
      operator.kind.isUnary = true ∧
        unaryLevel ≤ operand.level ∧ operand.Levelled
  | .binary left operator right _ =>
      ∃ level, operator.kind.level? = some level ∧ 3 ≤ level ∧
        (level ≤ left.level ∧ left.Levelled) ∧
        level < right.level ∧ right.Levelled
  | .logical left operator right _ =>
      ∃ level, operator.kind.level? = some level ∧ level < 3 ∧
        (level ≤ left.level ∧ left.Levelled) ∧
        level < right.level ∧ right.Levelled
  | .grouping inner _ => inner.Levelled
  | .call callee arguments _ =>
      (callLevel ≤ callee.level ∧ callee.Levelled) ∧ AllLevelled arguments

/-- Whether all expressions of a list are levelled. -/
def AllLevelled : List Expression → Prop
  | [] => True
  | expression :: rest => expression.Levelled ∧ AllLevelled rest

end

/-- Whether an expression is levelled and binds at least as tightly as a level. -/
def BindsAt (level : Nat) (expression : Expression) : Prop :=
  level ≤ expression.level ∧ expression.Levelled

end Expression

theorem TokenKind.level_lt_unaryLevel
    {kind : TokenKind}
    {level : Nat}
    (hasLevel : kind.level? = some level) :
    level < unaryLevel := by
  cases kind <;> cases hasLevel <;> decide

theorem TokenKind.level_pos
    {kind : TokenKind}
    {level : Nat}
    (hasLevel : kind.level? = some level) :
    0 < level := by
  cases kind <;> cases hasLevel <;> decide

/-- The operators of the two lowest levels are the connectives. -/
theorem Expression.combine_of_level
    {operator : Token}
    {level : Nat}
    (hasLevel : operator.kind.level? = some level)
    (left right : Expression) :
    left.combine operator right =
      if level < 3 then .ofLogical left operator right
      else .ofBinary left operator right := by
  unfold combine
  cases isKind : operator.kind <;> rw [isKind] at hasLevel <;>
    cases hasLevel <;> rfl

theorem Expression.level_combine
    {operator : Token}
    {level : Nat}
    (hasLevel : operator.kind.level? = some level)
    (left right : Expression) :
    (left.combine operator right).level = level := by
  rw [combine_of_level hasLevel]
  split <;>
    simp [ofLogical, ofBinary, Expression.level, Token.operator, hasLevel]

/-! ## The expressions of a program -/

namespace Statement

mutual

/-- The expressions that stand in a statement and in the statements inside it. -/
def expressions : Statement → List Expression
  | .expression inner => [inner]
  | .declaration _ _ initializer _ => [initializer]
  | .block body _ => bodyExpressions body
  | .whileLoop condition body _ => condition :: body.expressions
  | .conditional branches otherwise _ =>
      branchExpressions branches ++ otherwiseExpressions otherwise
  | .breakLoop _ => []
  | .continueLoop _ => []
  | .returnValue value _ => value.toList
  | .function _ _ body _ => bodyExpressions body

/-- The expressions that stand in the statements of a body. -/
def bodyExpressions : List Statement → List Expression
  | [] => []
  | statement :: rest => statement.expressions ++ bodyExpressions rest

/-- The expressions that stand in the branches of a conditional. -/
def branchExpressions : List (Expression × Statement) → List Expression
  | [] => []
  | (condition, body) :: rest =>
      condition :: body.expressions ++ branchExpressions rest

/-- The expressions that stand in the last resort of a conditional. -/
def otherwiseExpressions : Option Statement → List Expression
  | none => []
  | some body => body.expressions

end

/-! ## Placement and braces -/

/-- Whether a statement is a block. -/
def isBlock : Statement → Bool
  | .block _ _ => true
  | _ => false

mutual

/-- Whether loops are only left from inside a loop of the same function, and
functions only from inside a function. -/
def Placed : Bool → Bool → Statement → Prop
  | _, _, .expression _ => True
  | _, _, .declaration _ _ _ _ => True
  | inLoop, inFunction, .block body _ => BodyPlaced inLoop inFunction body
  | _, inFunction, .whileLoop _ body _ => Placed true inFunction body
  | inLoop, inFunction, .conditional branches otherwise _ =>
      BranchesPlaced inLoop inFunction branches ∧
        OtherwisePlaced inLoop inFunction otherwise
  | inLoop, _, .breakLoop _ => inLoop = true
  | inLoop, _, .continueLoop _ => inLoop = true
  | _, inFunction, .returnValue _ _ => inFunction = true
  | _, _, .function _ _ body _ => BodyPlaced false true body

/-- Placement in the statements of a body. -/
def BodyPlaced : Bool → Bool → List Statement → Prop
  | _, _, [] => True
  | inLoop, inFunction, statement :: rest =>
      Placed inLoop inFunction statement ∧ BodyPlaced inLoop inFunction rest

/-- Placement in the branches of a conditional. -/
def BranchesPlaced : Bool → Bool → List (Expression × Statement) → Prop
  | _, _, [] => True
  | inLoop, inFunction, (_, body) :: rest =>
      Placed inLoop inFunction body ∧ BranchesPlaced inLoop inFunction rest

/-- Placement in the last resort of a conditional. -/
def OtherwisePlaced : Bool → Bool → Option Statement → Prop
  | _, _, none => True
  | inLoop, inFunction, some body => Placed inLoop inFunction body

end

mutual

/-- Whether the bodies of loops and branches are blocks, and every conditional has
a branch. -/
def Braced : Statement → Prop
  | .block body _ => BodyBraced body
  | .whileLoop _ body _ => body.isBlock = true ∧ body.Braced
  | .conditional branches otherwise _ =>
      branches ≠ [] ∧ BranchesBraced branches ∧ OtherwiseBraced otherwise
  | .function _ _ body _ => BodyBraced body
  | _ => True

/-- Braces in the statements of a body. -/
def BodyBraced : List Statement → Prop
  | [] => True
  | statement :: rest => statement.Braced ∧ BodyBraced rest

/-- Braces around the bodies of branches. -/
def BranchesBraced : List (Expression × Statement) → Prop
  | [] => True
  | (_, body) :: rest =>
      (body.isBlock = true ∧ body.Braced) ∧ BranchesBraced rest

/-- Braces around the last resort of a conditional. -/
def OtherwiseBraced : Option Statement → Prop
  | none => True
  | some body => body.isBlock = true ∧ body.Braced

end

end Statement

end Scriptlet
