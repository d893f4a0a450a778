import Scriptlet.Frame
import Scriptlet.Tree.Statement

namespace Scriptlet

/-!
# How the phrases of a program are nested

The phrases of a program are its expressions and statements.  A block and a function have a
frame of their own, which stands around the statements in them and around all that these
consist of.  So every place of a program has the frames of the blocks and functions around
it, outermost first.
-/

/-- An expression or a statement. -/
inductive Phrase where
  | expression (expression : Expression)
  | statement (statement : Statement)

/-- The expressions that an expression consists of. -/
def Expression.operands : Expression → List Expression
  | .literal _ _ => []
  | .reference _ _ => []
  | .assign _ right _ => [right]
  | .getAttribute object _ _ => [object]
  | .setAttribute object _ right _ => [object, right]
  | .unary _ operand _ => [operand]
  | .binary left _ right _ => [left, right]
  | .logical left _ right _ => [left, right]
  | .grouping inner _ => [inner]
  | .call callee arguments _ => callee :: arguments

/-- What a statement consists of, without the statements in a block or a function. -/
def Statement.parts : Statement → List Phrase
  | .expression inner => [.expression inner]
  | .declaration _ _ initializer _ => [.expression initializer]
  | .block _ _ => []
  | .whileLoop condition body _ => [.expression condition, .statement body]
  | .conditional branches otherwise _ =>
      branches.flatMap
          (fun branch => [.expression branch.1, .statement branch.2]) ++
        otherwise.toList.map .statement
  | .breakLoop _ => []
  | .continueLoop _ => []
  | .returnValue value _ => value.toList.map .expression
  | .function _ _ _ _ => []

/-- What a phrase consists of, without the statements in a block or a function. -/
def Phrase.parts : Phrase → List Phrase
  | .expression inner => inner.operands.map .expression
  | .statement inner => inner.parts

/-- The phrases of a program, each with the frames of the blocks and functions around it,
outermost first. -/
inductive Occurs (program : List Statement) : List Frame → Phrase → Prop where
  /-- A statement of the program itself. -/
  | top
      (isStatement : statement ∈ program) :
      Occurs program [] (.statement statement)
  /-- What a phrase consists of. -/
  | part
      (occurs : Occurs program frames phrase)
      (isPart : part ∈ phrase.parts) :
      Occurs program frames part
  /-- A statement in a block. -/
  | inBlock
      (occurs : Occurs program frames (.statement (.block body span)))
      (isInside : statement ∈ body) :
      Occurs program (frames ++ [.block span.line span.fileName])
        (.statement statement)
  /-- A statement in the body of a function. -/
  | inFunction
      (occurs : Occurs program frames
        (.statement (.function name parameters body span)))
      (isInside : statement ∈ body) :
      Occurs program (frames ++ [.call name span.line span.fileName])
        (.statement statement)

/-- Phrases with frames around them.  With a phrase there are also all those that it consists
of or that stand in it. -/
structure Nesting where
  /-- Whether a phrase has the given frames around it. -/
  Holds : List Frame → Phrase → Prop
  holds_part : ∀ {frames phrase part},
    Holds frames phrase → part ∈ phrase.parts → Holds frames part
  holds_inBlock : ∀ {frames body span statement},
    Holds frames (.statement (.block body span)) → statement ∈ body →
    Holds (frames ++ [.block span.line span.fileName]) (.statement statement)
  holds_inFunction : ∀ {frames name parameters body span statement},
    Holds frames (.statement (.function name parameters body span)) →
    statement ∈ body →
    Holds (frames ++ [.call name span.line span.fileName]) (.statement statement)

namespace Nesting

variable {nesting : Nesting} {frames : List Frame}

theorem holds_operand
    {expression operand : Expression}
    (holds : nesting.Holds frames (.expression expression))
    (isOperand : operand ∈ expression.operands) :
    nesting.Holds frames (.expression operand) :=
  nesting.holds_part holds (List.mem_map_of_mem isOperand)

/-- The condition and the body of a branch. -/
theorem holds_branch
    {branches : List (Expression × Statement)}
    {otherwise : Option Statement}
    {span : Span}
    {branch : Expression × Statement}
    (holds : nesting.Holds frames
      (.statement (.conditional branches otherwise span)))
    (isBranch : branch ∈ branches) :
    nesting.Holds frames (.expression branch.1) ∧
      nesting.Holds frames (.statement branch.2) := by
  have isPart : ∀ part ∈ [Phrase.expression branch.1, .statement branch.2],
      part ∈ (Phrase.statement (.conditional branches otherwise span)).parts := by
    intro part isPart
    exact List.mem_append_left _ (List.mem_flatMap.mpr ⟨branch, isBranch, isPart⟩)
  exact ⟨nesting.holds_part holds (isPart _ List.mem_cons_self),
    nesting.holds_part holds (isPart _ (List.mem_cons_of_mem _ List.mem_cons_self))⟩

/-- The last resort of a conditional. -/
theorem holds_otherwise
    {branches : List (Expression × Statement)}
    {body : Statement}
    {span : Span}
    (holds : nesting.Holds frames
      (.statement (.conditional branches (some body) span))) :
    nesting.Holds frames (.statement body) :=
  nesting.holds_part holds (List.mem_append_right _ List.mem_cons_self)

end Nesting

end Scriptlet
