import Scriptlet.Proofs.Grammar.Soundness

namespace Scriptlet

/-!
# Accepted programs are proper

A statement is proper if its operators are nested by their levels and its jumps have a
loop or a function to leave.  Being proper is inherited by the parts of a statement, and
what is read from tokens is proper in the surroundings that it is read in.
-/

theorem Expression.levelled_of_all
    {expressions : List Expression}
    (levelled : AllLevelled expressions) :
    ∀ expression ∈ expressions, expression.Levelled := by
  induction expressions with
  | nil =>
      exact nofun
  | cons first rest inductionHypothesis =>
      exact List.forall_mem_cons.mpr ⟨levelled.1, inductionHypothesis levelled.2⟩

namespace Statement

/-- Whether a statement fits a place inside or outside of a loop and of a function: its
jumps have something to leave, and its operators are nested by their levels. -/
def Proper (inLoop inFunction : Bool) (statement : Statement) : Prop :=
  statement.Placed inLoop inFunction ∧
    ∀ expression ∈ statement.expressions, expression.Levelled

/-- Whether all statements of a body fit their place. -/
def BodyProper (inLoop inFunction : Bool) (body : List Statement) : Prop :=
  ∀ statement ∈ body, statement.Proper inLoop inFunction

variable {inLoop inFunction : Bool}

/-! ## Parts of statements -/

theorem bodyProper_of_placed
    {body : List Statement}
    (placed : BodyPlaced inLoop inFunction body)
    (levelled : ∀ expression ∈ bodyExpressions body, expression.Levelled) :
    BodyProper inLoop inFunction body := by
  induction body with
  | nil =>
      exact nofun
  | cons statement rest inductionHypothesis =>
      obtain ⟨firstPlaced, restPlaced⟩ := placed
      obtain ⟨firstLevelled, restLevelled⟩ := List.forall_mem_append.mp levelled
      exact List.forall_mem_cons.mpr
        ⟨⟨firstPlaced, firstLevelled⟩,
          inductionHypothesis restPlaced restLevelled⟩

namespace Proper

theorem expression
    {inner : Expression}
    (proper : (Statement.expression inner).Proper inLoop inFunction) :
    inner.Levelled :=
  List.forall_mem_singleton.mp proper.2

theorem declaration
    {constant : Bool}
    {name : String}
    {initializer : Expression}
    {span : Span}
    (proper : (Statement.declaration constant name initializer span).Proper
      inLoop inFunction) :
    initializer.Levelled :=
  List.forall_mem_singleton.mp proper.2

theorem block
    {body : List Statement}
    {span : Span}
    (proper : (Statement.block body span).Proper inLoop inFunction) :
    BodyProper inLoop inFunction body :=
  bodyProper_of_placed proper.1 proper.2

theorem whileLoop
    {condition : Expression}
    {body : Statement}
    {span : Span}
    (proper : (Statement.whileLoop condition body span).Proper
      inLoop inFunction) :
    condition.Levelled ∧ body.Proper true inFunction :=
  ⟨(List.forall_mem_cons.mp proper.2).1, proper.1,
    (List.forall_mem_cons.mp proper.2).2⟩

theorem branches
    {others : List (Expression × Statement)}
    (placed : BranchesPlaced inLoop inFunction others)
    (levelled : ∀ expression ∈ branchExpressions others,
      expression.Levelled) :
    ∀ branch ∈ others,
      branch.1.Levelled ∧ branch.2.Proper inLoop inFunction := by
  induction others with
  | nil =>
      exact nofun
  | cons branch rest inductionHypothesis =>
      obtain ⟨bodyPlaced, restPlaced⟩ := placed
      obtain ⟨conditionLevelled, levelled⟩ := List.forall_mem_cons.mp levelled
      obtain ⟨bodyLevelled, restLevelled⟩ := List.forall_mem_append.mp levelled
      exact List.forall_mem_cons.mpr
        ⟨⟨conditionLevelled, bodyPlaced, bodyLevelled⟩,
          inductionHypothesis restPlaced restLevelled⟩

/-- The branches of a conditional, and its last resort. -/
theorem conditional
    {others : List (Expression × Statement)}
    {otherwise : Option Statement}
    {span : Span}
    (proper : (Statement.conditional others otherwise span).Proper
      inLoop inFunction) :
    (∀ branch ∈ others,
      branch.1.Levelled ∧ branch.2.Proper inLoop inFunction) ∧
      ∀ body, otherwise = some body → body.Proper inLoop inFunction := by
  obtain ⟨⟨branchesPlaced, otherwisePlaced⟩, levelled⟩ := proper
  obtain ⟨branchesLevelled, otherwiseLevelled⟩ :=
    List.forall_mem_append.mp levelled
  refine ⟨branches branchesPlaced branchesLevelled, ?_⟩
  rintro body rfl
  exact ⟨otherwisePlaced, otherwiseLevelled⟩

theorem returnValue
    {value : Option Expression}
    {span : Span}
    (proper : (Statement.returnValue value span).Proper inLoop inFunction) :
    inFunction = true ∧
      ∀ expression, value = some expression → expression.Levelled := by
  refine ⟨proper.1, ?_⟩
  rintro expression rfl
  exact List.forall_mem_singleton.mp proper.2

theorem function
    {name : String}
    {parameters : List String}
    {body : List Statement}
    {span : Span}
    (proper : (Statement.function name parameters body span).Proper
      inLoop inFunction) :
    BodyProper false true body :=
  bodyProper_of_placed proper.1 proper.2

end Proper

end Statement

/-! ## What is read is proper -/

namespace StatementPart

/-- Placement of the statements of a part in its surroundings. -/
def Placed : StatementPart → Prop
  | .declaration around result => result.Placed around.inLoop around.inFunction
  | .statement around result => result.Placed around.inLoop around.inFunction
  | .branches around others otherwise =>
      Statement.BranchesPlaced around.inLoop around.inFunction others ∧
        Statement.OtherwisePlaced around.inLoop around.inFunction otherwise
  | .block around body _ =>
      Statement.BodyPlaced around.inLoop around.inFunction body
  | .statements around body =>
      Statement.BodyPlaced around.inLoop around.inFunction body

/-- The jumps of a part that is read have something to leave. -/
theorem ReadFrom.placed
    {part : StatementPart}
    {tokens rest : List Token}
    (reads : part.ReadFrom tokens rest) :
    part.Placed := by
  induction reads with
  | variableDeclaration => exact trivial
  | functionDeclaration _ _ _ _ block => exact block
  | simple _ statement => exact statement
  | block _ block => exact block
  | whileLoop _ _ _ repeated => exact repeated
  | conditional _ _ _ _ chosen more => exact ⟨⟨chosen, more.1⟩, more.2⟩
  | breakLoop _ inLoop => exact inLoop
  | continueLoop _ inLoop => exact inLoop
  | returnNothing _ inFunction _ => exact inFunction
  | returnValue _ inFunction _ => exact inFunction
  | expression => exact trivial
  | elifBranch _ _ _ _ _ chosen more => exact ⟨⟨chosen, more.1⟩, more.2⟩
  | elseBranch _ _ _ chosen => exact ⟨trivial, chosen⟩
  | noBranch => exact ⟨trivial, trivial⟩
  | braces _ _ _ content => exact content
  | noStatement => exact trivial
  | moreStatements _ _ _ first others => exact ⟨first, others⟩

end StatementPart

/-- The statements of a program that is accepted are proper outside of all loops and
functions. -/
theorem bodyProper_of_parse
    {tokens : List Token}
    {program : List Statement}
    (accepted : parse tokens = .ok program) :
    Statement.BodyProper false false program := by
  have reads := parse_eq_ok_iff.mp accepted
  exact Statement.bodyProper_of_placed reads.placed reads.levelled

end Scriptlet
