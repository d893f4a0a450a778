import Scriptlet.Proofs.Tree.Shape

namespace Scriptlet

/-!
# Trees up to spans

Two trees are the same up to spans if they agree once all their spans are replaced
by one and the same span.
-/

namespace Expression

mutual

/-- An expression with all its spans changed. -/
def mapSpans (change : Span → Span) : Expression → Expression
  | .literal value span => .literal value (change span)
  | .reference name span => .reference name (change span)
  | .assign name value span =>
      .assign name (value.mapSpans change) (change span)
  | .getAttribute object name span =>
      .getAttribute (object.mapSpans change) name (change span)
  | .setAttribute object name value span =>
      .setAttribute (object.mapSpans change) name (value.mapSpans change)
        (change span)
  | .unary operator operand span =>
      .unary operator (operand.mapSpans change) (change span)
  | .binary left operator right span =>
      .binary (left.mapSpans change) operator (right.mapSpans change)
        (change span)
  | .logical left operator right span =>
      .logical (left.mapSpans change) operator (right.mapSpans change)
        (change span)
  | .grouping inner span => .grouping (inner.mapSpans change) (change span)
  | .call callee arguments span =>
      .call (callee.mapSpans change) (mapSpansOfEach change arguments)
        (change span)

/-- Several expressions with all their spans changed. -/
def mapSpansOfEach (change : Span → Span) : List Expression → List Expression
  | [] => []
  | expression :: rest =>
      expression.mapSpans change :: mapSpansOfEach change rest

end

@[simp] theorem mapSpansOfEach_eq_map
    (change : Span → Span)
    (expressions : List Expression) :
    mapSpansOfEach change expressions = expressions.map (mapSpans change) := by
  induction expressions with
  | nil =>
      rfl
  | cons expression rest inductionHypothesis =>
      rw [mapSpansOfEach, inductionHypothesis, List.map_cons]

mutual

@[simp] theorem mapSpans_id : ∀ expression : Expression,
    expression.mapSpans id = expression
  | .literal _ _ => rfl
  | .reference _ _ => rfl
  | .assign _ value _ => by
      rw [mapSpans, mapSpans_id value, id]
  | .getAttribute object _ _ => by
      rw [mapSpans, mapSpans_id object, id]
  | .setAttribute object _ value _ => by
      rw [mapSpans, mapSpans_id object, mapSpans_id value, id]
  | .unary _ operand _ => by
      rw [mapSpans, mapSpans_id operand, id]
  | .binary left _ right _ => by
      rw [mapSpans, mapSpans_id left, mapSpans_id right, id]
  | .logical left _ right _ => by
      rw [mapSpans, mapSpans_id left, mapSpans_id right, id]
  | .grouping inner _ => by
      rw [mapSpans, mapSpans_id inner, id]
  | .call callee arguments _ => by
      rw [mapSpans, mapSpans_id callee, mapSpansOfEach_id arguments, id]

theorem mapSpansOfEach_id : ∀ expressions : List Expression,
    mapSpansOfEach id expressions = expressions
  | [] => rfl
  | expression :: rest => by
      rw [mapSpansOfEach, mapSpans_id expression, mapSpansOfEach_id rest]

end

@[simp] theorem level_mapSpans
    (change : Span → Span)
    (expression : Expression) :
    (expression.mapSpans change).level = expression.level := by
  cases expression <;> rfl

@[simp] theorem span_mapSpans
    (change : Span → Span)
    (expression : Expression) :
    (expression.mapSpans change).span = change expression.span := by
  cases expression <;> rfl

end Expression

namespace Statement

mutual

/-- A statement with all its spans changed. -/
def mapSpans (change : Span → Span) : Statement → Statement
  | .expression inner => .expression (inner.mapSpans change)
  | .declaration constant name initializer span =>
      .declaration constant name (initializer.mapSpans change) (change span)
  | .block body span => .block (mapSpansOfEach change body) (change span)
  | .whileLoop condition body span =>
      .whileLoop (condition.mapSpans change) (body.mapSpans change)
        (change span)
  | .conditional branches otherwise span =>
      .conditional (mapSpansOfBranches change branches)
        (mapSpansOfOtherwise change otherwise) (change span)
  | .breakLoop span => .breakLoop (change span)
  | .continueLoop span => .continueLoop (change span)
  | .returnValue value span =>
      .returnValue (value.map (Expression.mapSpans change)) (change span)
  | .function name parameters body span =>
      .function name parameters (mapSpansOfEach change body) (change span)

/-- Several statements with all their spans changed. -/
def mapSpansOfEach (change : Span → Span) : List Statement → List Statement
  | [] => []
  | statement :: rest =>
      statement.mapSpans change :: mapSpansOfEach change rest

/-- Branches with all their spans changed. -/
def mapSpansOfBranches (change : Span → Span) :
    List (Expression × Statement) →
    List (Expression × Statement)
  | [] => []
  | (condition, body) :: rest =>
      (condition.mapSpans change, body.mapSpans change) ::
        mapSpansOfBranches change rest

/-- A last resort with all its spans changed. -/
def mapSpansOfOtherwise (change : Span → Span) :
    Option Statement →
    Option Statement
  | none => none
  | some body => some (body.mapSpans change)

end

@[simp] theorem mapSpansOfEach_eq_map
    (change : Span → Span)
    (statements : List Statement) :
    mapSpansOfEach change statements = statements.map (mapSpans change) := by
  induction statements with
  | nil =>
      rfl
  | cons statement rest inductionHypothesis =>
      rw [mapSpansOfEach, inductionHypothesis, List.map_cons]

@[simp] theorem mapSpansOfBranches_eq_map
    (change : Span → Span)
    (branches : List (Expression × Statement)) :
    mapSpansOfBranches change branches =
      branches.map fun branch =>
        (branch.1.mapSpans change, branch.2.mapSpans change) := by
  induction branches with
  | nil =>
      rfl
  | cons branch rest inductionHypothesis =>
      rw [mapSpansOfBranches, inductionHypothesis, List.map_cons]

@[simp] theorem mapSpansOfOtherwise_eq_map
    (change : Span → Span)
    (otherwise : Option Statement) :
    mapSpansOfOtherwise change otherwise =
      otherwise.map (mapSpans change) := by
  cases otherwise <;> rfl

mutual

@[simp] theorem mapSpans_id : ∀ statement : Statement,
    statement.mapSpans id = statement
  | .expression inner => by
      rw [mapSpans, inner.mapSpans_id]
  | .declaration _ _ initializer _ => by
      rw [mapSpans, initializer.mapSpans_id, id]
  | .block body _ => by
      rw [mapSpans, mapSpansOfEach_id body, id]
  | .whileLoop condition body _ => by
      rw [mapSpans, condition.mapSpans_id, mapSpans_id body, id]
  | .conditional branches otherwise _ => by
      rw [mapSpans, mapSpansOfBranches_id branches,
        mapSpansOfOtherwise_id otherwise, id]
  | .breakLoop _ => rfl
  | .continueLoop _ => rfl
  | .returnValue none _ => rfl
  | .returnValue (some value) _ => by
      rw [mapSpans, Option.map_some, value.mapSpans_id, id]
  | .function _ _ body _ => by
      rw [mapSpans, mapSpansOfEach_id body, id]

theorem mapSpansOfEach_id : ∀ statements : List Statement,
    mapSpansOfEach id statements = statements
  | [] => rfl
  | statement :: rest => by
      rw [mapSpansOfEach, mapSpans_id statement, mapSpansOfEach_id rest]

theorem mapSpansOfBranches_id : ∀ branches : List (Expression × Statement),
    mapSpansOfBranches id branches = branches
  | [] => rfl
  | (condition, body) :: rest => by
      rw [mapSpansOfBranches, condition.mapSpans_id, mapSpans_id body,
        mapSpansOfBranches_id rest]

theorem mapSpansOfOtherwise_id : ∀ otherwise : Option Statement,
    mapSpansOfOtherwise id otherwise = otherwise
  | none => rfl
  | some body => by
      rw [mapSpansOfOtherwise, mapSpans_id body]

end

theorem map_mapSpans_id (statements : List Statement) :
    statements.map (mapSpans id) = statements := by
  rw [← mapSpansOfEach_eq_map, mapSpansOfEach_id]

@[simp] theorem span_mapSpans
    (change : Span → Span)
    (statement : Statement) :
    (statement.mapSpans change).span = change statement.span := by
  cases statement with
  | expression inner => exact inner.span_mapSpans change
  | _ => rfl

end Statement

/-- The span that stands in the place of all others. -/
def Span.nowhere : Span :=
  Span.emptyAt .origin ⟨"", ""⟩

/-- An expression without its spans. -/
def Expression.bare : Expression → Expression :=
  Expression.mapSpans fun _ => Span.nowhere

/-- A statement without its spans. -/
def Statement.bare : Statement → Statement :=
  Statement.mapSpans fun _ => Span.nowhere

/-- A branch without its spans. -/
def Statement.bareBranch (branch : Expression × Statement) :
    Expression × Statement :=
  (branch.1.bare, branch.2.bare)

theorem Statement.bare_conditional
    (branches : List (Expression × Statement))
    (otherwise : Option Statement)
    (span : Span) :
    (Statement.conditional branches otherwise span).bare =
      .conditional (branches.map bareBranch) (otherwise.map bare)
        Span.nowhere := by
  simp only [bare, mapSpans, mapSpansOfBranches_eq_map,
    mapSpansOfOtherwise_eq_map]
  rfl

end Scriptlet
