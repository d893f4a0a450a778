import Scriptlet.Proofs.Tree.Rephrased

namespace Scriptlet

/-!
# The normal form of programs

A program in normal form has no parentheses, conditionals with at most one branch, and
function bodies that return the value of a last expression.  It rephrases the program that
it was made from.
-/

/-! ## Expressions -/

namespace Expression

mutual

/-- An expression without its parentheses. -/
def ungrouped : Expression → Expression
  | .literal value span => .literal value span
  | .reference name span => .reference name span
  | .assign name value span => .assign name value.ungrouped span
  | .getAttribute object name span => .getAttribute object.ungrouped name span
  | .setAttribute object name value span =>
      .setAttribute object.ungrouped name value.ungrouped span
  | .unary operator operand span => .unary operator operand.ungrouped span
  | .binary left operator right span =>
      .binary left.ungrouped operator right.ungrouped span
  | .logical left operator right span =>
      .logical left.ungrouped operator right.ungrouped span
  | .grouping inner _ => inner.ungrouped
  | .call callee arguments span =>
      .call callee.ungrouped (ungroupedEach arguments) span

/-- Several expressions without their parentheses. -/
def ungroupedEach : List Expression → List Expression
  | [] => []
  | expression :: rest => expression.ungrouped :: ungroupedEach rest

end

mutual

theorem rephrases_ungrouped : ∀ expression : Expression,
    expression.Rephrases expression.ungrouped
  | .literal value span => .literal value span
  | .reference name span => .reference name span
  | .assign name value span => .assign name (rephrases_ungrouped value) span
  | .getAttribute object name span =>
      .getAttribute (rephrases_ungrouped object) name span
  | .setAttribute object name value span =>
      .setAttribute (rephrases_ungrouped object) name (rephrases_ungrouped value) span
  | .unary operator operand span =>
      .unary operator (rephrases_ungrouped operand) span
  | .binary left operator right span =>
      .binary (rephrases_ungrouped left) operator (rephrases_ungrouped right) span
  | .logical left operator right span =>
      .logical (rephrases_ungrouped left) operator (rephrases_ungrouped right) span
  | .grouping inner span => .groupingLeft (rephrases_ungrouped inner) span
  | .call callee arguments span =>
      .call (rephrases_ungrouped callee) (rephrases_ungroupedEach arguments) span

theorem rephrases_ungroupedEach : ∀ expressions : List Expression,
    RephrasesEach expressions (ungroupedEach expressions)
  | [] => .nil
  | expression :: rest =>
      .cons (rephrases_ungrouped expression) (rephrases_ungroupedEach rest)

end

mutual

/-- Whether an expression has no parentheses. -/
def Ungrouped : Expression → Prop
  | .literal _ _ => True
  | .reference _ _ => True
  | .assign _ value _ => value.Ungrouped
  | .getAttribute object _ _ => object.Ungrouped
  | .setAttribute object _ value _ => object.Ungrouped ∧ value.Ungrouped
  | .unary _ operand _ => operand.Ungrouped
  | .binary left _ right _ => left.Ungrouped ∧ right.Ungrouped
  | .logical left _ right _ => left.Ungrouped ∧ right.Ungrouped
  | .grouping _ _ => False
  | .call callee arguments _ => callee.Ungrouped ∧ AllUngrouped arguments

/-- Whether no expression of a list has parentheses. -/
def AllUngrouped : List Expression → Prop
  | [] => True
  | expression :: rest => expression.Ungrouped ∧ AllUngrouped rest

end

mutual

theorem ungrouped_ungrouped : ∀ expression : Expression, expression.ungrouped.Ungrouped
  | .literal _ _ => trivial
  | .reference _ _ => trivial
  | .assign _ value _ => ungrouped_ungrouped value
  | .getAttribute object _ _ => ungrouped_ungrouped object
  | .setAttribute object _ value _ =>
      ⟨ungrouped_ungrouped object, ungrouped_ungrouped value⟩
  | .unary _ operand _ => ungrouped_ungrouped operand
  | .binary left _ right _ => ⟨ungrouped_ungrouped left, ungrouped_ungrouped right⟩
  | .logical left _ right _ => ⟨ungrouped_ungrouped left, ungrouped_ungrouped right⟩
  | .grouping inner _ => ungrouped_ungrouped inner
  | .call callee arguments _ =>
      ⟨ungrouped_ungrouped callee, allUngrouped_ungroupedEach arguments⟩

theorem allUngrouped_ungroupedEach : ∀ expressions : List Expression,
    AllUngrouped (ungroupedEach expressions)
  | [] => trivial
  | expression :: rest =>
      ⟨ungrouped_ungrouped expression, allUngrouped_ungroupedEach rest⟩

end

end Expression

/-! ## Statements -/

namespace Statement

/-- A conditional with at most one branch: the further branches, with the last resort,
make up a conditional that is its last resort. -/
def chained (otherwise : Option Statement) (span : Span) :
    List (Expression × Statement) →
    Statement
  | [] => .conditional [] otherwise span
  | [branch] => .conditional [branch] otherwise span
  | branch :: next :: rest =>
      .conditional [branch] (some (chained otherwise span (next :: rest))) span

/-- An expression becomes the return of its value. -/
def returning : Statement → Statement
  | .expression inner => .returnValue (some inner) inner.span
  | statement => statement

/-- A function body that returns the value of a last expression. -/
def returningLast : List Statement → List Statement
  | [] => []
  | [last] => [last.returning]
  | statement :: next :: rest => statement :: returningLast (next :: rest)

mutual

/-- The normal form of a statement. -/
def normalized : Statement → Statement
  | .expression inner => .expression inner.ungrouped
  | .declaration constant name initializer span =>
      .declaration constant name initializer.ungrouped span
  | .block body span => .block (normalizedEach body) span
  | .whileLoop condition body span =>
      .whileLoop condition.ungrouped body.normalized span
  | .conditional branches otherwise span =>
      chained (normalizedOtherwise otherwise) span (normalizedBranches branches)
  | .breakLoop span => .breakLoop span
  | .continueLoop span => .continueLoop span
  | .returnValue value span => .returnValue (value.map Expression.ungrouped) span
  | .function name parameters body span =>
      .function name parameters (returningLast (normalizedEach body)) span

/-- The normal form of several statements. -/
def normalizedEach : List Statement → List Statement
  | [] => []
  | statement :: rest => statement.normalized :: normalizedEach rest

/-- The normal form of branches. -/
def normalizedBranches :
    List (Expression × Statement) →
    List (Expression × Statement)
  | [] => []
  | (condition, body) :: rest =>
      (condition.ungrouped, body.normalized) :: normalizedBranches rest

/-- The normal form of a last resort. -/
def normalizedOtherwise : Option Statement → Option Statement
  | none => none
  | some body => some body.normalized

end

theorem returning_chained
    (otherwise : Option Statement)
    (span : Span)
    (branches : List (Expression × Statement)) :
    (chained otherwise span branches).returning = chained otherwise span branches := by
  match branches with
  | [] => rfl
  | [_] => rfl
  | _ :: _ :: _ => rfl

/-- The last statement of a function body can be turned into a return. -/
theorem RephrasesBody.returning
    {last : Statement}
    (rephrased : last.Rephrases last.normalized) :
    RephrasesBody [last] [last.normalized.returning] := by
  cases last with
  | expression inner =>
      exact .returnsRight inner.rephrases_ungrouped inner.ungrouped.span
  | conditional branches otherwise span =>
      rw [normalized, returning_chained]
      exact .cons rephrased .nil
  | _ =>
      exact .cons rephrased .nil

mutual

/-- A statement and its normal form rephrase each other. -/
theorem rephrases_normalized : ∀ statement : Statement,
    statement.Rephrases statement.normalized
  | .expression inner => .expression inner.rephrases_ungrouped
  | .declaration constant name initializer span =>
      .declaration constant name initializer.rephrases_ungrouped span
  | .block body span => .block (rephrases_normalizedEach body) span
  | .whileLoop condition body span =>
      .whileLoop condition.rephrases_ungrouped (rephrases_normalized body) span span
  | .conditional branches otherwise span =>
      rephrases_chained (rephrases_normalizedOtherwise span otherwise) branches
  | .breakLoop span => .breakLoop span span
  | .continueLoop span => .continueLoop span span
  | .returnValue none span => .returnNothing span span
  | .returnValue (some value) span =>
      .returnValue value.rephrases_ungrouped span span
  | .function name parameters body span =>
      .function name parameters (rephrases_returningLast body) span

theorem rephrases_normalizedEach : ∀ statements : List Statement,
    RephrasesEach statements (normalizedEach statements)
  | [] => .nil
  | statement :: rest =>
      .cons (rephrases_normalized statement) (rephrases_normalizedEach rest)

theorem rephrases_chained
    {otherwise lastResort : Option Statement}
    {span : Span}
    (lastResorts : Rephrases (.conditional [] otherwise span)
      (.conditional [] lastResort span)) :
    ∀ branches : List (Expression × Statement),
      Rephrases (.conditional branches otherwise span)
        (chained lastResort span (normalizedBranches branches))
  | [] => lastResorts
  | [(condition, body)] =>
      .branch condition.rephrases_ungrouped (rephrases_normalized body) lastResorts
  | (condition, body) :: next :: rest =>
      .branch condition.rephrases_ungrouped (rephrases_normalized body)
        (.lastResortRight (rephrases_chained lastResorts (next :: rest)) span)

theorem rephrases_normalizedOtherwise (span : Span) :
    ∀ otherwise : Option Statement,
      Rephrases (.conditional [] otherwise span)
        (.conditional [] (normalizedOtherwise otherwise) span)
  | none => .noBranch span span
  | some body =>
      .lastResortLeft (.lastResortRight (rephrases_normalized body) span) span

theorem rephrases_returningLast : ∀ body : List Statement,
    RephrasesBody body (returningLast (normalizedEach body))
  | [] => .nil
  | [last] => .returning (rephrases_normalized last)
  | statement :: next :: rest =>
      .cons (rephrases_normalized statement) (rephrases_returningLast (next :: rest))

end

/-- A function with two branches and a last expression in its body. -/
example
    (name : String)
    (first second : Expression)
    (body other last : Statement)
    (span : Span) :
    (Statement.function name []
        [.conditional [(first, body), (second, other)] (some last) span,
          .expression (.grouping first span)]
        span).normalized =
      .function name []
        [.conditional [(first.ungrouped, body.normalized)]
            (some (.conditional [(second.ungrouped, other.normalized)]
              (some last.normalized) span))
            span,
          .returnValue (some first.ungrouped) first.ungrouped.span]
        span :=
  rfl

/-! ## What a normal form is -/

mutual

/-- Whether a statement has no parentheses, no conditional with several branches and no
function body that ends with an expression. -/
def Normal : Statement → Prop
  | .expression inner => inner.Ungrouped
  | .declaration _ _ initializer _ => initializer.Ungrouped
  | .block body _ => AllNormal body
  | .whileLoop condition body _ => condition.Ungrouped ∧ body.Normal
  | .conditional branches otherwise _ =>
      branches.length ≤ 1 ∧ BranchesNormal branches ∧ OtherwiseNormal otherwise
  | .breakLoop _ => True
  | .continueLoop _ => True
  | .returnValue none _ => True
  | .returnValue (some value) _ => value.Ungrouped
  | .function _ _ body _ =>
      AllNormal body ∧ ∀ inner, body.getLast? ≠ some (.expression inner)

/-- Whether several statements are in normal form. -/
def AllNormal : List Statement → Prop
  | [] => True
  | statement :: rest => statement.Normal ∧ AllNormal rest

/-- Whether branches are in normal form. -/
def BranchesNormal : List (Expression × Statement) → Prop
  | [] => True
  | (condition, body) :: rest =>
      condition.Ungrouped ∧ body.Normal ∧ BranchesNormal rest

/-- Whether a last resort is in normal form. -/
def OtherwiseNormal : Option Statement → Prop
  | none => True
  | some body => body.Normal

end

theorem normal_chained
    {otherwise : Option Statement}
    (lastResort : OtherwiseNormal otherwise)
    (span : Span) :
    ∀ {branches : List (Expression × Statement)}, BranchesNormal branches →
      (chained otherwise span branches).Normal
  | [], noBranch => ⟨Nat.zero_le 1, noBranch, lastResort⟩
  | [_], branch => ⟨Nat.le_refl 1, branch, lastResort⟩
  | _ :: _ :: _, ⟨condition, body, rest⟩ =>
      ⟨Nat.le_refl 1, ⟨condition, body, trivial⟩, normal_chained lastResort span rest⟩

theorem normal_returning {statement : Statement} (isNormal : statement.Normal) :
    statement.returning.Normal := by
  cases statement <;> exact isNormal

theorem returning_ne_expression (statement : Statement) (inner : Expression) :
    statement.returning ≠ .expression inner := by
  cases statement <;> exact nofun

theorem allNormal_returningLast : ∀ {body : List Statement}, AllNormal body →
    AllNormal (returningLast body)
  | [], nothing => nothing
  | [_], ⟨last, nothing⟩ => ⟨normal_returning last, nothing⟩
  | _ :: _ :: _, ⟨first, rest⟩ => ⟨first, allNormal_returningLast rest⟩

theorem getLast?_returningLast : ∀ body : List Statement,
    (returningLast body).getLast? = body.getLast?.map returning
  | [] => rfl
  | [_] => rfl
  | statement :: next :: rest => by
      rw [returningLast, List.getLast?_cons, getLast?_returningLast (next :: rest),
        List.getLast?_cons_cons, List.getLast?_cons]
      rfl

theorem normal_function
    {body : List Statement}
    (isNormal : AllNormal body)
    (name : String)
    (parameters : List String)
    (span : Span) :
    (Statement.function name parameters (returningLast body) span).Normal := by
  refine ⟨allNormal_returningLast isNormal, ?_⟩
  intro inner isLast
  rw [getLast?_returningLast, Option.map_eq_some_iff] at isLast
  obtain ⟨last, _, isExpression⟩ := isLast
  exact returning_ne_expression last inner isExpression

mutual

/-- The normal form of a statement is one. -/
theorem normal_normalized : ∀ statement : Statement, statement.normalized.Normal
  | .expression inner => inner.ungrouped_ungrouped
  | .declaration _ _ initializer _ => initializer.ungrouped_ungrouped
  | .block body _ => allNormal_normalizedEach body
  | .whileLoop condition body _ =>
      ⟨condition.ungrouped_ungrouped, normal_normalized body⟩
  | .conditional branches otherwise span =>
      normal_chained (otherwiseNormal_normalized otherwise) span
        (branchesNormal_normalized branches)
  | .breakLoop _ => trivial
  | .continueLoop _ => trivial
  | .returnValue none _ => trivial
  | .returnValue (some value) _ => value.ungrouped_ungrouped
  | .function name parameters body span =>
      normal_function (allNormal_normalizedEach body) name parameters span

theorem allNormal_normalizedEach : ∀ statements : List Statement,
    AllNormal (normalizedEach statements)
  | [] => trivial
  | statement :: rest => ⟨normal_normalized statement, allNormal_normalizedEach rest⟩

theorem branchesNormal_normalized : ∀ branches : List (Expression × Statement),
    BranchesNormal (normalizedBranches branches)
  | [] => trivial
  | (condition, body) :: rest =>
      ⟨condition.ungrouped_ungrouped, normal_normalized body,
        branchesNormal_normalized rest⟩

theorem otherwiseNormal_normalized : ∀ otherwise : Option Statement,
    OtherwiseNormal (normalizedOtherwise otherwise)
  | none => trivial
  | some body => normal_normalized body

end

end Statement

end Scriptlet
