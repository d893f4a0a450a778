import Scriptlet.Proofs.Evaluation.Settling

namespace Scriptlet

/-!
# Running programs that say the same

Programs that rephrase each other are run with ends that go with each other.  The steps
that the first run was allowed are counted down; the second run may need more of them,
since each pair of parentheses and each nested conditional takes one.
-/

namespace Eval

variable {α β : Type}

/-! ## Single equations -/

instance : LawfulMonad Eval :=
  LawfulMonad.mk' Eval
    (fun action => by
      funext machine
      show (action machine).andThen _ = action machine
      cases action machine <;> rfl)
    (fun _ _ => rfl)
    (fun first next last => by
      funext machine
      simp only [bind_apply]
      cases first machine <;> rfl)

/-- A statement on its own ends like a sequence of nothing else. -/
theorem sequence_singleton
    (run : Statement → Eval Signal)
    (value : Option Value)
    (statement : Statement) :
    Runner.sequence run value [statement] = run statement := by
  funext machine
  simp only [Runner.sequence, bind_apply]
  cases run statement machine with
  | done signal final => cases signal <;> rfl
  | failed diagnostic final => rfl
  | exhausted => rfl

/-- A conditional tests its first branch, and goes on like one without this branch if the
condition is false. -/
theorem execute_conditional_cons
    (steps : Nat)
    (condition : Expression)
    (body : Statement)
    (branches : List (Expression × Statement))
    (otherwise : Option Statement)
    (span place : Span) :
    (Runner.execute (steps + 1)
        (.conditional ((condition, body) :: branches) otherwise span) :
      Eval Signal) =
      (do
        let value ←
          Runner.required condition.span (← Runner.evaluate steps condition)
        if value.isTrue then
          Runner.execute steps body
        else
          Runner.execute (steps + 1) (.conditional branches otherwise place)) := by
  simp only [Runner.execute, Runner.firstTrue, bind_assoc, pure_bind]
  congr 1
  funext value?
  congr 1
  funext value
  cases value.isTrue <;> rfl

/-! ## Whole runs -/

/-- That runs with the given number of steps are followed by the runs of everything that
says the same. -/
structure RunsFollowed (steps : Nat) : Prop where
  evaluate : ∀ {expression other : Expression}, expression.Rephrases other →
    FollowedBy (Option.Rel Value.Rephrases)
      (Runner.evaluate steps expression : Eval (Option Value))
      fun others => Runner.evaluate others other
  execute : ∀ {statement other : Statement}, statement.Rephrases other →
    FollowedBy (Signal.Same Value.Rephrases)
      (Runner.execute steps statement : Eval Signal)
      fun others => Runner.execute others other
  body : ∀ {body other : List Statement}, Statement.RephrasesBody body other →
    FollowedBy Signal.SameCallValue
      (Runner.sequence (Runner.execute steps) none body : Eval Signal)
      fun others => Runner.sequence (Runner.execute others) none other
  loop : ∀ {condition test : Expression} {body other : Statement},
    condition.Rephrases test → body.Rephrases other →
    FollowedBy (Signal.Same Value.Rephrases)
      (Runner.loop steps condition body : Eval Signal)
      fun others => Runner.loop others test other

namespace RunsFollowed

variable {steps : Nat}

/-- The value of an expression that has to have one. -/
theorem required
    (runs : RunsFollowed steps)
    {expression other : Expression}
    (rephrased : expression.Rephrases other) :
    FollowedBy Value.Rephrases
      (do
        Runner.required expression.span (← Runner.evaluate steps expression))
      (fun others => do
        Runner.required other.span (← Runner.evaluate others other)) := by
  refine .bind (runs.evaluate rephrased) ?_
  intro value found values
  exact .required values expression.span other.span

/-- Going on with the value of an expression that has to have one. -/
theorem andRequired
    {Result : α → β → Prop}
    {next : Value → Eval α}
    {following : Value → Nat → Eval β}
    (runs : RunsFollowed steps)
    {expression other : Expression}
    (rephrased : expression.Rephrases other)
    (goesOn : ∀ value found, value.Rephrases found →
      FollowedBy Result (next value) (following found)) :
    FollowedBy Result
      (do
        let value ←
          Runner.required expression.span (← Runner.evaluate steps expression)
        next value)
      (fun others => do
        let value ←
          Runner.required other.span (← Runner.evaluate others other)
        following value others) := by
  refine .bind (runs.evaluate rephrased) ?_
  intro value found values
  exact .bind (.required values expression.span other.span) goesOn

/-- Expressions that rephrase each other.  The induction inside is on how they do, since
parentheses that only the second one has take none of the steps of the first. -/
theorem evaluate_succ (runs : RunsFollowed steps) :
    ∀ {expression other : Expression}, expression.Rephrases other →
      FollowedBy (Option.Rel Value.Rephrases)
        (Runner.evaluate (steps + 1) expression : Eval (Option Value))
        fun others => Runner.evaluate others other
  | _, _, .groupingLeft inners place => runs.evaluate inners
  | _, _, .groupingRight inners place => .of_succ (runs.evaluate_succ inners)
  | _, _, .literal literal place => by
      have isPlain : literal.payload.isPlain = true := by
        cases literal <;> rfl
      exact .of_succ (.asValue (.makeValue (.plain isPlain)))
  | _, _, .reference name place => .of_succ (.asValue (.lookUp name place))
  | _, _, .assign name values place => by
      refine .of_succ (runs.andRequired values ?_)
      intro value found values
      exact .asValue (.assign values name place)
  | _, _, .getAttribute objects name place => by
      refine .of_succ (runs.andRequired objects ?_)
      intro value found values
      exact .asValue (.located (values.resembles.getAttribute name) place)
  | _, _, .setAttribute objects name values place => by
      refine .of_succ (runs.andRequired objects ?_)
      intro object owner objects
      refine runs.andRequired values ?_
      intro value found values
      exact .asValue (.located (objects.resembles.setAttribute values.resembles name) place)
  | _, _, .unary operator operands place => by
      refine .of_succ (runs.andRequired operands ?_)
      intro value found values
      exact .asValue (.located (values.resembles.unary operator.kind) place)
  | _, _, .binary lefts operator rights place => by
      refine .of_succ (runs.andRequired lefts ?_)
      intro left leftOther lefts
      refine runs.andRequired rights ?_
      intro right rightOther rights
      exact .asValue (.located (lefts.resembles.binary rights.resembles operator.kind) place)
  | _, _, .logical lefts operator rights place => by
      refine .of_succ (runs.andRequired lefts ?_)
      intro left leftOther lefts
      rw [lefts.resembles.isTrue_eq]
      refine .bind (.located_eq _ place) ?_
      rintro decided _ rfl
      cases decided with
      | some truth =>
          exact .asValue (.makeValue (.plain rfl))
      | none =>
          refine runs.andRequired rights ?_
          intro right rightOther rights
          rw [rights.resembles.isTrue_eq]
          exact .asValue (.makeValue (.plain rfl))
  | _, _, .call callees arguments place => by
      refine .of_succ (runs.andRequired callees ?_)
      intro callee function callees
      refine .bind (.forEach runs.required arguments.forall₂) ?_
      intro values others given
      exact .callWith runs.body callees given place

/-- Conditionals whose first branches are tested first. -/
theorem branch
    {condition test : Expression}
    {body other : Statement}
    {branches others : List (Expression × Statement)}
    {otherwise lastResort : Option Statement}
    {span place : Span}
    (runs : RunsFollowed steps)
    (conditions : condition.Rephrases test)
    (bodies : body.Rephrases other)
    (rests : FollowedBy (Signal.Same Value.Rephrases)
      (Runner.execute (steps + 1) (.conditional branches otherwise span) :
        Eval Signal)
      fun steps => Runner.execute steps (.conditional others lastResort place)) :
    FollowedBy (Signal.Same Value.Rephrases)
      (Runner.execute (steps + 1)
        (.conditional ((condition, body) :: branches) otherwise span) :
        Eval Signal)
      fun steps =>
        Runner.execute steps
          (.conditional ((test, other) :: others) lastResort place) := by
  apply FollowedBy.of_succ
  -- On both sides, what is left behind the first test is again a run of a conditional.
  rw [execute_conditional_cons _ _ _ _ _ _ span]
  simp only [execute_conditional_cons _ test other others lastResort place place]
  refine runs.andRequired conditions ?_
  intro value found values
  rw [values.resembles.isTrue_eq]
  cases value.isTrue with
  | true => exact runs.execute bodies
  | false => exact rests.succ

/-- Statements that rephrase each other.  The induction inside is on how they do, since
one conditional tests all its branches in one step. -/
theorem execute_succ (runs : RunsFollowed steps) :
    ∀ {statement other : Statement}, statement.Rephrases other →
      FollowedBy (Signal.Same Value.Rephrases)
        (Runner.execute (steps + 1) statement : Eval Signal)
        fun others => Runner.execute others other
  | _, _, .noBranch place otherPlace => .of_succ (.pure (.normal .none))
  | _, _, .branch conditions bodies rests =>
      runs.branch conditions bodies (runs.execute_succ rests)
  | _, _, .lastResortLeft bodies place => runs.execute bodies
  | _, _, .lastResortRight bodies place => .of_succ (runs.execute_succ bodies)
  | _, _, .expression inners => by
      refine .of_succ (.bind (runs.evaluate inners) ?_)
      intro value found values
      exact .pure (.normal values)
  | _, _, .declaration constant name initializers place => by
      refine .of_succ (runs.andRequired initializers ?_)
      intro value found values
      refine .bind .currentScope ?_
      rintro scope _ rfl
      refine .bind (.declareIn values scope constant name place) ?_
      intro _ _ _
      exact .pure (.normal (.some values))
  | _, _, .block bodies place => by
      refine .of_succ (.bind .currentScope ?_)
      rintro parent _ rfl
      refine .bind (.openScope _ parent) ?_
      rintro scope _ rfl
      refine .bind (.within (.sequence runs.execute bodies.forall₂ .none) scope) ?_
      intro signal found signals
      exact .pure signals.ofBlock
  | _, _, .whileLoop conditions bodies place otherPlace =>
      .of_succ (runs.loop conditions bodies)
  | _, _, .breakLoop place otherPlace => .of_succ (.pure .broke)
  | _, _, .continueLoop place otherPlace => .of_succ (.pure .continued)
  | _, _, .returnNothing place otherPlace => .of_succ (.pure (.returned .none))
  | _, _, .returnValue results place otherPlace => by
      refine .of_succ (.bind (runs.evaluate results) ?_)
      intro value found values
      exact .pure (.returned values)
  | _, _, .function name parameters bodies place => by
      refine .of_succ (.bind (.declareFunction bodies name parameters place) ?_)
      intro _ _ _
      exact .pure (.normal .none)

/-- Function bodies that rephrase each other.  A last expression and the return of its
value end with signals that differ, but give the call the same value. -/
theorem body_succ (runs : RunsFollowed steps) :
    ∀ {body other : List Statement}, Statement.RephrasesBody body other →
      ∀ {value found : Option Value}, Option.Rel Value.Rephrases value found →
        FollowedBy Signal.SameCallValue
          (Runner.sequence (Runner.execute (steps + 1)) value body : Eval Signal)
          fun others => Runner.sequence (Runner.execute others) found other
  | _, _, .nil, _, _, values => .pure values
  | _, _, .cons firsts rests, value, found, _ =>
      .sequence_cons (fun _ _ signals => signals.callValue)
        (runs.execute_succ firsts) (runs.body_succ rests) value found
  | _, _, .returnsLeft results place, _, _, _ => by
      simp only [sequence_singleton]
      refine .of_succ (.bind (runs.evaluate results) ?_)
      intro value found values
      exact .pure values
  | _, _, .returnsRight results place, _, _, _ => by
      simp only [sequence_singleton]
      refine .of_succ (.bind (runs.evaluate results) ?_)
      intro value found values
      exact .pure values

theorem loop_succ
    (runs : RunsFollowed steps)
    {condition test : Expression}
    {body other : Statement}
    (conditions : condition.Rephrases test)
    (bodies : body.Rephrases other) :
    FollowedBy (Signal.Same Value.Rephrases)
      (Runner.loop (steps + 1) condition body : Eval Signal)
      fun others => Runner.loop others test other := by
  refine .of_succ (runs.andRequired conditions ?_)
  intro value found values
  rw [values.resembles.isTrue_eq]
  cases value.isTrue with
  | false =>
      exact .pure (.normal .none)
  | true =>
      refine .bind (runs.execute bodies) ?_
      intro signal mapped signals
      cases signals with
      | normal values => exact runs.loop conditions bodies
      | broke => exact .pure (.normal .none)
      | continued => exact runs.loop conditions bodies
      | returned values => exact .pure (.returned values)

end RunsFollowed

/-- All runs are followed by the runs of what says the same. -/
theorem runsFollowed (steps : Nat) : RunsFollowed steps := by
  induction steps with
  | zero =>
      have body : ∀ {body other : List Statement},
          Statement.RephrasesBody body other →
          FollowedBy Signal.SameCallValue
            (Runner.sequence (Runner.execute 0) none body : Eval Signal)
            fun others => Runner.sequence (Runner.execute others) none other := by
        intro body other bodies
        cases bodies with
        | nil => exact .pure .none
        | cons => exact fun _ _ _ => .exhausted
        | returnsLeft => exact fun _ _ _ => .exhausted
        | returnsRight => exact fun _ _ _ => .exhausted
      exact ⟨fun _ => .exhausted, fun _ => .exhausted, body, fun _ _ => .exhausted⟩
  | succ fewer runs =>
      exact ⟨runs.evaluate_succ, runs.execute_succ, fun bodies => runs.body_succ bodies .none,
        runs.loop_succ⟩

/-- Programs that rephrase each other. -/
theorem program_followed
    (steps : Nat)
    {statements others : List Statement}
    (rephrased : Statement.RephrasesEach statements others) :
    FollowedBy (List.Forall₂ Value.Rephrases) (program steps statements)
      fun more => program more others := by
  replace rephrased := rephrased.forall₂
  induction rephrased with
  | nil => exact .pure .nil
  | cons firsts _ inductionHypothesis =>
      refine .bind ((runsFollowed steps).execute firsts) ?_
      intro signal found signals
      refine .bind inductionHypothesis ?_
      intro values rest rests
      have firstValues := forall₂_toList_of_rel signals.programValue
      exact .pure (List.rel_append firstValues rests)

end Eval

end Scriptlet
