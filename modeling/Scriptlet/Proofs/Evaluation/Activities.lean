import Mathlib.Logic.Relation
import Scriptlet.Proofs.Evaluation.Ending
import Scriptlet.Proofs.Evaluation.Safety

namespace Scriptlet

/-!
# The runs inside a run

Running a statement starts further runs: of its expressions and the statements inside
it, of the rounds of its loops, and of the bodies of the functions that it calls.  Each
of them is an activity.  An activity knows its place, which is whether it belongs to the
body of a function, and the round of the innermost loop around it in that body.

What one activity starts is stated first.  Then an invariant of activities is shown to
be kept from an activity to those that it starts, and so by all activities of a run.
-/

/-! ## Places -/

/-- A round of a loop, with the machine that it starts on.  The rounds behind it may use
the given number of steps. -/
structure Round where
  steps : Nat
  condition : Expression
  body : Statement
  start : Machine

namespace Round

/-- The loop from this round on. -/
def run (round : Round) : Outcome Signal :=
  Eval.loop (round.steps + 1) round.condition round.body round.start

/-- Whether the loop takes a jump out of the body of this round, which left a store
behind: the loop ends normally, or it goes on with its next round. -/
def Takes (round : Round) (signal : Signal) (store : Store) : Prop :=
  match signal with
  | .broke =>
      round.run = .done (.normal none) ⟨store, round.start.current⟩
  | .continued =>
      round.run =
        Eval.loop round.steps round.condition round.body
          ⟨store, round.start.current⟩
  | .normal _ => False
  | .returned _ => False

end Round

/-- Whether a signal is for a loop. -/
def Signal.isForLoop : Signal → Bool
  | .broke => true
  | .continued => true
  | .normal _ => false
  | .returned _ => false

/-- Where an activity belongs to. -/
structure Place where
  /-- Whether it belongs to the body of a function. -/
  inFunction : Bool
  /-- The round of the innermost loop around it in the same body. -/
  round? : Option Round

namespace Place

/-- The place of the statements of a program. -/
def ofProgram : Place :=
  ⟨false, none⟩

/-- The place of the body of a function that is called. -/
def ofCall : Place :=
  ⟨true, none⟩

/-- Whether there is a loop around in the same body. -/
def inLoop (place : Place) : Bool :=
  place.round?.isSome

/-- The place of the body of a loop. -/
def ofRound (place : Place) (round : Round) : Place :=
  { place with round? := some round }

end Place

/-! ## Activities -/

/-- What an activity runs. -/
inductive Task where
  | expression (expression : Expression)
  | statement (statement : Statement)
  /-- The rounds of a loop. -/
  | loop (condition : Expression) (body : Statement)
  /-- The body of a function that is called. -/
  | body (statements : List Statement)

/-- How a task is run; an expression ends normally with its value. -/
def Task.run (steps : Nat) : Task → Eval Signal
  | .expression inner => do
      let value ← Eval.evaluate steps inner
      pure (.normal value)
  | .statement inner => Eval.execute steps inner
  | .loop condition repeated => Eval.loop steps condition repeated
  | .body statements => Runner.sequence (Eval.execute steps) none statements

/-- A run of a task at its place. -/
structure Activity where
  place : Place
  steps : Nat
  task : Task
  machine : Machine

/-- How an activity ends. -/
def Activity.outcome (activity : Activity) : Outcome Signal :=
  activity.task.run activity.steps activity.machine

/-! ## What an activity starts -/

/-- The part of an expression that is evaluated first. -/
def Expression.first? : Expression → Option Expression
  | .literal _ _ => none
  | .reference _ _ => none
  | .assign _ right _ => some right
  | .getAttribute object _ _ => some object
  | .setAttribute object _ _ _ => some object
  | .unary _ operand _ => some operand
  | .binary left _ _ _ => some left
  | .logical left _ _ _ => some left
  | .grouping inner _ => some inner
  | .call callee _ _ => some callee

/-- The operand that is evaluated after the first one, given the value of that one. -/
def Expression.second? (value : Value) : Expression → Option Expression
  | .setAttribute _ _ right _ => some right
  | .binary _ _ right _ => some right
  | .logical _ operator right _ =>
      match Runner.shortCut? operator.kind value.isTrue with
      | .ok none => some right
      | _ => none
  | _ => none

/-- The expression that a statement evaluates before it does anything else. -/
def Statement.value? : Statement → Option Expression
  | .expression inner => some inner
  | .declaration _ _ initializer _ => some initializer
  | .returnValue value _ => value
  | _ => none

namespace Eval

/-- The value of an expression that has to have one. -/
def valueOf (steps : Nat) (expression : Expression) : Eval Value := do
  Runner.required expression.span (← Eval.evaluate steps expression)

/-- What a condition is found to be. -/
def truthOf (steps : Nat) (condition : Expression) : Eval Bool := do
  let value ←
    Runner.required condition.span (← Eval.evaluate steps condition)
  pure value.isTrue

end Eval

/-- The machine in the new scope of a block. -/
def Machine.enterBlock (machine : Machine) (span : Span) : Machine :=
  ⟨machine.store.openScope (.block span.line span.fileName)
      (some machine.current),
    machine.store.nextId⟩

/-- The activities that an activity starts itself, each on the machine that those
before it have left.  There is one rule for each place where a run needs the result of
another one. -/
inductive Starts : Activity → Activity → Prop where
  /-- An expression evaluates its first part. -/
  | first
      (isFirst : expression.first? = some part) :
      Starts ⟨place, steps + 1, .expression expression, machine⟩
        ⟨place, steps, .expression part, machine⟩
  /-- An expression evaluates its second operand. -/
  | second
      (isFirst : expression.first? = some part)
      (isDone : Eval.valueOf steps part machine = .done value later)
      (isSecond : expression.second? value = some operand) :
      Starts ⟨place, steps + 1, .expression expression, machine⟩
        ⟨place, steps, .expression operand, later⟩
  /-- A call evaluates an argument. -/
  | argument
      (isCallee : Eval.valueOf steps callee machine = .done function later)
      (areBefore :
        Runner.forEach (Eval.valueOf steps) before later = .done values last) :
      Starts
        ⟨place, steps + 1,
          .expression (.call callee (before ++ argument :: behind) span), machine⟩
        ⟨place, steps, .expression argument, last⟩
  /-- A call runs the body of the function, in a scope of its own. -/
  | call
      (isCallee : Eval.valueOf steps callee machine = .done function later)
      (isFunction : function.payload = .function declaration outer)
      (areArguments :
        Runner.forEach (Eval.valueOf steps) arguments later = .done values last)
      (fits : Runner.arityFault? declaration.parameters.length values.length =
        none)
      (isEntered :
        Eval.enterCall declaration outer values last = .done scope entered) :
      Starts
        ⟨place, steps + 1, .expression (.call callee arguments span), machine⟩
        ⟨.ofCall, steps, .body declaration.body, ⟨entered.store, scope⟩⟩
  /-- A body runs a statement. -/
  | ofBody
      (isDone : Runner.sequence (Eval.execute steps) none before machine =
        .done (.normal value) later) :
      Starts ⟨place, steps, .body (before ++ statement :: behind), machine⟩
        ⟨place, steps, .statement statement, later⟩
  /-- A statement evaluates its expression. -/
  | value
      (isValue : statement.value? = some expression) :
      Starts ⟨place, steps + 1, .statement statement, machine⟩
        ⟨place, steps, .expression expression, machine⟩
  /-- A block runs a statement. -/
  | ofBlock
      (isDone : Runner.sequence (Eval.execute steps) none before
        (machine.enterBlock span) = .done (.normal value) later) :
      Starts
        ⟨place, steps + 1, .statement (.block (before ++ statement :: behind) span),
          machine⟩
        ⟨place, steps, .statement statement, later⟩
  /-- A conditional evaluates a condition. -/
  | condition
      (areFalse :
        Runner.firstTrue (Eval.truthOf steps) before machine = .done none later) :
      Starts
        ⟨place, steps + 1,
          .statement
            (.conditional (before ++ (condition, body) :: behind) otherwise span),
          machine⟩
        ⟨place, steps, .expression condition, later⟩
  /-- A conditional runs the statement that it chooses. -/
  | branch
      (isChosen :
        Runner.firstTrue (Eval.truthOf steps) branches machine =
          .done chosen later)
      (isBody : chosen.or otherwise = some body)
      (span : Span) :
      Starts
        ⟨place, steps + 1, .statement (.conditional branches otherwise span),
          machine⟩
        ⟨place, steps, .statement body, later⟩
  /-- A loop starts with its first round. -/
  | loop :
      Starts
        ⟨place, steps + 1, .statement (.whileLoop condition body span), machine⟩
        ⟨place, steps, .loop condition body, machine⟩
  /-- A round evaluates the condition. -/
  | test :
      Starts ⟨place, steps + 1, .loop condition body, machine⟩
        ⟨place, steps, .expression condition, machine⟩
  /-- A round runs the body of the loop. -/
  | round
      (isDone : Eval.valueOf steps condition machine = .done value later)
      (isTrue : value.isTrue = true) :
      Starts ⟨place, steps + 1, .loop condition body, machine⟩
        ⟨place.ofRound ⟨steps, condition, body, machine⟩, steps, .statement body,
          later⟩
  /-- A loop goes on with its next round. -/
  | nextRound
      (isDone : Eval.valueOf steps condition machine = .done value later)
      (isTrue : value.isTrue = true)
      (ended : Eval.execute steps body later = .done signal last)
      (goesOn : signal = .continued ∨ ∃ value, signal = .normal value) :
      Starts ⟨place, steps + 1, .loop condition body, machine⟩
        ⟨place, steps, .loop condition body, last⟩

/-! ## What a jump does to the statements around it -/

namespace Eval

theorem andValueOf_apply
    (steps : Nat)
    (expression : Expression)
    (next : Value → Eval α)
    (machine : Machine) :
    (do
      let value ←
        Runner.required expression.span (← Eval.evaluate steps expression)
      next value : Eval α) machine =
      (valueOf steps expression machine).andThen next := by
  simp only [valueOf, bind_apply]
  cases (Eval.evaluate steps expression : Eval _) machine with
  | done value later => rfl
  | failed diagnostic later => rfl
  | exhausted => rfl

theorem current_of_settledBy
    {Result : α → β → Prop}
    {value : α}
    {current : ScopeId}
    {final : Machine}
    {second : Outcome β}
    (settled : (Outcome.done value final).SettledBy current Result second) :
    final.current = current := by
  cases settled with
  | done _ returned => exact returned

/-- A statement ends in the scope where it started. -/
theorem current_of_execute
    {steps : Nat}
    {statement : Statement}
    {signal : Signal}
    {machine final : Machine}
    (isDone : Eval.execute steps statement machine = .done signal final) :
    final.current = machine.current := by
  have related : (execute steps statement machine).SettledBy _ _ _ :=
    (settlement.runsRelated (settlement_comparable (Nat.le_refl steps))).execute
      statement () machine
  rw [isDone] at related
  exact current_of_settledBy related

theorem current_of_valueOf
    {steps : Nat}
    {expression : Expression}
    {value : Value}
    {machine final : Machine}
    (isDone : valueOf steps expression machine = .done value final) :
    final.current = machine.current := by
  have related : (valueOf steps expression machine).SettledBy _ _ _ :=
    (settlement.runsRelated (settlement_comparable (Nat.le_refl steps))).required
      expression () machine
  rw [isDone] at related
  exact current_of_settledBy related

end Eval

theorem Runner.sequence_append
    {run : Statement → Eval Signal}
    {before : List Statement}
    {last value : Option Value}
    {machine later : Machine}
    (isDone : sequence run last before machine = .done (.normal value) later)
    (behind : List Statement) :
    sequence run last (before ++ behind) machine =
      sequence run value behind later := by
  induction before generalizing last machine with
  | nil =>
      cases isDone
      rfl
  | cons first rest inductionHypothesis =>
      obtain ⟨signal, next, ran, isDone⟩ := Outcome.andThen_eq_done isDone
      simp only [List.cons_append, sequence, Eval.bind_apply, ran,
        Outcome.done_andThen]
      cases signal with
      | normal found => exact inductionHypothesis isDone
      | broke => cases isDone
      | continued => cases isDone
      | returned found => cases isDone

/-- Statements end with the jump of the first one that jumps. -/
theorem Runner.sequence_of_jump
    {run : Statement → Eval Signal}
    {before : List Statement}
    {statement : Statement}
    {last value : Option Value}
    {signal : Signal}
    {machine later final : Machine}
    (isDone : sequence run last before machine = .done (.normal value) later)
    (jumps : run statement later = .done signal final)
    (isForLoop : signal.isForLoop = true)
    (behind : List Statement) :
    sequence run last (before ++ statement :: behind) machine =
      .done signal final := by
  rw [sequence_append isDone]
  simp only [sequence, Eval.bind_apply, jumps, Outcome.done_andThen]
  cases signal with
  | broke => rfl
  | continued => rfl
  | normal found => cases isForLoop
  | returned found => cases isForLoop

theorem Signal.ofBlock_of_isForLoop
    {signal : Signal}
    (isForLoop : signal.isForLoop = true) :
    signal.ofBlock = signal := by
  cases signal with
  | normal value => cases isForLoop
  | broke => rfl
  | continued => rfl
  | returned value => rfl

/-- A block ends with the jump of a statement in it, and its scope is left. -/
theorem Runner.execute_block_of_jump
    {steps : Nat}
    {before : List Statement}
    {statement : Statement}
    {span : Span}
    {value : Option Value}
    {signal : Signal}
    {machine later final : Machine}
    (isDone : sequence (Eval.execute steps) none before
      (machine.enterBlock span) = .done (.normal value) later)
    (jumps : Eval.execute steps statement later = .done signal final)
    (isForLoop : signal.isForLoop = true)
    (behind : List Statement) :
    Eval.execute (steps + 1) (.block (before ++ statement :: behind) span) machine =
      .done signal ⟨final.store, machine.current⟩ := by
  have ended := sequence_of_jump isDone jumps isForLoop behind
  have whole :
      Eval.execute (steps + 1) (.block (before ++ statement :: behind) span) machine =
        ((sequence (Eval.execute steps) none (before ++ statement :: behind)
          (machine.enterBlock span)).mapMachine fun last =>
            { last with current := machine.current }).andThen
          fun signal => pure signal.ofBlock :=
    rfl
  rw [whole, ended]
  exact congrArg (Outcome.done · _) (Signal.ofBlock_of_isForLoop isForLoop)

/-- A conditional does what the statement does that it chooses. -/
theorem Runner.execute_conditional
    {steps : Nat}
    {branches : List (Expression × Statement)}
    {otherwise chosen : Option Statement}
    {body : Statement}
    {machine later : Machine}
    (isChosen : firstTrue (Eval.truthOf steps) branches machine =
      .done chosen later)
    (isBody : chosen.or otherwise = some body)
    (span : Span) :
    Eval.execute (steps + 1) (.conditional branches otherwise span) machine =
      Eval.execute steps body later := by
  show (firstTrue (Eval.truthOf steps) branches machine).andThen _ = _
  rw [isChosen, Outcome.done_andThen, isBody]

/-- A loop whose condition is true goes on as its body tells. -/
theorem Eval.loop_of_true
    {steps : Nat}
    {condition : Expression}
    {value : Value}
    {machine later : Machine}
    (isDone : valueOf steps condition machine = .done value later)
    (isTrue : value.isTrue = true)
    (body : Statement) :
    loop (steps + 1) condition body machine =
      (execute steps body later).andThen fun signal =>
        match signal with
        | .broke => pure (.normal none)
        | .returned result => pure (.returned result)
        | .continued => loop steps condition body
        | .normal _ => loop steps condition body := by
  refine (andValueOf_apply steps condition _ machine).trans ?_
  rw [isDone, Outcome.done_andThen, if_pos isTrue]
  rfl

/-- The jump of the body of a loop is taken by the loop. -/
theorem Round.takes
    {steps : Nat}
    {condition : Expression}
    {body : Statement}
    {value : Value}
    {signal : Signal}
    {machine later final : Machine}
    (isDone : Eval.valueOf steps condition machine = .done value later)
    (isTrue : value.isTrue = true)
    (jumps : Eval.execute steps body later = .done signal final)
    (isForLoop : signal.isForLoop = true) :
    Takes ⟨steps, condition, body, machine⟩ signal final.store := by
  have goesOn := Eval.loop_of_true isDone isTrue body
  rw [jumps, Outcome.done_andThen] at goesOn
  have sameScope : Machine.mk final.store machine.current = final := by
    rw [← Eval.current_of_valueOf isDone, ← Eval.current_of_execute jumps]
  cases signal with
  | broke => exact goesOn.trans (congrArg (Outcome.done _) sameScope.symm)
  | continued => exact goesOn.trans (congrArg (Eval.loop _ _ _) sameScope.symm)
  | normal found => cases isForLoop
  | returned found => cases isForLoop

/-! ## Parts that fit their place -/

theorem Expression.Levelled.first
    {expression part : Expression}
    (levelled : expression.Levelled)
    (isFirst : expression.first? = some part) :
    part.Levelled := by
  cases expression with
  | literal | reference => cases isFirst
  | assign | grouping =>
      cases isFirst
      exact levelled
  | getAttribute =>
      cases isFirst
      exact levelled.2
  | setAttribute | call =>
      cases isFirst
      exact levelled.1.2
  | unary =>
      cases isFirst
      exact levelled.2.2
  | binary | logical =>
      cases isFirst
      obtain ⟨_, _, _, ⟨_, leftLevelled⟩, _⟩ := levelled
      exact leftLevelled

theorem Expression.Levelled.second
    {expression operand : Expression}
    {value : Value}
    (levelled : expression.Levelled)
    (isSecond : expression.second? value = some operand) :
    operand.Levelled := by
  cases expression with
  | setAttribute =>
      cases isSecond
      exact levelled.2
  | binary =>
      cases isSecond
      obtain ⟨_, _, _, _, _, rightLevelled⟩ := levelled
      exact rightLevelled
  | logical =>
      obtain ⟨_, _, _, _, _, rightLevelled⟩ := levelled
      simp only [second?] at isSecond
      split at isSecond
      · cases isSecond
        exact rightLevelled
      · cases isSecond
  | _ => cases isSecond

theorem Statement.Proper.value
    {inLoop inFunction : Bool}
    {statement : Statement}
    {expression : Expression}
    (proper : statement.Proper inLoop inFunction)
    (isValue : statement.value? = some expression) :
    expression.Levelled := by
  cases statement with
  | expression =>
      cases isValue
      exact proper.expression
  | declaration =>
      cases isValue
      exact proper.declaration
  | returnValue => exact proper.returnValue.2 expression isValue
  | _ => cases isValue

/-- Whether a task fits its place. -/
def Task.Proper (place : Place) : Task → Prop
  | .expression inner => inner.Levelled
  | .statement inner => inner.Proper place.inLoop place.inFunction
  | .loop condition repeated =>
      condition.Levelled ∧ repeated.Proper true place.inFunction
  | .body statements =>
      place = .ofCall ∧ Statement.BodyProper false true statements

/-- A task that fits its place ends as it may there. -/
theorem Task.Proper.safe
    {place : Place}
    {task : Task}
    (proper : task.Proper place)
    (steps : Nat) :
    Eval.Safe (Signal.Proper place.inLoop place.inFunction) (task.run steps) := by
  have runs := runsSafely steps
  cases task with
  | expression inner =>
      refine (runs.evaluate proper).bind ?_
      intro value isProper
      exact .pure isProper
  | statement inner =>
      exact runs.execute proper
  | loop condition repeated =>
      exact (runs.loop proper.1 proper.2).imp fun _ fits => fits.inside
  | body statements =>
      obtain ⟨rfl, bodyProper⟩ := proper
      exact .sequence
        (fun statement isIn => runs.execute (bodyProper statement isIn))
        properValue_none

theorem Signal.Proper.isForLoop_eq_false
    {inFunction : Bool}
    {signal : Signal}
    (fits : signal.Proper false inFunction) :
    signal.isForLoop = false := by
  cases signal with
  | normal value => rfl
  | broke => cases fits
  | continued => cases fits
  | returned value => rfl

namespace Eval

variable {steps : Nat} {machine final : Machine}

theorem ends_valueOf
    {expression : Expression}
    {value : Value}
    (proper : machine.store.Proper)
    (levelled : expression.Levelled)
    (isDone : valueOf steps expression machine = .done value final) :
    final.store.Proper ∧ value.Proper :=
  ((runsSafely steps).required levelled).ends proper isDone

theorem ends_execute
    {inLoop inFunction : Bool}
    {statement : Statement}
    {signal : Signal}
    (proper : machine.store.Proper)
    (statementProper : statement.Proper inLoop inFunction)
    (isDone : execute steps statement machine = .done signal final) :
    final.store.Proper :=
  (((runsSafely steps).execute statementProper).ends proper isDone).1

theorem ends_forEach
    {expressions : List Expression}
    {values : List Value}
    (proper : machine.store.Proper)
    (levelled : ∀ expression ∈ expressions, expression.Levelled)
    (isDone : Runner.forEach (valueOf steps) expressions machine =
      .done values final) :
    final.store.Proper ∧ ∀ value ∈ values, value.Proper := by
  have safe := Ensures.forEach fun expression isIn =>
    (runsSafely steps).required (levelled expression isIn)
  exact safe.ends proper isDone

theorem ends_sequence
    {inLoop inFunction : Bool}
    {statements : List Statement}
    {signal : Signal}
    (proper : machine.store.Proper)
    (bodyProper : Statement.BodyProper inLoop inFunction statements)
    (isDone : Runner.sequence (execute steps) none statements machine =
      .done signal final) :
    final.store.Proper := by
  have safe := Ensures.sequence
    (fun statement isIn => (runsSafely steps).execute (bodyProper statement isIn))
    properValue_none
  exact (safe.ends proper isDone).1

theorem ends_firstTrue
    {branches : List (Expression × Statement)}
    {chosen : Option Statement}
    (proper : machine.store.Proper)
    (levelled : ∀ branch ∈ branches, branch.1.Levelled)
    (isDone : Runner.firstTrue (truthOf steps) branches machine =
      .done chosen final) :
    final.store.Proper ∧
      ∀ body, chosen = some body → ∃ branch ∈ branches, branch.2 = body := by
  have safe := Ensures.firstTrue fun branch isBranch =>
    show Safe _ (truthOf steps branch.1) from
      (runsSafely steps).truth (levelled branch isBranch)
  exact safe.ends proper isDone

end Eval

/-! ## What all activities of a run keep -/

/-- That an activity fits its place, starts on a proper store, and leaves its jumps to
the round around it. -/
structure Activity.Sound (activity : Activity) : Prop where
  store_proper : activity.machine.store.Proper
  task_proper : activity.task.Proper activity.place
  taken : ∀ signal final, activity.outcome = .done signal final →
    signal.isForLoop = true →
    ∃ round, activity.place.round? = some round ∧ round.Takes signal final.store

namespace Activity.Sound

variable {place : Place} {steps : Nat} {machine : Machine}

/-- An activity that has no jumps for a loop. -/
theorem of_quiet
    {task : Task}
    (storeProper : machine.store.Proper)
    (taskProper : task.Proper place)
    (isQuiet : Eval.Safe (fun signal => signal.isForLoop = false)
      (task.run steps)) :
    Activity.Sound ⟨place, steps, task, machine⟩ where
  store_proper := storeProper
  task_proper := taskProper
  taken := by
    intro signal final isDone isForLoop
    rw [(isQuiet.ends storeProper isDone).2] at isForLoop
    cases isForLoop

theorem ofExpression
    {expression : Expression}
    (storeProper : machine.store.Proper)
    (levelled : expression.Levelled) :
    Activity.Sound ⟨place, steps, .expression expression, machine⟩ := by
  refine of_quiet storeProper levelled ?_
  refine ((runsSafely steps).evaluate levelled).bind ?_
  intro value _
  exact .pure rfl

theorem ofLoop
    {condition : Expression}
    {body : Statement}
    (storeProper : machine.store.Proper)
    (levelled : condition.Levelled)
    (bodyProper : body.Proper true place.inFunction) :
    Activity.Sound ⟨place, steps, .loop condition body, machine⟩ := by
  refine of_quiet storeProper ⟨levelled, bodyProper⟩ ?_
  exact ((runsSafely steps).loop levelled bodyProper).imp
    fun _ fits => fits.isForLoop_eq_false

theorem ofCall
    {body : List Statement}
    (storeProper : machine.store.Proper)
    (bodyProper : Statement.BodyProper false true body) :
    Activity.Sound ⟨.ofCall, steps, .body body, machine⟩ := by
  have taskProper : (Task.body body).Proper .ofCall := ⟨rfl, bodyProper⟩
  refine of_quiet storeProper taskProper ?_
  exact (taskProper.safe steps).imp fun _ fits => fits.isForLoop_eq_false

/-- Statements of a program have no loop around them. -/
theorem ofProgram
    {statement : Statement}
    (storeProper : machine.store.Proper)
    (statementProper : statement.Proper false false) :
    Activity.Sound ⟨.ofProgram, steps, .statement statement, machine⟩ := by
  refine of_quiet storeProper statementProper ?_
  exact ((runsSafely steps).execute statementProper).imp
    fun _ fits => fits.isForLoop_eq_false

/-- A statement hands its jumps over to what it stands in. -/
theorem ofStatement
    {statement : Statement}
    (storeProper : machine.store.Proper)
    (statementProper : statement.Proper place.inLoop place.inFunction)
    (handsOver : ∀ signal final,
      Eval.execute steps statement machine = .done signal final →
      signal.isForLoop = true →
      ∃ round, place.round? = some round ∧ round.Takes signal final.store) :
    Activity.Sound ⟨place, steps, .statement statement, machine⟩ :=
  ⟨storeProper, statementProper, handsOver⟩

/-- The invariant goes over from an activity to those that it starts. -/
theorem starts
    {first second : Activity}
    (sound : first.Sound)
    (isStarted : Starts first second) :
    second.Sound := by
  obtain ⟨storeProper, taskProper, taken⟩ := sound
  -- Statements of a body, of a block and of a branch pass their jumps on to what they
  -- stand in.  The body of a round has its own loop to take them, and nothing else
  -- that is started has any.
  cases isStarted with
  | first isFirst =>
      exact ofExpression storeProper (taskProper.first isFirst)
  | second isFirst isDone isSecond =>
      obtain ⟨laterProper, _⟩ :=
        Eval.ends_valueOf storeProper (taskProper.first isFirst) isDone
      exact ofExpression laterProper (taskProper.second isSecond)
  | argument isCallee areBefore =>
      obtain ⟨⟨_, calleeLevelled⟩, allLevelled⟩ := taskProper
      obtain ⟨beforeLevelled, restLevelled⟩ :=
        List.forall_mem_append.mp (Expression.levelled_of_all allLevelled)
      obtain ⟨laterProper, _⟩ :=
        Eval.ends_valueOf storeProper calleeLevelled isCallee
      obtain ⟨lastProper, _⟩ :=
        Eval.ends_forEach laterProper beforeLevelled areBefore
      exact ofExpression lastProper (List.forall_mem_cons.mp restLevelled).1
  | call isCallee isFunction areArguments _ isEntered =>
      obtain ⟨⟨_, calleeLevelled⟩, allLevelled⟩ := taskProper
      obtain ⟨laterProper, calleeProper⟩ :=
        Eval.ends_valueOf storeProper calleeLevelled isCallee
      obtain ⟨lastProper, areProper⟩ :=
        Eval.ends_forEach laterProper (Expression.levelled_of_all allLevelled)
          areArguments
      have entered :=
        (Eval.Safe.enterCall areProper _ _).ends lastProper isEntered
      exact ofCall entered.1 (calleeProper _ _ isFunction)
  | ofBody isDone =>
      obtain ⟨rfl, bodyProper⟩ := taskProper
      obtain ⟨beforeProper, restProper⟩ := List.forall_mem_append.mp bodyProper
      have laterProper := Eval.ends_sequence storeProper beforeProper isDone
      refine ofStatement laterProper (List.forall_mem_cons.mp restProper).1 ?_
      intro signal final jumps isForLoop
      exact taken signal final
        (Runner.sequence_of_jump isDone jumps isForLoop _) isForLoop
  | value isValue =>
      exact ofExpression storeProper (taskProper.value isValue)
  | ofBlock isDone =>
      obtain ⟨beforeProper, restProper⟩ :=
        List.forall_mem_append.mp taskProper.block
      have laterProper :=
        Eval.ends_sequence (storeProper.openScope _ _) beforeProper isDone
      refine ofStatement laterProper (List.forall_mem_cons.mp restProper).1 ?_
      intro signal final jumps isForLoop
      have handedOver := taken signal _
        (Runner.execute_block_of_jump isDone jumps isForLoop _) isForLoop
      exact handedOver
  | condition areFalse =>
      obtain ⟨branchesProper, _⟩ := taskProper.conditional
      obtain ⟨beforeProper, restProper⟩ :=
        List.forall_mem_append.mp branchesProper
      obtain ⟨laterProper, _⟩ := Eval.ends_firstTrue storeProper
        (fun branch isBranch => (beforeProper branch isBranch).1) areFalse
      exact ofExpression laterProper (List.forall_mem_cons.mp restProper).1.1
  | branch isChosen isBody span =>
      obtain ⟨branchesProper, otherwiseProper⟩ := taskProper.conditional
      obtain ⟨laterProper, isBranch⟩ := Eval.ends_firstTrue storeProper
        (fun branch isBranch => (branchesProper branch isBranch).1) isChosen
      refine ofStatement laterProper ?_ ?_
      · rcases Option.or_eq_some_iff.mp isBody with isBody | ⟨_, isBody⟩
        · obtain ⟨branch, isBranch, rfl⟩ := isBranch _ isBody
          exact (branchesProper branch isBranch).2
        · exact otherwiseProper _ isBody
      · intro signal final jumps isForLoop
        exact taken signal final
          ((Runner.execute_conditional isChosen isBody span).trans jumps)
          isForLoop
  | loop =>
      obtain ⟨levelled, bodyProper⟩ := taskProper.whileLoop
      exact ofLoop storeProper levelled bodyProper
  | test =>
      exact ofExpression storeProper taskProper.1
  | round isDone isTrue =>
      obtain ⟨levelled, bodyProper⟩ := taskProper
      obtain ⟨laterProper, _⟩ := Eval.ends_valueOf storeProper levelled isDone
      refine ofStatement laterProper bodyProper ?_
      intro signal final jumps isForLoop
      exact ⟨_, rfl, Round.takes isDone isTrue jumps isForLoop⟩
  | nextRound isDone _ ended _ =>
      obtain ⟨levelled, bodyProper⟩ := taskProper
      obtain ⟨laterProper, _⟩ := Eval.ends_valueOf storeProper levelled isDone
      exact ofLoop (Eval.ends_execute laterProper bodyProper ended) levelled
        bodyProper

/-- The invariant goes over to all activities that are started in the end. -/
theorem startsAll
    {first last : Activity}
    (sound : first.Sound)
    (areStarted : Relation.ReflTransGen Starts first last) :
    last.Sound := by
  induction areStarted with
  | refl => exact sound
  | tail _ isStarted inductionHypothesis =>
      exact inductionHypothesis.starts isStarted

end Activity.Sound

end Scriptlet
