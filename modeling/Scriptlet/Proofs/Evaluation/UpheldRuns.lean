import Scriptlet.Proofs.Evaluation.Upheld

namespace Scriptlet

/-!
# All runs keep functions in their places

What an expression, a statement and a loop uphold follows from what all shorter runs
uphold, and so all runs are upheld, by induction on the number of steps.
-/

section

variable {m : Type → Type} [Runner m] [Observed m]
variable {nesting : Nesting} {frames : List Frame} {store : Store}

/-- That all runs with some number of steps are upheld. -/
structure RunsUpheld
    (m : Type → Type)
    [Runner m]
    [Observed m]
    (nesting : Nesting)
    (steps : Nat) :
    Prop where
  evaluate : ∀ {frames expression},
    nesting.Holds frames (.expression expression) →
    ∀ store, Upholds nesting frames (PlacedValue nesting) store
      (Runner.evaluate steps expression : m (Option Value))
  execute : ∀ {frames statement},
    nesting.Holds frames (.statement statement) →
    ∀ store, Upholds nesting frames (PlacedSignal nesting) store
      (Runner.execute steps statement : m Signal)
  loop : ∀ {frames condition body},
    nesting.Holds frames (.expression condition) →
    nesting.Holds frames (.statement body) →
    ∀ store, Upholds nesting frames (PlacedSignal nesting) store
      (Runner.loop steps condition body : m Signal)

namespace RunsUpheld

variable {steps : Nat}

/-- The value of an expression that has to have one. -/
theorem required
    {expression : Expression}
    (runs : RunsUpheld m nesting steps)
    (holds : nesting.Holds frames (.expression expression))
    (store : Store) :
    Upholds nesting frames (fun later value => value.PlacedIn nesting later) store
      (do
        Runner.required expression.span
          (← Runner.evaluate steps expression) : m Value) := by
  apply (runs.evaluate holds store).bind
  intro later value? _ isPlaced
  exact .required holds isPlaced

/-- Going on with the value of an expression that has to have one. -/
theorem andRequired
    {expression : Expression}
    {Result : Store → α → Prop}
    {next : Value → m α}
    (runs : RunsUpheld m nesting steps)
    (holds : nesting.Holds frames (.expression expression))
    (goesOn : ∀ later value, store.Evolves later → value.PlacedIn nesting later →
      Upholds nesting frames Result later (next value)) :
    Upholds nesting frames Result store
      (do
        let value ←
          Runner.required expression.span
            (← Runner.evaluate steps expression)
        next value) := by
  apply (runs.evaluate holds store).bind
  intro evaluated value? isEvaluated isPlaced
  apply (Upholds.required holds isPlaced).bind
  intro later value isLater isPlaced
  exact goesOn later value (isEvaluated.trans isLater) isPlaced

/-- What a condition is found to be. -/
theorem truth
    {condition : Expression}
    (runs : RunsUpheld m nesting steps)
    (holds : nesting.Holds frames (.expression condition))
    (store : Store) :
    Upholds nesting frames (fun _ _ => True) store
      (do
        let value ←
          Runner.required condition.span
            (← Runner.evaluate steps condition)
        pure value.isTrue : m Bool) := by
  apply runs.andRequired holds
  intro _ value _ _
  exact .pure trivial

theorem evaluate_succ
    {expression : Expression}
    (runs : RunsUpheld m nesting steps)
    (holds : nesting.Holds frames (.expression expression))
    (store : Store) :
    Upholds nesting frames (PlacedValue nesting) store
      (Runner.evaluate (steps + 1) expression : m (Option Value)) := by
  have operandHolds {operand : Expression}
      (isOperand : operand ∈ expression.operands) :
      nesting.Holds frames (.expression operand) :=
    nesting.holds_operand holds isOperand
  have sameValue (value : Value) : value.Resembles value :=
    .same value.payload
  cases expression with
  | literal literal span =>
      have isPlain : literal.payload.isPlain = true := by
        cases literal <;> rfl
      exact (Upholds.makePlain isPlain).asValue
  | reference name span =>
      exact (Upholds.lookUp holds).asValue
  | assign name right span =>
      apply runs.andRequired (operandHolds (List.mem_singleton_self right))
      intro _ value _ isPlaced
      exact (Upholds.assign holds isPlaced).asValue
  | getAttribute object name span =>
      apply runs.andRequired (operandHolds (List.mem_singleton_self object))
      intro _ value _ _
      exact (Upholds.located holds ((sameValue value).getAttribute name)).asValue
  | setAttribute object name right span =>
      apply runs.andRequired (operandHolds List.mem_cons_self)
      intro _ target _ _
      apply runs.andRequired
        (operandHolds (List.mem_cons_of_mem _ List.mem_cons_self))
      intro _ value _ _
      exact (Upholds.located holds
        ((sameValue target).setAttribute (sameValue value) name)).asValue
  | unary operator operand span =>
      apply runs.andRequired (operandHolds (List.mem_singleton_self operand))
      intro _ value _ _
      exact (Upholds.located holds
        ((sameValue value).unary operator.kind)).asValue
  | binary left operator right span =>
      apply runs.andRequired (operandHolds List.mem_cons_self)
      intro _ leftValue _ _
      apply runs.andRequired
        (operandHolds (List.mem_cons_of_mem _ List.mem_cons_self))
      intro _ rightValue _ _
      exact (Upholds.located holds
        ((sameValue leftValue).binary (sameValue rightValue) operator.kind)).asValue
  | logical left operator right span =>
      apply runs.andRequired (operandHolds List.mem_cons_self)
      intro _ leftValue _ _
      apply (Upholds.located_any holds _).bind
      intro _ decided _ _
      cases decided with
      | some truth => exact (Upholds.makePlain rfl).asValue
      | none =>
          apply runs.andRequired
            (operandHolds (List.mem_cons_of_mem _ List.mem_cons_self))
          intro _ rightValue _ _
          exact (Upholds.makePlain rfl).asValue
  | grouping inner span =>
      exact runs.evaluate (operandHolds (List.mem_singleton_self inner)) store
  | call callee arguments span =>
      apply runs.andRequired (operandHolds List.mem_cons_self)
      intro later function _ calleePlaced
      have given : Upholds nesting frames (PlacedValues nesting) later
          (Runner.forEach
            (fun argument => do
              Runner.required argument.span
                (← Runner.evaluate steps argument) : Expression → m Value)
            arguments) := by
        apply Upholds.forEach
        intro argument isGiven
        exact runs.required (operandHolds (List.mem_cons_of_mem _ isGiven))
      apply given.bind
      intro last values evolves arePlaced
      exact .callWith runs.execute holds (calleePlaced.evolves evolves) arePlaced

theorem execute_succ
    {statement : Statement}
    (runs : RunsUpheld m nesting steps)
    (holds : nesting.Holds frames (.statement statement))
    (store : Store) :
    Upholds nesting frames (PlacedSignal nesting) store
      (Runner.execute (steps + 1) statement : m Signal) := by
  have partHolds {part : Phrase} (isPart : part ∈ statement.parts) :
      nesting.Holds frames part :=
    nesting.holds_part holds isPart
  cases statement with
  | expression inner =>
      apply (runs.evaluate (partHolds (List.mem_singleton_self _)) store).bind
      intro _ value _ isPlaced
      exact .pure isPlaced
  | declaration constant name initializer span =>
      apply runs.andRequired (partHolds (List.mem_singleton_self _))
      intro later value _ isPlaced
      apply Upholds.currentScope.bind
      rintro _ scope _ ⟨rfl, framed⟩
      apply (Upholds.declarePlaced isPlaced _).bind
      · intro last _ evolves _
        exact .pure (placedValue_some (isPlaced.evolves evolves))
      · intro _ line
        exact .declaration holds (framed.diagnose_eq _ span)
  | function name parameters body span =>
      have declares : Upholds nesting frames (fun _ _ => True) store
          (Runner.declareFunction ⟨name, parameters, body, span⟩ : m Unit) :=
        .declareFunction holds
      apply declares.bind
      intro _ _ _ _
      exact .pure placedValue_none
  | block body span =>
      apply Upholds.currentScope.bind
      rintro _ parent _ ⟨rfl, framed⟩
      apply (Upholds.openScope framed _).bind
      rintro opened scope _ ⟨innerFramed, _⟩
      have runsBody : ∀ inner ∈ body, ∀ start,
          Upholds nesting _ (PlacedSignal nesting) start
            (Runner.execute steps inner : m Signal) :=
        fun inner isInside =>
          runs.execute (nesting.holds_inBlock holds isInside)
      apply (Upholds.within innerFramed
        (Upholds.sequence runsBody placedValue_none)).bind
      intro _ signal _ isPlaced
      exact .pure isPlaced.ofBlock
  | whileLoop condition body span =>
      exact runs.loop (partHolds List.mem_cons_self)
        (partHolds (List.mem_cons_of_mem _ List.mem_cons_self)) store
  | conditional branches otherwise span =>
      have tests : ∀ branch ∈ branches, ∀ start,
          Upholds nesting frames (fun _ _ => True) start _ :=
        fun branch isBranch => runs.truth (nesting.holds_branch holds isBranch).1
      apply (Upholds.firstTrue tests).bind
      intro later chosen _ isBody
      cases chosen with
      | some body =>
          obtain ⟨branch, isBranch, rfl⟩ := isBody body rfl
          exact runs.execute (nesting.holds_branch holds isBranch).2 later
      | none =>
          cases otherwise with
          | some body => exact runs.execute (nesting.holds_otherwise holds) later
          | none => exact .pure placedValue_none
  | breakLoop span =>
      exact .pure placedValue_none
  | continueLoop span =>
      exact .pure placedValue_none
  | returnValue result span =>
      cases result with
      | none =>
          exact .pure placedValue_none
      | some result =>
          apply (runs.evaluate (partHolds (List.mem_singleton_self _)) store).bind
          intro _ value _ isPlaced
          exact .pure isPlaced

theorem loop_succ
    {condition : Expression}
    {body : Statement}
    (runs : RunsUpheld m nesting steps)
    (conditionHolds : nesting.Holds frames (.expression condition))
    (bodyHolds : nesting.Holds frames (.statement body))
    (store : Store) :
    Upholds nesting frames (PlacedSignal nesting) store
      (Runner.loop (steps + 1) condition body : m Signal) := by
  apply runs.andRequired conditionHolds
  intro tested value _ _
  cases value.isTrue with
  | false =>
      exact .pure placedValue_none
  | true =>
      apply (runs.execute bodyHolds tested).bind
      intro later signal _ isPlaced
      cases signal with
      | normal value => exact runs.loop conditionHolds bodyHolds later
      | broke => exact .pure placedValue_none
      | continued => exact runs.loop conditionHolds bodyHolds later
      | returned value => exact .pure isPlaced

end RunsUpheld

variable (m) in
/-- All runs are upheld. -/
theorem runsUpheld (nesting : Nesting) (steps : Nat) :
    RunsUpheld m nesting steps := by
  induction steps with
  | zero =>
      exact ⟨fun _ _ => .exhausted, fun _ _ => .exhausted, fun _ _ _ => .exhausted⟩
  | succ fewer runs =>
      exact ⟨runs.evaluate_succ, runs.execute_succ, runs.loop_succ⟩

/-- Runs of programs are upheld. -/
theorem upholds_program
    {statements : List Statement}
    (holds : ∀ statement ∈ statements, nesting.Holds frames (.statement statement))
    (steps : Nat)
    (store : Store) :
    Upholds nesting frames (PlacedValues nesting) store
      (Runner.program steps statements : m (List Value)) := by
  induction statements generalizing store with
  | nil =>
      exact .pure (List.forall_mem_nil _)
  | cons first rest inductionHypothesis =>
      obtain ⟨firstHolds, restHolds⟩ := List.forall_mem_cons.mp holds
      apply ((runsUpheld m nesting steps).execute firstHolds store).bind
      intro later signal _ isPlaced
      apply (inductionHypothesis restHolds later).bind
      intro last values evolves arePlaced
      have firstPlaced : PlacedValues nesting last signal.programValue.toList := by
        intro value isValue
        cases signal with
        | normal found =>
            exact (isPlaced value (Option.mem_toList.mp isValue)).evolves evolves
        | broke => cases isValue
        | continued => cases isValue
        | returned found => cases isValue
      exact .pure (List.forall_mem_append.mpr ⟨firstPlaced, arePlaced⟩)

end

end Scriptlet
