import Mathlib.Data.List.Forall2
import Scriptlet.Evaluation
import Scriptlet.Proofs.Value.Mapped

namespace Scriptlet

/-!
# Running the same program twice

Two runs of one program, in two ways of running and with the spans changed in one of
them, keep whatever relation the single actions keep.  A `Simulation` states such a
relation and what has to be checked of the actions; that whole runs then keep it is
shown here once, by induction on the number of steps.

What is known of values and scopes can depend on how far a run has got.  This is
what the worlds of a simulation stand for.
-/

/-- A relation between two ways of running that all actions keep. -/
structure Simulation (m n : Type → Type) [Runner m] [Runner n] where
  /-- How far two runs have got. -/
  World : Type
  /-- How far two runs can get from there. -/
  Later : World → World → Prop
  /-- How the spans of the second run come from those of the first. -/
  change : Span → Span
  /-- Values that go with each other. -/
  Same : World → Value → Value → Prop
  /-- Scopes that exist. -/
  Known : World → ScopeId → Prop
  /-- Runs whose results go with each other in the world where they end. -/
  Related : ∀ {α β : Type}, World → (World → α → β → Prop) → m α → n β → Prop
  later_trans : ∀ {first second third},
    Later first second → Later second third → Later first third
  same_later : ∀ {world later value mapped},
    Later world later → Same world value mapped → Same later value mapped
  known_later : ∀ {world later scope},
    Later world later → Known world scope → Known later scope
  same_mappedTo : ∀ {world value mapped},
    Same world value mapped → value.MappedTo change mapped
  same_withPayload : ∀ {world value mapped} (payload : Payload),
    payload.isPlain = true → Same world value mapped →
    Same world (value.withPayload payload) (mapped.withPayload payload)
  known_closure : ∀ {world value mapped declaration closure},
    Same world value mapped →
    value.payload = .function declaration closure → Known world closure
  pure_related : ∀ {α β : Type} {world} {Result : World → α → β → Prop}
    {value result}, Result world value result →
    Related world Result (pure value) (pure result)
  bind_related : ∀ {α β γ δ : Type} {world}
    {Middle : World → α → β → Prop} {Result : World → γ → δ → Prop}
    {first : m α} {second : n β} {next : α → m γ} {following : β → n δ},
    Related world Middle first second →
    (∀ later value result, Later world later → Middle later value result →
      Related later Result (next value) (following result)) →
    Related world Result (first >>= next) (second >>= following)
  within_related : ∀ {α β : Type} {world} {Result : World → α → β → Prop}
    {first : m α} {second : n β} {scope},
    Known world scope → Related world Result first second →
    Related world Result (Runner.within scope first)
      (Runner.within scope second)
  exhausted_related : ∀ {α β : Type} {world} {Result : World → α → β → Prop},
    Related world Result Runner.exhausted Runner.exhausted
  raise_related : ∀ {α β : Type} {world} {Result : World → α → β → Prop}
    (fault : RuntimeFault) (span : Span),
    Related world Result (Runner.raise fault span)
      (Runner.raise fault (change span))
  currentScope_related : ∀ world,
    Related world
      (fun later scope found => found = scope ∧ Known later scope)
      Runner.currentScope Runner.currentScope
  makeValue_related : ∀ world (payload : Payload), payload.isPlain = true →
    Related world Same (Runner.makeValue payload) (Runner.makeValue payload)
  lookUp_related : ∀ world (name : String) (span : Span),
    Related world Same (Runner.lookUp name span)
      (Runner.lookUp name (change span))
  assign_related : ∀ {world value mapped} (name : String) (span : Span),
    Same world value mapped →
    Related world Same (Runner.assign name value span)
      (Runner.assign name mapped (change span))
  openBlock_related : ∀ {world parent} (span : Span), Known world parent →
    Related world
      (fun later scope found => found = scope ∧ Known later scope)
      (Runner.openScope (.block span.line span.fileName) parent)
      (Runner.openScope
        (.block (change span).line (change span).fileName) parent)
  openCall_related : ∀ {world parent} (name : String) (span : Span),
    Known world parent →
    Related world
      (fun later scope found => found = scope ∧ Known later scope)
      (Runner.openScope (.call name span.line span.fileName) parent)
      (Runner.openScope
        (.call name (change span).line (change span).fileName) parent)
  declareIn_related : ∀ {world scope value mapped} (constant : Bool)
    (name : String) (span : Span),
    Known world scope → Same world value mapped →
    Related world (fun _ _ _ => True)
      (Runner.declareIn scope constant name value span)
      (Runner.declareIn scope constant name mapped (change span))
  declareFunction_related : ∀ world (declaration : FunctionDeclaration),
    Related world (fun _ _ _ => True)
      (Runner.declareFunction declaration)
      (Runner.declareFunction (declaration.mapSpans change))

/-- Signals whose values go with each other. -/
inductive Signal.Same (same : Value → Value → Prop) : Signal → Signal → Prop where
  | normal
      (values : Option.Rel same value mapped) :
      Signal.Same same (.normal value) (.normal mapped)
  | broke :
      Signal.Same same .broke .broke
  | continued :
      Signal.Same same .continued .continued
  | returned
      (values : Option.Rel same value mapped) :
      Signal.Same same (.returned value) (.returned mapped)

namespace Signal.Same

variable {same : Value → Value → Prop} {signal mapped : Signal}

theorem ofBlock (signals : Signal.Same same signal mapped) :
    Signal.Same same signal.ofBlock mapped.ofBlock := by
  cases signals with
  | normal values => exact .normal .none
  | broke => exact .broke
  | continued => exact .continued
  | returned values => exact .returned values

theorem callValue (signals : Signal.Same same signal mapped) :
    Option.Rel same signal.callValue mapped.callValue := by
  cases signals with
  | normal values => exact values
  | broke => exact .none
  | continued => exact .none
  | returned values => exact values

theorem programValue (signals : Signal.Same same signal mapped) :
    Option.Rel same signal.programValue mapped.programValue := by
  cases signals with
  | normal values => exact values
  | broke => exact .none
  | continued => exact .none
  | returned values => exact .none

end Signal.Same

theorem forall₂_toList_of_rel
    {Goes : α → β → Prop}
    {value : Option α}
    {mapped : Option β}
    (related : Option.Rel Goes value mapped) :
    List.Forall₂ Goes value.toList mapped.toList := by
  cases related with
  | some goes => exact .cons goes .nil
  | none => exact .nil

namespace Simulation

variable {m n : Type → Type} [Runner m] [Runner n]
variable (simulation : Simulation m n)

/-- Optional values that go with each other. -/
def SameValue (world : simulation.World) : Option Value → Option Value → Prop :=
  Option.Rel (simulation.Same world)

/-- Values that go with each other one by one. -/
def SameValues (world : simulation.World) : List Value → List Value → Prop :=
  List.Forall₂ (simulation.Same world)

/-- Signals that go with each other. -/
def SameSignal (world : simulation.World) : Signal → Signal → Prop :=
  Signal.Same (simulation.Same world)

variable {simulation}

/-- No operator tells values that go with each other apart. -/
theorem same_resembles
    (simulation : Simulation m n)
    {world : simulation.World}
    {value mapped : Value}
    (same : simulation.Same world value mapped) :
    value.Resembles mapped :=
  (simulation.same_mappedTo same).resembles

theorem SameValues.later
    {world later : simulation.World}
    {values mapped : List Value}
    (isLater : simulation.Later world later)
    (same : simulation.SameValues world values mapped) :
    simulation.SameValues later values mapped :=
  List.Forall₂.imp (fun _ _ => simulation.same_later isLater) same

/-! ## Parts that need no recursion -/

theorem located_related
    {world : simulation.World}
    {value mapped : Value}
    {result following : Except RuntimeFault Value}
    (same : simulation.Same world value mapped)
    (results : value.SameResult mapped result following)
    (span : Span) :
    simulation.Related world simulation.Same (Runner.located span result)
      (Runner.located (simulation.change span) following) := by
  cases results with
  | fault fault =>
      exact simulation.raise_related fault span
  | plain payload isPlain =>
      exact simulation.pure_related
        (simulation.same_withPayload payload isPlain same)

/-- The same result, or the same fault, on both sides. -/
theorem located_eq_related
    {α : Type}
    {world : simulation.World}
    (result : Except RuntimeFault α)
    (span : Span) :
    simulation.Related world (fun _ value found => found = value)
      (Runner.located span result)
      (Runner.located (simulation.change span) result) := by
  cases result with
  | ok value => exact simulation.pure_related rfl
  | error fault => exact simulation.raise_related fault span

theorem required_related
    {world : simulation.World}
    {value mapped : Option Value}
    (same : simulation.SameValue world value mapped)
    (span : Span) :
    simulation.Related world simulation.Same (Runner.required span value)
      (Runner.required (simulation.change span) mapped) := by
  cases same with
  | some same =>
      exact simulation.pure_related same
  | none =>
      exact simulation.raise_related .noValue span

theorem forEach_related
    {α β : Type}
    (map : α → β)
    {run : α → m Value}
    {following : β → n Value}
    (items : List α)
    (runs : ∀ item ∈ items, ∀ world,
      simulation.Related world simulation.Same (run item)
        (following (map item)))
    (world : simulation.World) :
    simulation.Related world simulation.SameValues (Runner.forEach run items)
      (Runner.forEach following (items.map map)) := by
  induction items generalizing world with
  | nil =>
      exact simulation.pure_related .nil
  | cons first rest inductionHypothesis =>
      obtain ⟨runsFirst, runsRest⟩ := List.forall_mem_cons.mp runs
      refine simulation.bind_related (runsFirst world) ?_
      intro later value mapped _ same
      refine simulation.bind_related (inductionHypothesis runsRest later) ?_
      intro last values mappedValues isLater sameRest
      exact simulation.pure_related
        (.cons (simulation.same_later isLater same) sameRest)

theorem sequence_related
    {run : Statement → m Signal}
    {following : Statement → n Signal}
    (runs : ∀ statement world,
      simulation.Related world simulation.SameSignal (run statement)
        (following (statement.mapSpans simulation.change)))
    (statements : List Statement)
    {world : simulation.World}
    {value mapped : Option Value}
    (same : simulation.SameValue world value mapped) :
    simulation.Related world simulation.SameSignal
      (Runner.sequence run value statements)
      (Runner.sequence following mapped
        (statements.map (Statement.mapSpans simulation.change))) := by
  induction statements generalizing world value mapped with
  | nil =>
      exact simulation.pure_related (.normal same)
  | cons first rest inductionHypothesis =>
      refine simulation.bind_related (runs first world) ?_
      intro later signal mappedSignal _ signals
      cases signals with
      | normal values => exact inductionHypothesis values
      | broke => exact simulation.pure_related .broke
      | continued => exact simulation.pure_related .continued
      | returned values => exact simulation.pure_related (.returned values)

theorem firstTrue_related
    {test : Expression → m Bool}
    {following : Expression → n Bool}
    (tests : ∀ condition world,
      simulation.Related world (fun _ truth found => found = truth)
        (test condition)
        (following (condition.mapSpans simulation.change)))
    (branches : List (Expression × Statement))
    (world : simulation.World) :
    simulation.Related world
      (fun _ chosen found =>
        found = chosen.map (Statement.mapSpans simulation.change))
      (Runner.firstTrue test branches)
      (Runner.firstTrue following
        (Statement.mapSpansOfBranches simulation.change branches)) := by
  induction branches generalizing world with
  | nil =>
      exact simulation.pure_related rfl
  | cons branch rest inductionHypothesis =>
      refine simulation.bind_related (tests branch.1 world) ?_
      intro later truth found _ isSame
      subst isSame
      cases found with
      | false => exact inductionHypothesis later
      | true => exact simulation.pure_related rfl

theorem bindParameters_related
    {world : simulation.World}
    {scope : ScopeId}
    (isKnown : simulation.Known world scope)
    (span : Span)
    (names : List String)
    {values mapped : List Value}
    (same : simulation.SameValues world values mapped) :
    simulation.Related world (fun _ _ _ => True)
      (Runner.bindParameters scope span (names.zip values))
      (Runner.bindParameters scope (simulation.change span)
        (names.zip mapped)) := by
  induction names generalizing world values mapped with
  | nil =>
      exact simulation.pure_related trivial
  | cons name rest inductionHypothesis =>
      cases same with
      | nil =>
          exact simulation.pure_related trivial
      | cons same sameRest =>
          refine simulation.bind_related
            (simulation.declareIn_related false name span isKnown same) ?_
          intro later _ _ isLater _
          exact inductionHypothesis (simulation.known_later isLater isKnown)
            (SameValues.later isLater sameRest)

theorem callWith_related
    {run : Statement → m Signal}
    {following : Statement → n Signal}
    (runs : ∀ statement world,
      simulation.Related world simulation.SameSignal (run statement)
        (following (statement.mapSpans simulation.change)))
    {world : simulation.World}
    {callee mapped : Value}
    {arguments mappedArguments : List Value}
    (same : simulation.Same world callee mapped)
    (sameArguments : simulation.SameValues world arguments mappedArguments)
    (span : Span) :
    simulation.Related world simulation.SameValue
      (Runner.callWith run callee arguments span)
      (Runner.callWith following mapped mappedArguments
        (simulation.change span)) := by
  have isMapped := simulation.same_mappedTo same
  have sameLength : mappedArguments.length = arguments.length :=
    (List.Forall₂.length_eq sameArguments).symm
  unfold Runner.callWith
  rw [isMapped]
  cases isPayload : callee.payload with
  | function declaration closure =>
      simp only [Payload.mapSpans, FunctionDeclaration.mapSpans, sameLength]
      split
      · exact simulation.raise_related _ span
      · have isKnown := simulation.known_closure same isPayload
        refine simulation.bind_related
          (simulation.openCall_related declaration.name declaration.span
            isKnown) ?_
        rintro opened scope _ isOpened ⟨rfl, isKnownScope⟩
        refine simulation.bind_related
          (bindParameters_related isKnownScope declaration.span
            declaration.parameters (SameValues.later isOpened sameArguments)) ?_
        intro bound _ _ isBound _
        refine simulation.bind_related
          (simulation.within_related
            (simulation.known_later isBound isKnownScope)
            (sequence_related runs declaration.body .none)) ?_
        intro _ _ _ _ signals
        exact simulation.pure_related signals.callValue
  | int number => exact simulation.raise_related _ span
  | float number => exact simulation.raise_related _ span
  | bool truth => exact simulation.raise_related _ span

/-! ## Whole runs -/

/-- That runs with the given numbers of steps are related. -/
structure RunsRelated
    (simulation : Simulation m n)
    (steps following : Nat) :
    Prop where
  evaluate : ∀ expression world,
    simulation.Related world simulation.SameValue
      (Runner.evaluate steps expression)
      (Runner.evaluate following (expression.mapSpans simulation.change))
  execute : ∀ statement world,
    simulation.Related world simulation.SameSignal
      (Runner.execute steps statement)
      (Runner.execute following (statement.mapSpans simulation.change))
  loop : ∀ condition body world,
    simulation.Related world simulation.SameSignal
      (Runner.loop steps condition body)
      (Runner.loop following (condition.mapSpans simulation.change)
        (body.mapSpans simulation.change))

namespace RunsRelated

variable {steps following : Nat}

/-- The value of an expression that has to have one. -/
theorem required
    (runs : simulation.RunsRelated steps following)
    (expression : Expression)
    (world : simulation.World) :
    simulation.Related world simulation.Same
      (do
        Runner.required expression.span
          (← Runner.evaluate steps expression))
      (do
        Runner.required (expression.mapSpans simulation.change).span
          (← Runner.evaluate following
            (expression.mapSpans simulation.change))) := by
  refine simulation.bind_related (runs.evaluate expression world) ?_
  intro later value mapped _ same
  rw [Expression.span_mapSpans]
  exact required_related same expression.span

/-- Going on with the value of an expression that has to have one. -/
theorem andRequired
    {α β : Type}
    {Result : simulation.World → α → β → Prop}
    {next : Value → m α}
    {continued : Value → n β}
    (runs : simulation.RunsRelated steps following)
    (expression : Expression)
    {world : simulation.World}
    (goesOn : ∀ later value mapped, simulation.Later world later →
      simulation.Same later value mapped →
      simulation.Related later Result (next value) (continued mapped)) :
    simulation.Related world Result
      (do
        let value ←
          Runner.required expression.span
            (← Runner.evaluate steps expression)
        next value)
      (do
        let value ←
          Runner.required (expression.mapSpans simulation.change).span
            (← Runner.evaluate following
              (expression.mapSpans simulation.change))
        continued value) := by
  refine simulation.bind_related (runs.evaluate expression world) ?_
  intro evaluated value mapped isEvaluated same
  rw [Expression.span_mapSpans]
  refine simulation.bind_related (required_related same expression.span) ?_
  intro later value mapped isLater same
  exact goesOn later value mapped
    (simulation.later_trans isEvaluated isLater) same

/-- What a condition is found to be. -/
theorem truth
    (runs : simulation.RunsRelated steps following)
    (condition : Expression)
    (world : simulation.World) :
    simulation.Related world (fun _ truth found => found = truth)
      (do
        let value ←
          Runner.required condition.span
            (← Runner.evaluate steps condition)
        pure value.isTrue)
      (do
        let value ←
          Runner.required (condition.mapSpans simulation.change).span
            (← Runner.evaluate following
              (condition.mapSpans simulation.change))
        pure value.isTrue) := by
  refine runs.andRequired condition ?_
  intro _ value mapped _ same
  exact simulation.pure_related (simulation.same_resembles same).isTrue_eq

/-- An operator on a value that has to be there. -/
theorem andLocated
    {world : simulation.World}
    {value mapped : Value}
    {result continued : Except RuntimeFault Value}
    (same : simulation.Same world value mapped)
    (results : value.SameResult mapped result continued)
    (span : Span) :
    simulation.Related world simulation.SameValue
      (do
        let value ← Runner.located span result
        pure (some value) : m (Option Value))
      (do
        let value ← Runner.located (simulation.change span) continued
        pure (some value) : n (Option Value)) := by
  refine simulation.bind_related (located_related same results span) ?_
  intro _ _ _ _ same
  exact simulation.pure_related (.some same)

theorem evaluate_succ
    (runs : simulation.RunsRelated steps following)
    (expression : Expression)
    (world : simulation.World) :
    simulation.Related world simulation.SameValue
      (Runner.evaluate (steps + 1) expression)
      (Runner.evaluate (following + 1)
        (expression.mapSpans simulation.change)) := by
  cases expression with
  | literal literal span =>
      have isPlain : literal.payload.isPlain = true := by
        cases literal <;> rfl
      refine simulation.bind_related
        (simulation.makeValue_related world _ isPlain) ?_
      intro _ _ _ _ same
      exact simulation.pure_related (.some same)
  | reference name span =>
      refine simulation.bind_related
        (simulation.lookUp_related world name span) ?_
      intro _ _ _ _ same
      exact simulation.pure_related (.some same)
  | assign name right span =>
      refine runs.andRequired right ?_
      intro later value mapped _ same
      refine simulation.bind_related
        (simulation.assign_related name span same) ?_
      intro _ _ _ _ same
      exact simulation.pure_related (.some same)
  | getAttribute object name span =>
      refine runs.andRequired object ?_
      intro later value mapped _ same
      exact andLocated same
        ((simulation.same_resembles same).getAttribute name) span
  | setAttribute object name right span =>
      refine runs.andRequired object ?_
      intro later target mappedTarget _ sameTarget
      refine runs.andRequired right ?_
      intro last value mapped isLater same
      have sameTarget := simulation.same_later isLater sameTarget
      exact andLocated sameTarget
        ((simulation.same_resembles sameTarget).setAttribute
          (simulation.same_resembles same) name) span
  | unary operator operand span =>
      refine runs.andRequired operand ?_
      intro later value mapped _ same
      exact andLocated same
        ((simulation.same_resembles same).unary operator.kind) span
  | binary left operator right span =>
      refine runs.andRequired left ?_
      intro later leftValue mappedLeft _ sameLeft
      refine runs.andRequired right ?_
      intro last rightValue mappedRight isLater sameRight
      have sameLeft := simulation.same_later isLater sameLeft
      exact andLocated sameLeft
        ((simulation.same_resembles sameLeft).binary
          (simulation.same_resembles sameRight) operator.kind) span
  | logical left operator right span =>
      refine runs.andRequired left ?_
      intro later leftValue mappedLeft _ sameLeft
      rw [(simulation.same_resembles sameLeft).isTrue_eq]
      refine simulation.bind_related (located_eq_related _ span) ?_
      intro decided truth found _ isSame
      subst isSame
      cases found with
      | some truth =>
          refine simulation.bind_related
            (simulation.makeValue_related decided (.bool truth) rfl) ?_
          intro _ _ _ _ same
          exact simulation.pure_related (.some same)
      | none =>
          refine runs.andRequired right ?_
          intro last rightValue mappedRight _ sameRight
          rw [(simulation.same_resembles sameRight).isTrue_eq]
          refine simulation.bind_related
            (simulation.makeValue_related last _ rfl) ?_
          intro _ _ _ _ same
          exact simulation.pure_related (.some same)
  | grouping inner span =>
      exact runs.evaluate inner world
  | call callee arguments span =>
      refine runs.andRequired callee ?_
      intro later function mappedFunction _ sameFunction
      have given : simulation.Related later simulation.SameValues
          (Runner.forEach
            (fun argument => do
              Runner.required argument.span
                (← Runner.evaluate steps argument))
            arguments)
          (Runner.forEach
            (fun argument => do
              Runner.required argument.span
                (← Runner.evaluate following argument))
            (Expression.mapSpansOfEach simulation.change arguments)) := by
        rw [Expression.mapSpansOfEach_eq_map]
        exact forEach_related _ arguments
          (fun argument _ world => runs.required argument world) later
      refine simulation.bind_related given ?_
      intro last values mappedValues isLater sameValues
      exact callWith_related runs.execute
        (simulation.same_later isLater sameFunction) sameValues span

theorem execute_succ
    (runs : simulation.RunsRelated steps following)
    (statement : Statement)
    (world : simulation.World) :
    simulation.Related world simulation.SameSignal
      (Runner.execute (steps + 1) statement)
      (Runner.execute (following + 1)
        (statement.mapSpans simulation.change)) := by
  cases statement with
  | expression inner =>
      refine simulation.bind_related (runs.evaluate inner world) ?_
      intro _ _ _ _ same
      exact simulation.pure_related (.normal same)
  | declaration constant name initializer span =>
      refine runs.andRequired initializer ?_
      intro later value mapped _ same
      refine simulation.bind_related
        (simulation.currentScope_related later) ?_
      rintro reached scope _ isReached ⟨rfl, isKnown⟩
      have same := simulation.same_later isReached same
      refine simulation.bind_related
        (simulation.declareIn_related constant name span isKnown same) ?_
      intro last _ _ isLast _
      exact simulation.pure_related
        (.normal (.some (simulation.same_later isLast same)))
  | function name parameters body span =>
      have declared := simulation.declareFunction_related world
        ⟨name, parameters, body, span⟩
      rw [Statement.mapSpans, Statement.mapSpansOfEach_eq_map]
      refine simulation.bind_related declared ?_
      intro _ _ _ _ _
      exact simulation.pure_related (.normal .none)
  | block body span =>
      refine simulation.bind_related
        (simulation.currentScope_related world) ?_
      rintro reached parent _ _ ⟨rfl, isKnown⟩
      refine simulation.bind_related
        (simulation.openBlock_related span isKnown) ?_
      rintro opened scope _ _ ⟨rfl, isKnownScope⟩
      rw [Statement.mapSpansOfEach_eq_map]
      refine simulation.bind_related
        (simulation.within_related isKnownScope
          (sequence_related runs.execute body .none)) ?_
      intro _ _ _ _ signals
      exact simulation.pure_related signals.ofBlock
  | whileLoop condition body span =>
      exact runs.loop condition body world
  | conditional branches otherwise span =>
      refine simulation.bind_related
        (firstTrue_related (runs.truth) branches world) ?_
      intro later chosen found _ isFound
      subst isFound
      rw [Statement.mapSpansOfOtherwise_eq_map]
      cases chosen with
      | some body =>
          exact runs.execute body later
      | none =>
          cases otherwise with
          | some body => exact runs.execute body later
          | none => exact simulation.pure_related (.normal .none)
  | breakLoop span =>
      exact simulation.pure_related .broke
  | continueLoop span =>
      exact simulation.pure_related .continued
  | returnValue result span =>
      cases result with
      | none =>
          exact simulation.pure_related (.returned .none)
      | some result =>
          refine simulation.bind_related (runs.evaluate result world) ?_
          intro _ _ _ _ same
          exact simulation.pure_related (.returned same)

theorem loop_succ
    (runs : simulation.RunsRelated steps following)
    (condition : Expression)
    (body : Statement)
    (world : simulation.World) :
    simulation.Related world simulation.SameSignal
      (Runner.loop (steps + 1) condition body)
      (Runner.loop (following + 1) (condition.mapSpans simulation.change)
        (body.mapSpans simulation.change)) := by
  refine runs.andRequired condition ?_
  intro tested value mapped _ same
  rw [(simulation.same_resembles same).isTrue_eq]
  cases value.isTrue with
  | false =>
      exact simulation.pure_related (.normal .none)
  | true =>
      refine simulation.bind_related (runs.execute body tested) ?_
      intro later signal mappedSignal _ signals
      cases signals with
      | normal values => exact runs.loop condition body later
      | broke => exact simulation.pure_related (.normal .none)
      | continued => exact runs.loop condition body later
      | returned values => exact simulation.pure_related (.returned values)

end RunsRelated

/-- Whether runs can be compared: they have the same number of steps, or the second
has more and a run whose steps are used up goes with every other. -/
def Comparable (simulation : Simulation m n) (steps following : Nat) : Prop :=
  steps = following ∨
    steps ≤ following ∧
      ∀ {α β : Type} world (Result : simulation.World → α → β → Prop)
        (second : n β), simulation.Related world Result Runner.exhausted second

/-- All runs are related. -/
theorem runsRelated
    {steps following : Nat}
    (comparable : simulation.Comparable steps following) :
    simulation.RunsRelated steps following := by
  induction steps generalizing following with
  | zero =>
      rcases comparable with rfl | ⟨_, related⟩
      · exact ⟨fun _ _ => simulation.exhausted_related,
          fun _ _ => simulation.exhausted_related,
          fun _ _ _ => simulation.exhausted_related⟩
      · exact ⟨fun _ world => related world _ _,
          fun _ world => related world _ _, fun _ _ world => related world _ _⟩
  | succ fewer inductionHypothesis =>
      cases following with
      | zero =>
          rcases comparable with unequal | ⟨tooFew, _⟩
          · cases unequal
          · cases tooFew
      | succ others =>
          have runs : simulation.RunsRelated fewer others := by
            apply inductionHypothesis
            rcases comparable with isEqual | ⟨atMost, related⟩
            · exact .inl (Nat.succ.inj isEqual)
            · exact .inr ⟨Nat.le_of_succ_le_succ atMost, related⟩
          exact ⟨runs.evaluate_succ, runs.execute_succ, runs.loop_succ⟩

/-- Programs are run alike. -/
theorem program_related
    {steps following : Nat}
    (comparable : simulation.Comparable steps following)
    (statements : List Statement)
    (world : simulation.World) :
    simulation.Related world simulation.SameValues
      (Runner.program steps statements)
      (Runner.program following
        (statements.map (Statement.mapSpans simulation.change))) := by
  induction statements generalizing world with
  | nil =>
      exact simulation.pure_related .nil
  | cons first rest inductionHypothesis =>
      refine simulation.bind_related
        ((runsRelated comparable).execute first world) ?_
      intro later signal mapped _ signals
      refine simulation.bind_related (inductionHypothesis later) ?_
      intro last values mappedValues isLater sameValues
      have sameFirst :=
        SameValues.later isLater (forall₂_toList_of_rel signals.programValue)
      exact simulation.pure_related (List.rel_append sameFirst sameValues)

end Simulation

end Scriptlet
