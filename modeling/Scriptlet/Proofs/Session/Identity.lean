import Scriptlet.Proofs.Session.Stacks

namespace Scriptlet

/-!
# Equal functions are the same

Functions are found equal if they have the same name and were declared in the same scope.
In a session this is enough for them to be the same function: all function values that
are at hand at any point are what their name is bound to, as a constant, in the scope that
they were declared in.
-/

/-- All phrases with any frames around them. -/
def Nesting.everything : Nesting where
  Holds _ _ := True
  holds_part := fun _ _ => trivial
  holds_inBlock := fun _ _ => trivial
  holds_inFunction := fun _ _ => trivial

/-! ## Activities -/

/-- Whether the store of a machine keeps all functions in their places, and the scope that
is run exists. -/
structure Machine.InPlace (machine : Machine) : Prop where
  placed : machine.store.Placed .everything
  known : machine.current < machine.store.nextId

/-- What is known after an action that has come to its end. -/
structure Machine.LeadsTo
    (Result : Store → Prop)
    (machine final : Machine) :
    Prop where
  inPlace : final.InPlace
  evolves : machine.store.Evolves final.store
  isResult : Result final.store

namespace Machine.InPlace

variable {machine final : Machine} {steps : Nat}

/-- Where an action ends that upholds the places of functions. -/
theorem leadsTo
    {Result : Store → α → Prop}
    {action : Eval α}
    {value : α}
    (inPlace : machine.InPlace)
    (upholds : ∀ frames, Upholds .everything frames Result machine.store action)
    (isDone : action machine = .done value final) :
    machine.LeadsTo (Result · value) final := by
  have ends : (action machine).UpheldFrom .everything Result machine.store
      machine.current :=
    (upholds _ inPlace.placed machine.current ⟨inPlace.known, rfl⟩).ends
  rw [isDone] at ends
  cases ends with
  | done evolves placed isResult =>
      exact ⟨⟨placed, evolves.lt_nextId inPlace.known⟩, evolves, isResult⟩

theorem valueOf
    {expression : Expression}
    {value : Value}
    (inPlace : machine.InPlace)
    (isDone : Eval.valueOf steps expression machine = .done value final) :
    machine.LeadsTo (value.PlacedIn .everything) final :=
  inPlace.leadsTo
    (fun _ => (runsUpheld Eval .everything steps).required trivial machine.store)
    isDone

theorem forEach
    {expressions : List Expression}
    {values : List Value}
    (inPlace : machine.InPlace)
    (isDone : Runner.forEach (Eval.valueOf steps) expressions machine =
      .done values final) :
    machine.LeadsTo (PlacedValues .everything · values) final := by
  apply inPlace.leadsTo _ isDone
  intro frames
  apply Upholds.forEach
  intro expression _ start
  exact (runsUpheld Eval .everything steps).required trivial start

theorem execute
    {statement : Statement}
    {signal : Signal}
    (inPlace : machine.InPlace)
    (isDone : Eval.execute steps statement machine = .done signal final) :
    machine.LeadsTo (PlacedSignal .everything · signal) final :=
  inPlace.leadsTo
    (fun _ => (runsUpheld Eval .everything steps).execute trivial machine.store)
    isDone

theorem sequence
    {statements : List Statement}
    {signal : Signal}
    (inPlace : machine.InPlace)
    (isDone : Runner.sequence (Eval.execute steps) none statements machine =
      .done signal final) :
    machine.LeadsTo (PlacedSignal .everything · signal) final := by
  apply inPlace.leadsTo _ isDone
  intro frames
  apply Upholds.sequence _ placedValue_none
  intro statement _ start
  exact (runsUpheld Eval .everything steps).execute trivial start

theorem firstTrue
    {branches : List (Expression × Statement)}
    {chosen : Option Statement}
    (inPlace : machine.InPlace)
    (isDone : Runner.firstTrue (Eval.truthOf steps) branches machine =
      .done chosen final) :
    final.InPlace := by
  have upholds (frames : List Frame) :
      Upholds .everything frames
        (fun _ chosen => ∀ body, chosen = some body →
          ∃ branch ∈ branches, branch.2 = body)
        machine.store (Runner.firstTrue (Eval.truthOf steps) branches) := by
    apply Upholds.firstTrue
    intro branch _ start
    exact (runsUpheld Eval .everything steps).truth trivial start
  exact (inPlace.leadsTo upholds isDone).inPlace

theorem enterBlock
    (inPlace : machine.InPlace)
    (span : Span) :
    (machine.enterBlock span).InPlace where
  placed := by
    apply inPlace.placed.openScope
    rintro _ ⟨⟩
    exact inPlace.known
  known := by
    show machine.store.nextId < (machine.store.openScope _ _).nextId
    rw [Store.nextId_openScope]
    exact Nat.lt_succ_self _

/-- A call enters a scope that exists. -/
theorem enterCall
    {function : Value}
    {declaration : FunctionDeclaration}
    {outer scope : ScopeId}
    {values : List Value}
    (inPlace : machine.InPlace)
    (functionPlaced : function.PlacedIn .everything machine.store)
    (isFunction : function.payload = .function declaration outer)
    (arePlaced : PlacedValues .everything machine.store values)
    (isEntered : Eval.enterCall declaration outer values machine =
      .done scope final) :
    InPlace ⟨final.store, scope⟩ := by
  have outerKnown := (functionPlaced.nested declaration outer isFunction).1
  have upholds (frames : List Frame) :
      Upholds .everything frames (fun later scope => scope < later.nextId)
        machine.store (Eval.enterCall declaration outer values) := by
    apply (Upholds.openScope ⟨outerKnown, rfl⟩ _).bind
    rintro opened scope isOpened ⟨framed, bindsNothing⟩
    apply (Upholds.bindParameters [] trivial framed rfl
      (fun name isBound => (isBound (bindsNothing name)).elim)
      (arePlaced.evolves isOpened)).bind
    intro bound _ isBound _
    exact .pure (isBound.lt_nextId framed.known)
  have leads := inPlace.leadsTo upholds isEntered
  exact ⟨leads.inPlace.placed, leads.isResult⟩

end Machine.InPlace

/-- What an activity starts is started in its place. -/
theorem Starts.inPlace
    {first last : Activity}
    (starts : Starts first last)
    (inPlace : first.machine.InPlace) :
    last.machine.InPlace := by
  cases starts with
  | first isFirst => exact inPlace
  | second isFirst isDone isSecond => exact (inPlace.valueOf isDone).inPlace
  | argument isCallee areBefore =>
      exact ((inPlace.valueOf isCallee).inPlace.forEach areBefore).inPlace
  | call isCallee isFunction areArguments fits isEntered =>
      have called := inPlace.valueOf isCallee
      have given := called.inPlace.forEach areArguments
      exact given.inPlace.enterCall (called.isResult.evolves given.evolves) isFunction
        given.isResult isEntered
  | ofBody isDone => exact (inPlace.sequence isDone).inPlace
  | value isValue => exact inPlace
  | ofBlock isDone => exact ((inPlace.enterBlock _).sequence isDone).inPlace
  | condition areFalse => exact inPlace.firstTrue areFalse
  | branch isChosen isBody span => exact inPlace.firstTrue isChosen
  | loop => exact inPlace
  | test => exact inPlace
  | round isDone isTrue => exact (inPlace.valueOf isDone).inPlace
  | nextRound isDone isTrue ended goesOn =>
      exact ((inPlace.valueOf isDone).inPlace.execute ended).inPlace

theorem startsAll_inPlace
    {first last : Activity}
    (areStarted : Relation.ReflTransGen Starts first last)
    (inPlace : first.machine.InPlace) :
    last.machine.InPlace := by
  induction areStarted with
  | refl => exact inPlace
  | tail _ starts inductionHypothesis => exact starts.inPlace inductionHypothesis

/-- The value that an activity ends with is in its place. -/
theorem Activity.placed_of_outcome
    {activity : Activity}
    {signal : Signal}
    {final : Machine}
    (inPlace : activity.machine.InPlace)
    (isDone : activity.outcome = .done signal final) :
    PlacedSignal .everything final.store signal := by
  obtain ⟨place, steps, task, machine⟩ := activity
  have runs := runsUpheld Eval .everything steps
  cases task with
  | expression inner =>
      obtain ⟨value?, later, isEvaluated, isDone⟩ := Outcome.andThen_eq_done isDone
      cases isDone
      exact (inPlace.leadsTo (fun _ => runs.evaluate trivial machine.store)
        isEvaluated).isResult
  | statement inner => exact (inPlace.execute isDone).isResult
  | loop condition body =>
      exact (inPlace.leadsTo (fun _ => runs.loop trivial trivial machine.store)
        isDone).isResult
  | body statements => exact (inPlace.sequence isDone).isResult

namespace Store

/-! ## Sessions -/

/-- The values that are at hand when a source unit is run from a store on, each with the
store of the point of the run. -/
inductive Held (start : Store) (steps : Nat) (source : SourceUnit) :
    Store → Value → Prop where
  /-- What a name is bound to. -/
  | bound
      (isPoint : point ∈ start :: start.points steps 0 source)
      (isScope : point.scope? number = some scope)
      (isBound : binding ∈ scope.bindings) :
      Held start steps source point binding.value
  /-- What an expression, a statement or the body of a function ends with. -/
  | result
      (reads : source.ReadAs program)
      (isStarted : StartedBy steps program ⟨start, 0⟩ first)
      (areStarted : Relation.ReflTransGen Starts first last)
      (isDone : last.outcome = .done signal final)
      (isValue : signal.callValue = some value) :
      Held start steps source final.store value
  /-- What is called, and its arguments. -/
  | given
      (reads : source.ReadAs program)
      (isStarted : StartedBy steps program ⟨start, 0⟩ first)
      (areStarted : Relation.ReflTransGen Starts first
        ⟨place, fewer + 1, .expression (.call callee arguments span), machine⟩)
      (isCallee : Eval.valueOf fewer callee machine = .done function later)
      (areArguments : Runner.forEach (Eval.valueOf fewer) arguments later =
        .done values final)
      (isGiven : value ∈ function :: values) :
      Held start steps source final.store value
  /-- The two operands of an operator. -/
  | operand
      (reads : source.ReadAs program)
      (isStarted : StartedBy steps program ⟨start, 0⟩ first)
      (areStarted : Relation.ReflTransGen Starts first
        ⟨place, fewer + 1, .expression (.binary left operator right span), machine⟩)
      (isLeft : Eval.valueOf fewer left machine = .done leftValue later)
      (isRight : Eval.valueOf fewer right later = .done rightValue final)
      (isOperand : value ∈ [leftValue, rightValue]) :
      Held start steps source final.store value

variable {fileName : String}

theorem ReachedBy.inPlace
    {units : List SourceUnit}
    {store : Store}
    (reached : ReachedBy fileName units store) :
    Machine.InPlace ⟨store, 0⟩ := by
  have holds : ∀ source ∈ units, ∀ program, source.ReadAs program →
      ∀ statement ∈ program,
        Nesting.everything.Holds [.file fileName] (.statement statement) :=
    fun _ _ _ _ _ _ => trivial
  obtain ⟨placed, framed⟩ := reached.placed holds
  exact ⟨placed, framed.known⟩

theorem points_placed
    {store point : Store}
    {steps : Nat}
    {source : SourceUnit}
    (inPlace : Machine.InPlace ⟨store, 0⟩)
    (isPoint : point ∈ store :: store.points steps 0 source) :
    point.Placed .everything := by
  rcases List.mem_cons.mp isPoint with rfl | isPoint
  · exact inPlace.placed
  · simp only [points] at isPoint
    split at isPoint
    · split at isPoint
      · exact (upholds_program (m := Watched) (fun _ _ => trivial) steps store
          inPlace.placed 0 ⟨inPlace.known, rfl⟩).points_placed point isPoint
      · cases isPoint
    · cases isPoint

/-- The statements of a program are started in their places. -/
theorem startedBy_inPlace
    {store : Store}
    {steps : Nat}
    {program : List Statement}
    {first : Activity}
    (inPlace : Machine.InPlace ⟨store, 0⟩)
    (isStarted : StartedBy steps program ⟨store, 0⟩ first) :
    first.machine.InPlace := by
  obtain ⟨_, isDone⟩ := isStarted
  exact (inPlace.leadsTo
    (fun _ => upholds_program (m := Eval) (fun _ _ => trivial) steps store)
    isDone).inPlace

/-- All values that are at hand in a session are in their places. -/
theorem Held.placed
    {start point : Store}
    {steps : Nat}
    {source : SourceUnit}
    {value : Value}
    (held : start.Held steps source point value)
    (inPlace : Machine.InPlace ⟨start, 0⟩) :
    value.PlacedIn .everything point := by
  cases held with
  | bound isPoint isScope isBound =>
      exact (points_placed inPlace isPoint).value_placed isScope isBound
  | result reads isStarted areStarted isDone isValue =>
      have lastInPlace :=
        startsAll_inPlace areStarted (startedBy_inPlace inPlace isStarted)
      exact Activity.placed_of_outcome lastInPlace isDone _ isValue
  | given reads isStarted areStarted isCallee areArguments isGiven =>
      have lastInPlace :=
        startsAll_inPlace areStarted (startedBy_inPlace inPlace isStarted)
      have called := lastInPlace.valueOf isCallee
      have given := called.inPlace.forEach areArguments
      rcases List.mem_cons.mp isGiven with rfl | isArgument
      · exact called.isResult.evolves given.evolves
      · exact given.isResult _ isArgument
  | operand reads isStarted areStarted isLeft isRight isOperand =>
      have lastInPlace :=
        startsAll_inPlace areStarted (startedBy_inPlace inPlace isStarted)
      have onLeft := lastInPlace.valueOf isLeft
      have onRight := onLeft.inPlace.valueOf isRight
      rcases List.mem_pair.mp isOperand with rfl | rfl
      · exact onLeft.isResult.evolves onRight.evolves
      · exact onRight.isResult

/-- Two functions that are found equal, and that both are what their name is bound to in
the scope that they were declared in, are the same. -/
theorem same_of_equals
    {point : Store}
    {left right : Value}
    {declaration other : FunctionDeclaration}
    {closure outer : ScopeId}
    (leftBacked : left.BackedBy point)
    (rightBacked : right.BackedBy point)
    (isLeft : left.payload = .function declaration closure)
    (isRight : right.payload = .function other outer)
    (areEqual : (left.equals right).payload = .bool true) :
    declaration = other ∧ closure = outer := by
  have isSame : Payload.same (.function declaration closure) (.function other outer) =
      true := by
    rw [Value.equals, isLeft, isRight] at areEqual
    exact Payload.bool.inj areEqual
  obtain ⟨sameName, sameScope⟩ := Bool.and_eq_true_iff.mp isSame
  obtain rfl := eq_of_beq sameScope
  obtain ⟨binding, isBound, _, isFunction⟩ := leftBacked declaration closure isLeft
  obtain ⟨found, isFound, _, isOther⟩ := rightBacked other closure isRight
  rw [← eq_of_beq sameName, isBound] at isFound
  obtain rfl := Option.some.inj isFound
  exact Payload.function.inj (isFunction.symm.trans isOther)

/-- All function values that are at hand in a session, at any point of any run, are what
their name is bound to, as a constant, in the scope that they were declared in.  So if two
of them are found equal, they have the same declaration and the same scope around them,
and calling one is calling the other. -/
theorem session_functions_same
    {units : List SourceUnit}
    {start : Store}
    (reached : ReachedBy fileName units start)
    (steps : Nat)
    (source : SourceUnit) :
    (∀ point value, start.Held steps source point value → value.BackedBy point) ∧
      ∀ point left right declaration other closure outer,
        start.Held steps source point left →
        start.Held steps source point right →
        left.payload = .function declaration closure →
        right.payload = .function other outer →
        (left.equals right).payload = .bool true →
        (declaration = other ∧ closure = outer) ∧
          ∀ allowed arguments span machine,
            Eval.call allowed left arguments span machine =
              Eval.call allowed right arguments span machine := by
  have backed : ∀ point value, start.Held steps source point value →
      value.BackedBy point :=
    fun point value held => (held.placed reached.inPlace).backed
  refine ⟨backed, ?_⟩
  intro point left right declaration other closure outer leftHeld rightHeld isLeft
    isRight areEqual
  obtain ⟨rfl, rfl⟩ := same_of_equals (backed point left leftHeld)
    (backed point right rightHeld) isLeft isRight areEqual
  refine ⟨⟨rfl, rfl⟩, ?_⟩
  intro allowed arguments span machine
  simp only [Eval.call, Runner.call, Runner.callWith, isLeft, isRight]

theorem exists_function_of_not_isPlain
    {payload : Payload}
    (notPlain : payload.isPlain = false) :
    ∃ declaration closure, payload = .function declaration closure := by
  cases payload with
  | function declaration closure => exact ⟨declaration, closure, rfl⟩
  | _ => cases notPlain

/-- A function that is bound to two names. -/
theorem session_functions_same_alias :
    ∃ start left right declaration other closure outer,
      ReachedBy "main" [⟨"main", "function f() { }\nconst g = f"⟩] start ∧
      start.Held 9 ⟨"main", "f == g"⟩ start left ∧
      start.Held 9 ⟨"main", "f == g"⟩ start right ∧
      left.payload = .function declaration closure ∧
      right.payload = .function other outer ∧
      (left.equals right).payload = .bool true ∧
      left.BackedBy start ∧ declaration = other ∧ closure = outer := by
  have found :
      (((Store.empty.openFile "main").run? 9 0
          ⟨"main", "function f() { }\nconst g = f"⟩).bind fun execution =>
        (execution.store.scope? 0).bind fun scope =>
          (scope.binding? "f").bind fun left =>
            (scope.binding? "g").map fun right =>
              (left.value.payload.isPlain, right.value.payload.isPlain,
                left.value.payload.equal right.value.payload)) =
        some (false, false, true) := by
    decide +kernel
  obtain ⟨execution, isRun, found⟩ := Option.bind_eq_some_iff.mp found
  obtain ⟨scope, isScope, found⟩ := Option.bind_eq_some_iff.mp found
  obtain ⟨left, isLeft, found⟩ := Option.bind_eq_some_iff.mp found
  obtain ⟨right, isRight, found⟩ := Option.map_eq_some_iff.mp found
  obtain ⟨leftNotPlain, found⟩ := Prod.mk.inj found
  obtain ⟨rightNotPlain, areEqual⟩ := Prod.mk.inj found
  obtain ⟨declaration, closure, leftFunction⟩ :=
    exists_function_of_not_isPlain leftNotPlain
  obtain ⟨other, outer, rightFunction⟩ :=
    exists_function_of_not_isPlain rightNotPlain
  have reached := ReachedBy.start.run isRun
  have held {name : String} {binding : Binding}
      (isBound : scope.binding? name = some binding) :
      execution.store.Held 9 ⟨"main", "f == g"⟩ execution.store binding.value :=
    .bound List.mem_cons_self isScope (List.mem_of_find?_eq_some isBound)
  have equalsTrue : (left.value.equals right.value).payload = .bool true :=
    congrArg Payload.bool areEqual
  obtain ⟨backed, same⟩ := session_functions_same reached 9 ⟨"main", "f == g"⟩
  obtain ⟨⟨sameDeclaration, sameScope⟩, _⟩ := same _ _ _ _ _ _ _ (held isLeft)
    (held isRight) leftFunction rightFunction equalsTrue
  exact ⟨execution.store, left.value, right.value, declaration, other, closure, outer,
    reached, held isLeft, held isRight, leftFunction, rightFunction, equalsTrue,
    backed _ _ (held isLeft), sameDeclaration, sameScope⟩

end Store

end Scriptlet
