import Scriptlet.Proofs.Evaluation.Ensured
import Scriptlet.Proofs.Grammar.Placement
import Scriptlet.Proofs.Store.Evolution

namespace Scriptlet

/-!
# Safe runs

A proper statement, run on a store whose functions all have proper bodies, leaves such a
store behind whatever happens.  It never meets an operator that it cannot apply, and it
ends with a jump only if there is a loop or a function around it to be left.  What one
action does is shown first, then what an expression and a statement do if all shorter
runs are safe, and then, by induction on the number of steps, that all runs are safe.
-/

/-! ## Proper values and stores -/

/-- Whether a value is no function or one with a proper body. -/
def Value.Proper (value : Value) : Prop :=
  ∀ declaration closure, value.payload = .function declaration closure →
    Statement.BodyProper false true declaration.body

/-- Whether all values bound in a store are proper. -/
def Store.Proper (store : Store) : Prop :=
  ∀ id scope binding, store.scope? id = some scope →
    binding ∈ scope.bindings → binding.value.Proper

theorem Value.proper_of_isPlain
    {value : Value}
    (isPlain : value.payload.isPlain = true) :
    value.Proper := by
  intro declaration closure isFunction
  rw [isFunction] at isPlain
  cases isPlain

namespace Store.Proper

variable {store : Store}

theorem empty : Store.empty.Proper :=
  nofun

theorem openScope
    (proper : store.Proper)
    (frame : Frame)
    (parent : Option ScopeId) :
    (store.openScope frame parent).Proper := by
  intro id scope binding isScope isBound
  rw [scope?_openScope] at isScope
  split at isScope
  case isTrue =>
    cases isScope
    cases isBound
  case isFalse =>
    exact proper _ _ _ isScope isBound

theorem bindIn
    {binding : Binding}
    (proper : store.Proper)
    (isProper : binding.value.Proper)
    (changed : ScopeId) :
    (store.bindIn changed binding).Proper := by
  intro id scope other isScope isBound
  rw [scope?_bindIn] at isScope
  split at isScope
  case isTrue =>
    obtain ⟨old, isOld, rfl⟩ := Option.map_eq_some_iff.mp isScope
    rcases List.mem_cons.mp isBound with rfl | isOldBinding
    · exact isProper
    · exact proper _ _ _ isOld isOldBinding
  case isFalse =>
    exact proper _ _ _ isScope isBound

theorem assignIn
    {value : Value}
    (proper : store.Proper)
    (isProper : value.Proper)
    (changed : ScopeId)
    (name : String) :
    (store.assignIn changed name value).Proper := by
  intro id scope other isScope isBound
  rw [scope?_assignIn] at isScope
  split at isScope
  case isTrue =>
    obtain ⟨old, isOld, rfl⟩ := Option.map_eq_some_iff.mp isScope
    obtain ⟨binding, isOldBinding, rfl⟩ := List.mem_map.mp isBound
    split
    · exact isProper
    · exact proper _ _ _ isOld isOldBinding
  case isFalse =>
    exact proper _ _ _ isScope isBound

/-- What a name refers to is proper. -/
theorem resolve
    {id : ScopeId}
    {name : String}
    {binding : Binding}
    (proper : store.Proper)
    (isResolved : store.resolve? id name = some binding) :
    binding.value.Proper := by
  obtain ⟨owner, _, isBound⟩ := Option.bind_eq_some_iff.mp isResolved
  obtain ⟨scope, isScope, isFound⟩ := Option.bind_eq_some_iff.mp isBound
  exact proper _ _ _ isScope (List.mem_of_find?_eq_some isFound)

end Store.Proper

/-- Whether a value that may be missing is proper. -/
def ProperValue (value? : Option Value) : Prop :=
  ∀ value, value? = some value → value.Proper

theorem properValue_none : ProperValue none :=
  nofun

theorem properValue_some
    {value : Value}
    (isProper : value.Proper) :
    ProperValue (some value) := by
  rintro _ ⟨⟩
  exact isProper

/-- Whether a signal fits a place inside or outside of a loop and of a function. -/
def Signal.Proper (inLoop inFunction : Bool) : Signal → Prop
  | .normal value => ProperValue value
  | .broke => inLoop = true
  | .continued => inLoop = true
  | .returned value => inFunction = true ∧ ProperValue value

namespace Signal.Proper

variable {inLoop inFunction : Bool} {signal : Signal}

theorem ofBlock (fits : signal.Proper inLoop inFunction) :
    signal.ofBlock.Proper inLoop inFunction := by
  cases signal with
  | normal value => exact properValue_none
  | broke => exact fits
  | continued => exact fits
  | returned value => exact fits

theorem callValue (fits : signal.Proper inLoop inFunction) :
    ProperValue signal.callValue := by
  cases signal with
  | normal value => exact fits
  | broke => exact properValue_none
  | continued => exact properValue_none
  | returned value => exact fits.2

/-- What fits outside of a loop fits everywhere. -/
theorem inside (fits : signal.Proper false inFunction) :
    signal.Proper inLoop inFunction := by
  cases signal with
  | normal value => exact fits
  | broke => cases fits
  | continued => cases fits
  | returned value => exact fits

end Signal.Proper

/-! ## Operators that can be applied -/

/-- Whether an operation gave a proper value, or a fault other than that of an operator
that cannot be applied. -/
def Applied (Result : α → Prop) : Except RuntimeFault α → Prop
  | .ok value => Result value
  | .error fault => fault.kind ≠ .invalidOpToken

theorem Applied.bind
    {Middle : α → Prop}
    {Result : β → Prop}
    {first : Except RuntimeFault α}
    {next : α → Except RuntimeFault β}
    (applied : Applied Middle first)
    (goesOn : ∀ value, Middle value → Applied Result (next value)) :
    Applied Result (first >>= next) := by
  cases first with
  | ok value => exact goesOn value applied
  | error fault => exact applied

namespace Value

theorem proper_withPayload
    {payload : Payload}
    (value : Value)
    (isPlain : payload.isPlain = true) :
    (value.withPayload payload).Proper :=
  proper_of_isPlain isPlain

theorem numbers_applied (operation : Operation) (left right : Value) :
    Applied (fun _ => True) (numbers operation left right) := by
  unfold numbers
  split
  · exact trivial
  · exact nofun

theorem arithmetic_applied
    (operation : Operation)
    (onInts : Int64 → Int64 → Int64)
    (onFloats : Float → Float → Float)
    (left right : Value) :
    Applied Proper (arithmetic operation onInts onFloats left right) := by
  refine (numbers_applied operation left right).bind ?_
  intro pair _
  cases pair with
  | ints => exact proper_withPayload left rfl
  | floats => exact proper_withPayload left rfl

theorem divide_applied (left right : Value) :
    Applied Proper (divide left right) := by
  refine (numbers_applied .divide left right).bind ?_
  intro pair _
  simp only
  split
  · exact nofun
  · exact proper_withPayload left rfl

theorem comparison_applied
    (wanted : Option Ordering → Bool)
    (left right : Value) :
    Applied Proper (comparison wanted left right) := by
  refine (numbers_applied .compare left right).bind ?_
  intro pair _
  exact proper_withPayload left rfl

/-- Every operator above the connectives can be applied to two values. -/
theorem binary_applied
    {kind : TokenKind}
    {level : Nat}
    (hasLevel : kind.level? = some level)
    (isOperator : 3 ≤ level)
    (left right : Value) :
    Applied Proper (binary kind left right) := by
  cases kind with
  | plus | dash | star => exact arithmetic_applied _ _ _ left right
  | slash => exact divide_applied left right
  | greater => exact comparison_applied (· == some .gt) left right
  | greaterEqual =>
      exact comparison_applied (fun order => order == some .gt || order == some .eq)
        left right
  | less => exact comparison_applied (· == some .lt) left right
  | lessEqual =>
      exact comparison_applied (fun order => order == some .lt || order == some .eq)
        left right
  | equalEqual | bangEqual => exact proper_withPayload left rfl
  | orKeyword | andKeyword =>
      cases hasLevel
      exact absurd isOperator (by decide)
  | _ => cases hasLevel

/-- Signs and negations can be applied to a value. -/
theorem unary_applied
    {kind : TokenKind}
    (isUnary : kind.isUnary = true)
    (value : Value) :
    Applied Proper (unary kind value) := by
  cases kind with
  | dash => exact arithmetic_applied _ _ _ value _
  | notKeyword => exact proper_withPayload value rfl
  | _ => cases isUnary

end Value

/-- The operators of the two lowest levels are connectives. -/
theorem Runner.shortCut?_applied
    {kind : TokenKind}
    {level : Nat}
    (hasLevel : kind.level? = some level)
    (isConnective : level < 3)
    (left : Bool) :
    Applied (fun _ => True) (shortCut? kind left) := by
  cases kind with
  | orKeyword | andKeyword => exact trivial
  | _ => cases hasLevel <;> exact absurd isConnective (by decide)

theorem arityFault?_applied
    {expected got : Nat}
    {fault : RuntimeFault}
    (isFault : Runner.arityFault? expected got = some fault) :
    fault.kind ≠ .invalidOpToken := by
  unfold Runner.arityFault? at isFault
  split at isFault
  · cases isFault
    exact nofun
  · split at isFault
    · cases isFault
      exact nofun
    · cases isFault

/-! ## Safe actions -/

theorem Store.checkDeclare_applied
    {store : Store}
    {id : ScopeId}
    {name : String}
    {span : Span}
    {diagnostic : Diagnostic}
    (isRefused : store.checkDeclare id name span = .error diagnostic) :
    diagnostic.kind ≠ .invalidOpToken := by
  unfold checkDeclare at isRefused
  split at isRefused
  · cases isRefused
    exact nofun
  · cases isRefused

theorem Store.assignee_applied
    {store : Store}
    {id : ScopeId}
    {name : String}
    {span : Span}
    {diagnostic : Diagnostic}
    (isRefused : store.assignee id name span = .error diagnostic) :
    diagnostic.kind ≠ .invalidOpToken := by
  unfold assignee at isRefused
  split at isRefused
  · split at isRefused
    · cases isRefused
      exact nofun
    · cases isRefused
  · cases isRefused
    exact nofun

namespace Eval

/-- Whether something is safe to run on all machines with a proper store: the store that
it leaves is proper, and its fault, if it has one, is not that of an operator that
cannot be applied. -/
abbrev Safe (Result : α → Prop) (action : Eval α) : Prop :=
  Ensures Store.Proper (fun diagnostic => diagnostic.kind ≠ .invalidOpToken)
    Result action

namespace Safe

variable {Result : α → Prop}

theorem raise
    {fault : RuntimeFault}
    (isApplied : fault.kind ≠ .invalidOpToken)
    (span : Span) :
    Safe Result (Runner.raise fault span) :=
  fun _ proper => ⟨proper, isApplied⟩

theorem makeValue
    {payload : Payload}
    (isPlain : payload.isPlain = true) :
    Safe Value.Proper (Eval.makeValue payload) :=
  fun _ proper => ⟨proper, Value.proper_of_isPlain isPlain⟩

theorem openScope (frame : Frame) (parent : ScopeId) :
    Safe (fun _ => True) (Eval.openScope frame parent) :=
  fun _ proper => ⟨proper.openScope frame (some parent), trivial⟩

theorem lookUp (name : String) (span : Span) :
    Safe Value.Proper (Eval.lookUp name span) := by
  intro machine proper
  simp only [Eval.lookUp, Store.get]
  cases isResolved : machine.store.resolve? machine.current name with
  | some binding => exact ⟨proper, proper.resolve isResolved⟩
  | none => exact ⟨proper, nofun⟩

theorem assign
    {value : Value}
    (isProper : value.Proper)
    (name : String)
    (span : Span) :
    Safe Value.Proper (Eval.assign name value span) := by
  rintro ⟨store, current⟩ proper
  simp only [Eval.assign]
  cases isAssignee : store.assignee current name span with
  | ok owner => exact ⟨proper.assignIn isProper owner name, isProper⟩
  | error diagnostic => exact ⟨proper, Store.assignee_applied isAssignee⟩

theorem declareIn
    {value : Value}
    (isProper : value.Proper)
    (scope : ScopeId)
    (constant : Bool)
    (name : String)
    (span : Span) :
    Safe (fun _ => True) (Eval.declareIn scope constant name value span) := by
  rintro ⟨store, current⟩ proper
  simp only [Eval.declareIn]
  cases isChecked : store.checkDeclare scope name span with
  | ok _ => exact ⟨proper.bindIn isProper scope, trivial⟩
  | error diagnostic => exact ⟨proper, Store.checkDeclare_applied isChecked⟩

theorem located
    {result : Except RuntimeFault α}
    (applied : Applied Result result)
    (span : Span) :
    Safe Result (Runner.located span result) := by
  cases result with
  | ok value => exact .pure applied
  | error fault => exact .raise applied span

theorem required
    {value? : Option Value}
    (isProper : ProperValue value?)
    (span : Span) :
    Safe Value.Proper (Runner.required span value?) := by
  cases value? with
  | some value => exact .pure (isProper value rfl)
  | none =>
      refine .raise ?_ span
      exact nofun

/-- A value as that of an expression. -/
theorem asValue
    {action : Eval Value}
    (safe : Safe Value.Proper action) :
    Safe ProperValue
      (do
        let value ← action
        pure (some value)) := by
  refine safe.bind ?_
  intro value isProper
  exact .pure (properValue_some isProper)

theorem bindParameters
    {arguments : List (String × Value)}
    (areProper : ∀ argument ∈ arguments, argument.2.Proper)
    (scope : ScopeId)
    (span : Span) :
    Safe (fun _ => True) (Runner.bindParameters scope span arguments) := by
  induction arguments with
  | nil =>
      exact .pure trivial
  | cons argument rest inductionHypothesis =>
      obtain ⟨isProper, areProper⟩ := List.forall_mem_cons.mp areProper
      refine (declareIn isProper scope false argument.1 span).bind ?_
      intro _ _
      exact inductionHypothesis areProper

theorem declareFunction
    {declaration : FunctionDeclaration}
    (isProper : Statement.BodyProper false true declaration.body) :
    Safe (fun _ => True) (Runner.declareFunction declaration) := by
  intro machine proper
  have isProperValue :
      Value.Proper ⟨.function declaration machine.current, machine.current⟩ := by
    rintro _ _ ⟨⟩
    exact isProper
  exact declareIn isProperValue machine.current true declaration.name
    declaration.span machine proper

end Safe

/-- Opens the scope of a call and binds the parameters in it. -/
def enterCall
    (declaration : FunctionDeclaration)
    (closure : ScopeId)
    (arguments : List Value) :
    Eval ScopeId := do
  let scope ←
    Runner.openScope
      (.call declaration.name declaration.span.line declaration.span.fileName)
      closure
  Runner.bindParameters scope declaration.span
    (declaration.parameters.zip arguments)
  pure scope

/-- A call with the right number of arguments enters the scope of the call and runs the
body there. -/
theorem callWith_of_function
    {run : Statement → Eval Signal}
    {callee : Value}
    {declaration : FunctionDeclaration}
    {closure : ScopeId}
    {arguments : List Value}
    (isFunction : callee.payload = .function declaration closure)
    (fits : Runner.arityFault? declaration.parameters.length arguments.length =
      none)
    (span : Span) :
    Runner.callWith run callee arguments span =
      (do
        let scope ← enterCall declaration closure arguments
        let signal ← Runner.within scope
          (Runner.sequence run none declaration.body)
        pure signal.callValue) := by
  funext machine
  simp only [Runner.callWith, isFunction, fits, enterCall, Eval.bind_apply]
  cases (Runner.openScope _ closure : Eval ScopeId) machine with
  | done scope opened =>
      simp only [Outcome.done_andThen, Eval.bind_apply]
      cases (Runner.bindParameters scope declaration.span
        (declaration.parameters.zip arguments) : Eval Unit) opened with
      | done _ bound => rfl
      | failed diagnostic bound => rfl
      | exhausted => rfl
  | failed diagnostic opened => rfl
  | exhausted => rfl

namespace Safe

theorem enterCall
    {arguments : List Value}
    (areProper : ∀ argument ∈ arguments, argument.Proper)
    (declaration : FunctionDeclaration)
    (closure : ScopeId) :
    Safe (fun _ => True) (Eval.enterCall declaration closure arguments) := by
  refine (openScope _ closure).bind ?_
  intro scope _
  have given : ∀ argument ∈ declaration.parameters.zip arguments,
      argument.2.Proper :=
    fun argument isGiven => areProper _ (List.of_mem_zip isGiven).2
  refine (bindParameters given scope declaration.span).bind ?_
  intro _ _
  exact .pure trivial

/-- The body of a function that is called fits its place, and the jumps that leave
it are at most those of a function. -/
theorem callWith
    {run : Statement → Eval Signal}
    {callee : Value}
    {arguments : List Value}
    (runs : ∀ statement, statement.Proper false true →
      Safe (Signal.Proper false true) (run statement))
    (isProper : callee.Proper)
    (areProper : ∀ argument ∈ arguments, argument.Proper)
    (span : Span) :
    Safe ProperValue (Runner.callWith run callee arguments span) := by
  cases isPayload : callee.payload with
  | function declaration closure =>
      cases isFault : Runner.arityFault? declaration.parameters.length
          arguments.length with
      | some fault =>
          simp only [Runner.callWith, isPayload, isFault]
          exact raise (arityFault?_applied isFault) span
      | none =>
          rw [callWith_of_function isPayload isFault]
          refine (enterCall areProper declaration closure).bind ?_
          intro scope _
          have runsBody := Ensures.sequence
            (fun statement isIn =>
              runs statement (isProper declaration closure isPayload statement isIn))
            properValue_none
          refine (runsBody.within scope).bind ?_
          intro signal fits
          exact .pure fits.callValue
  | int | float | bool =>
      simp only [Runner.callWith, isPayload]
      refine raise ?_ span
      exact nofun

end Safe

end Eval

/-! ## Safe runs -/

/-- That runs with a number of steps are safe. -/
structure RunsSafely (steps : Nat) : Prop where
  evaluate : ∀ {expression : Expression}, expression.Levelled →
    Eval.Safe ProperValue (Runner.evaluate steps expression)
  execute : ∀ {inLoop inFunction : Bool} {statement : Statement},
    statement.Proper inLoop inFunction →
    Eval.Safe (Signal.Proper inLoop inFunction) (Runner.execute steps statement)
  loop : ∀ {inFunction : Bool} {condition : Expression} {body : Statement},
    condition.Levelled → body.Proper true inFunction →
    Eval.Safe (Signal.Proper false inFunction)
      (Runner.loop steps condition body)

namespace RunsSafely

variable {steps : Nat}

/-- The value of an expression that has to have one. -/
theorem required
    {expression : Expression}
    (runs : RunsSafely steps)
    (levelled : expression.Levelled) :
    Eval.Safe Value.Proper
      (do
        Runner.required expression.span
          (← Runner.evaluate steps expression)) := by
  refine (runs.evaluate levelled).bind ?_
  intro value isProper
  exact Eval.Safe.required isProper expression.span

/-- Going on with the value of an expression that has to have one. -/
theorem andRequired
    {Result : α → Prop}
    {expression : Expression}
    {next : Value → Eval α}
    (runs : RunsSafely steps)
    (levelled : expression.Levelled)
    (goesOn : ∀ value, value.Proper → Eval.Safe Result (next value)) :
    Eval.Safe Result
      (do
        let value ←
          Runner.required expression.span
            (← Runner.evaluate steps expression)
        next value) := by
  refine (runs.evaluate levelled).bind ?_
  intro value isProper
  exact (Eval.Safe.required isProper expression.span).bind goesOn

/-- What a condition is found to be. -/
theorem truth
    {condition : Expression}
    (runs : RunsSafely steps)
    (levelled : condition.Levelled) :
    Eval.Safe (fun _ => True)
      (do
        let value ←
          Runner.required condition.span
            (← Runner.evaluate steps condition)
        pure value.isTrue) := by
  refine runs.andRequired levelled ?_
  intro value _
  exact .pure trivial

theorem evaluate_succ
    {expression : Expression}
    (runs : RunsSafely steps)
    (levelled : expression.Levelled) :
    Eval.Safe ProperValue (Runner.evaluate (steps + 1) expression) := by
  cases expression with
  | literal literal span =>
      have isPlain : literal.payload.isPlain = true := by
        cases literal <;> rfl
      exact (Eval.Safe.makeValue isPlain).asValue
  | reference name span =>
      exact (Eval.Safe.lookUp name span).asValue
  | assign name right span =>
      refine runs.andRequired levelled ?_
      intro value isProper
      exact (Eval.Safe.assign isProper name span).asValue
  | getAttribute object name span =>
      refine runs.andRequired levelled.2 ?_
      intro value _
      have applied : Applied Value.Proper (value.getAttribute name) := nofun
      exact (Eval.Safe.located applied span).asValue
  | setAttribute object name right span =>
      obtain ⟨⟨_, objectLevelled⟩, rightLevelled⟩ := levelled
      refine runs.andRequired objectLevelled ?_
      intro target _
      refine runs.andRequired rightLevelled ?_
      intro value _
      have applied : Applied Value.Proper (target.setAttribute name value) :=
        nofun
      exact (Eval.Safe.located applied span).asValue
  | unary operator operand span =>
      obtain ⟨isUnary, _, operandLevelled⟩ := levelled
      refine runs.andRequired operandLevelled ?_
      intro value _
      have applied := Value.unary_applied isUnary value
      exact (Eval.Safe.located applied span).asValue
  | binary left operator right span =>
      obtain ⟨level, hasLevel, isOperator, ⟨_, leftLevelled⟩, _,
        rightLevelled⟩ := levelled
      refine runs.andRequired leftLevelled ?_
      intro leftValue _
      refine runs.andRequired rightLevelled ?_
      intro rightValue _
      have applied :=
        Value.binary_applied hasLevel isOperator leftValue rightValue
      exact (Eval.Safe.located applied span).asValue
  | logical left operator right span =>
      obtain ⟨level, hasLevel, isConnective, ⟨_, leftLevelled⟩, _,
        rightLevelled⟩ := levelled
      refine runs.andRequired leftLevelled ?_
      intro leftValue _
      have applied :=
        Runner.shortCut?_applied hasLevel isConnective leftValue.isTrue
      refine (Eval.Safe.located applied span).bind ?_
      intro decided _
      cases decided with
      | some truth =>
          exact (Eval.Safe.makeValue rfl).asValue
      | none =>
          refine runs.andRequired rightLevelled ?_
          intro rightValue _
          exact (Eval.Safe.makeValue rfl).asValue
  | grouping inner span =>
      exact runs.evaluate levelled
  | call callee arguments span =>
      obtain ⟨⟨_, calleeLevelled⟩, argumentsLevelled⟩ := levelled
      refine runs.andRequired calleeLevelled ?_
      intro function isProper
      have given := Eval.Ensures.forEach fun argument isGiven =>
        runs.required
          (Expression.levelled_of_all argumentsLevelled argument isGiven)
      refine given.bind ?_
      intro values areProper
      exact Eval.Safe.callWith (fun _ => runs.execute) isProper areProper span

theorem execute_succ
    {inLoop inFunction : Bool}
    {statement : Statement}
    (runs : RunsSafely steps)
    (proper : statement.Proper inLoop inFunction) :
    Eval.Safe (Signal.Proper inLoop inFunction)
      (Runner.execute (steps + 1) statement) := by
  cases statement with
  | expression inner =>
      refine (runs.evaluate proper.expression).bind ?_
      intro value isProper
      exact .pure isProper
  | declaration constant name initializer span =>
      refine runs.andRequired proper.declaration ?_
      intro value isProper
      refine Eval.Ensures.currentScope.bind ?_
      intro scope _
      refine (Eval.Safe.declareIn isProper scope constant name span).bind ?_
      intro _ _
      exact .pure (properValue_some isProper)
  | function name parameters body span =>
      refine (Eval.Safe.declareFunction proper.function).bind ?_
      intro _ _
      exact .pure properValue_none
  | block body span =>
      refine Eval.Ensures.currentScope.bind ?_
      intro parent _
      refine (Eval.Safe.openScope _ parent).bind ?_
      intro scope _
      have runsBody := Eval.Ensures.sequence
        (fun statement isIn => runs.execute (proper.block statement isIn))
        properValue_none
      refine (runsBody.within scope).bind ?_
      intro signal fits
      exact .pure fits.ofBlock
  | whileLoop condition body span =>
      obtain ⟨levelled, bodyProper⟩ := proper.whileLoop
      exact (runs.loop levelled bodyProper).imp fun _ fits => fits.inside
  | conditional branches otherwise span =>
      obtain ⟨branchesProper, otherwiseProper⟩ := proper.conditional
      refine (Eval.Ensures.firstTrue ?_).bind ?_
      · intro branch isBranch
        exact runs.truth (branchesProper branch isBranch).1
      intro chosen isBody
      cases chosen with
      | some body =>
          obtain ⟨branch, isBranch, rfl⟩ := isBody body rfl
          exact runs.execute (branchesProper branch isBranch).2
      | none =>
          cases otherwise with
          | some body => exact runs.execute (otherwiseProper body rfl)
          | none => exact .pure properValue_none
  | breakLoop span =>
      exact .pure proper.1
  | continueLoop span =>
      exact .pure proper.1
  | returnValue result span =>
      obtain ⟨isInFunction, levelled⟩ := proper.returnValue
      cases result with
      | none =>
          exact .pure ⟨isInFunction, properValue_none⟩
      | some result =>
          refine (runs.evaluate (levelled result rfl)).bind ?_
          intro value isProper
          exact .pure ⟨isInFunction, isProper⟩

/-- A loop takes the jumps of its body that leave it or go on with it. -/
theorem loop_succ
    {inFunction : Bool}
    {condition : Expression}
    {body : Statement}
    (runs : RunsSafely steps)
    (levelled : condition.Levelled)
    (proper : body.Proper true inFunction) :
    Eval.Safe (Signal.Proper false inFunction)
      (Runner.loop (steps + 1) condition body) := by
  refine runs.andRequired levelled ?_
  intro value _
  cases value.isTrue with
  | false =>
      exact .pure properValue_none
  | true =>
      refine (runs.execute proper).bind ?_
      intro signal fits
      cases signal with
      | normal value => exact runs.loop levelled proper
      | broke => exact .pure properValue_none
      | continued => exact runs.loop levelled proper
      | returned value => exact .pure fits

end RunsSafely

/-- All runs are safe. -/
theorem runsSafely (steps : Nat) : RunsSafely steps := by
  induction steps with
  | zero =>
      exact ⟨fun _ => .exhausted, fun _ => .exhausted, fun _ _ => .exhausted⟩
  | succ fewer runs =>
      exact ⟨runs.evaluate_succ, runs.execute_succ, runs.loop_succ⟩

/-- Programs run safely. -/
theorem Eval.safe_program
    {inLoop inFunction : Bool}
    {statements : List Statement}
    (proper : Statement.BodyProper inLoop inFunction statements)
    (steps : Nat) :
    Eval.Safe (fun _ => True) (Eval.program steps statements) := by
  induction statements with
  | nil =>
      exact .pure trivial
  | cons first rest inductionHypothesis =>
      obtain ⟨firstProper, restProper⟩ := List.forall_mem_cons.mp proper
      refine ((runsSafely steps).execute firstProper).bind ?_
      intro signal _
      refine (inductionHypothesis restProper).bind ?_
      intro values _
      exact .pure trivial

end Scriptlet
