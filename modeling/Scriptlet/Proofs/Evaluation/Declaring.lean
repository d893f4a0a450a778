import Scriptlet.Proofs.Evaluation.Ensured
import Scriptlet.Proofs.Evaluation.Watched
import Scriptlet.Proofs.Grammar.JoinedTexts
import Scriptlet.Proofs.Store.Bound
import Scriptlet.Session

namespace Scriptlet

/-!
# Declarations stay in their scope

Of the scopes that are there before a run, a statement adds names at most to the one that
it is run in.  Expressions add none at all: the calls in them bind the parameters, and
declare what the bodies declare, in scopes that they open themselves, and so do blocks.
What an action declares is shown first, then what an expression and a statement declare
if all shorter runs are as they should be, and then, by induction on the number of steps,
that all runs are.
-/

/-- Whether a run in a scope ended there, on a store in which only the given ones of the
scopes from before bind other names. -/
inductive Outcome.DeclaresIn
    (scopes : Set ScopeId)
    (before : Store)
    (current : ScopeId) :
    Outcome α → Prop where
  | done
      (keeps : before.KeepsNames scopes after) :
      DeclaresIn scopes before current (.done value ⟨after, current⟩)
  | failed
      (keeps : before.KeepsNames scopes after) :
      DeclaresIn scopes before current (.failed diagnostic ⟨after, current⟩)
  | exhausted :
      DeclaresIn scopes before current .exhausted

namespace Outcome.DeclaresIn

variable {scopes : Set ScopeId} {before : Store} {current : ScopeId}
  {outcome : Outcome α}

/-- What is declared from a later point on, seen from an earlier one. -/
theorem earlier
    {others : Set ScopeId}
    {first : Store}
    (declares : outcome.DeclaresIn others before current)
    (keeps : ∀ after, before.KeepsNames others after →
      first.KeepsNames scopes after) :
    outcome.DeclaresIn scopes first current := by
  cases declares with
  | done later => exact .done (keeps _ later)
  | failed later => exact .failed (keeps _ later)
  | exhausted => exact .exhausted

/-- The names on the store that is left behind. -/
theorem keepsNames
    {after : Store}
    (declares : outcome.DeclaresIn scopes before current)
    (isLeft : outcome.store? = some after) :
    before.KeepsNames scopes after := by
  cases declares with
  | done keeps =>
      cases isLeft
      exact keeps
  | failed keeps =>
      cases isLeft
      exact keeps
  | exhausted => cases isLeft

end Outcome.DeclaresIn

namespace Eval

/-- Whether an action, run in the given scope, declares names in some scopes only. -/
def DeclaresIn (scopes : Set ScopeId) (current : ScopeId) (action : Eval α) : Prop :=
  ∀ store, (action ⟨store, current⟩).DeclaresIn scopes store current

namespace DeclaresIn

variable {scopes : Set ScopeId} {current : ScopeId}

theorem pure {value : α} : DeclaresIn scopes current (Pure.pure value) :=
  fun store => .done (.refl store)

theorem bind
    {first : Eval α}
    {next : α → Eval β}
    (declares : DeclaresIn scopes current first)
    (goesOn : ∀ value, DeclaresIn scopes current (next value)) :
    DeclaresIn scopes current (first >>= next) := by
  intro store
  have ended := declares store
  rw [bind_apply]
  generalize first ⟨store, current⟩ = outcome at ended
  cases ended with
  | done keeps => exact (goesOn _ _).earlier fun _ => keeps.trans
  | failed keeps => exact .failed keeps
  | exhausted => exact .exhausted

/-! ## The actions -/

theorem exhausted : DeclaresIn scopes current (Runner.exhausted : Eval α) :=
  fun _ => .exhausted

theorem raise (fault : RuntimeFault) (span : Span) :
    DeclaresIn scopes current (Runner.raise fault span : Eval α) :=
  fun store => .failed (.refl store)

theorem makeValue (payload : Payload) :
    DeclaresIn scopes current (Runner.makeValue payload) :=
  fun store => .done (.refl store)

theorem lookUp (name : String) (span : Span) :
    DeclaresIn scopes current (Runner.lookUp name span) := by
  intro store
  simp only [Runner.lookUp, Runner.perform, Eval.lookUp]
  cases store.get current name span with
  | ok value => exact .done (.refl store)
  | error diagnostic => exact .failed (.refl store)

theorem assign (name : String) (value : Value) (span : Span) :
    DeclaresIn scopes current (Runner.assign name value span) := by
  intro store
  simp only [Runner.assign, Runner.perform, Eval.assign]
  cases store.assignee current name span with
  | ok owner => exact .done (.assignIn store owner name value)
  | error diagnostic => exact .failed (.refl store)

theorem declareIn
    {scope : ScopeId}
    (isAllowed : scope ∈ scopes)
    (constant : Bool)
    (name : String)
    (value : Value)
    (span : Span) :
    DeclaresIn scopes current (Runner.declareIn scope constant name value span) := by
  intro store
  simp only [Runner.declareIn, Runner.perform, Eval.declareIn]
  cases store.checkDeclare scope name span with
  | ok _ => exact .done (.bindIn isAllowed _)
  | error diagnostic => exact .failed (.refl store)

/-- Going on with the scope that is being run. -/
theorem currentScope
    {next : ScopeId → Eval α}
    (goesOn : DeclaresIn scopes current (next current)) :
    DeclaresIn scopes current (Runner.currentScope >>= next) :=
  goesOn

/-- Going on with a new scope, in which anything may be declared. -/
theorem openScope
    {next : ScopeId → Eval α}
    (goesOn : ∀ scope, DeclaresIn {scope} current (next scope))
    (frame : Frame)
    (parent : ScopeId) :
    DeclaresIn scopes current (Runner.openScope frame parent >>= next) :=
  fun store =>
    (goesOn store.nextId (store.openScope frame (some parent))).earlier
      fun _ => .of_openScope

theorem within
    {scope : ScopeId}
    {body : Eval α}
    (declares : DeclaresIn scopes scope body) :
    DeclaresIn scopes current (Runner.within scope body) := by
  intro store
  have ended := declares store
  simp only [Runner.within, Eval.within]
  generalize body ⟨store, scope⟩ = outcome at ended
  cases ended with
  | done keeps => exact .done keeps
  | failed keeps => exact .failed keeps
  | exhausted => exact .exhausted

/-! ## Parts that need no recursion -/

theorem required (span : Span) (value? : Option Value) :
    DeclaresIn scopes current (Runner.required span value?) := by
  cases value? with
  | some value => exact .pure
  | none => exact .raise .noValue span

theorem located (span : Span) (result : Except RuntimeFault α) :
    DeclaresIn scopes current (Runner.located span result) := by
  cases result with
  | ok value => exact .pure
  | error fault => exact .raise fault span

/-- A value as that of an expression. -/
theorem asValue
    {action : Eval Value}
    (declares : DeclaresIn scopes current action) :
    DeclaresIn scopes current
      (do
        let value ← action
        Pure.pure (some value)) :=
  declares.bind fun _ => .pure

theorem forEach
    {run : α → Eval β}
    (runs : ∀ item, DeclaresIn scopes current (run item))
    (items : List α) :
    DeclaresIn scopes current (Runner.forEach run items) := by
  induction items with
  | nil => exact .pure
  | cons first rest inductionHypothesis =>
      refine (runs first).bind fun result => ?_
      exact inductionHypothesis.bind fun _ => .pure

theorem sequence
    {run : Statement → Eval Signal}
    (runs : ∀ statement, DeclaresIn scopes current (run statement))
    (last : Option Value)
    (statements : List Statement) :
    DeclaresIn scopes current (Runner.sequence run last statements) := by
  induction statements generalizing last with
  | nil => exact .pure
  | cons first rest inductionHypothesis =>
      refine (runs first).bind fun signal => ?_
      cases signal with
      | normal value => exact inductionHypothesis value
      | broke => exact .pure
      | continued => exact .pure
      | returned value => exact .pure

theorem firstTrue
    {test : Expression → Eval Bool}
    (tests : ∀ condition, DeclaresIn scopes current (test condition))
    (branches : List (Expression × Statement)) :
    DeclaresIn scopes current (Runner.firstTrue test branches) := by
  induction branches with
  | nil => exact .pure
  | cons branch rest inductionHypothesis =>
      refine (tests branch.1).bind fun truth => ?_
      cases truth with
      | true => exact .pure
      | false => exact inductionHypothesis

theorem bindParameters
    {scope : ScopeId}
    (isAllowed : scope ∈ scopes)
    (span : Span)
    (given : List (String × Value)) :
    DeclaresIn scopes current (Runner.bindParameters scope span given) := by
  induction given with
  | nil => exact .pure
  | cons first rest inductionHypothesis =>
      exact (declareIn isAllowed false first.1 first.2 span).bind
        fun _ => inductionHypothesis

/-- The parameters of a call, and what its body declares, are bound in the scope that the
call opens. -/
theorem callWith
    {run : Statement → Eval Signal}
    (runs : ∀ scope statement, DeclaresIn {scope} scope (run statement))
    (callee : Value)
    (arguments : List Value)
    (span : Span) :
    DeclaresIn scopes current (Runner.callWith run callee arguments span) := by
  unfold Runner.callWith
  cases callee.payload with
  | function declaration closure =>
      simp only
      split
      · next fault _ => exact .raise fault span
      · refine openScope (fun scope => ?_) _ closure
        refine (bindParameters (Set.mem_singleton scope) _ _).bind fun _ => ?_
        exact (within (sequence (runs scope) none declaration.body)).bind
          fun _ => .pure
  | _ => exact .raise _ span

end DeclaresIn

/-! ## Expressions and statements -/

/-- That with some number of steps, expressions declare nothing, and statements and loops
declare names in the scope that they are run in. -/
structure RunsDeclare (steps : Nat) : Prop where
  evaluate : ∀ {scopes current} expression,
    DeclaresIn scopes current (evaluate steps expression)
  execute : ∀ {scopes current}, current ∈ scopes → ∀ statement,
    DeclaresIn scopes current (execute steps statement)
  loop : ∀ {scopes current}, current ∈ scopes → ∀ condition body,
    DeclaresIn scopes current (loop steps condition body)

namespace RunsDeclare

variable {steps : Nat} {scopes : Set ScopeId} {current : ScopeId}

/-- Going on with the value of an expression that has to have one. -/
theorem andRequired
    {next : Value → Eval α}
    (runs : RunsDeclare steps)
    (expression : Expression)
    (goesOn : ∀ value, DeclaresIn scopes current (next value)) :
    DeclaresIn scopes current
      (do
        let value ←
          Runner.required expression.span
            (← Runner.evaluate steps expression)
        next value) :=
  (runs.evaluate expression).bind fun value? =>
    (DeclaresIn.required expression.span value?).bind goesOn

theorem call
    (runs : RunsDeclare steps)
    (callee : Value)
    (arguments : List Value)
    (span : Span) :
    DeclaresIn scopes current (Eval.call steps callee arguments span) :=
  .callWith (fun scope => runs.execute (Set.mem_singleton scope)) callee arguments span

theorem evaluate_succ (runs : RunsDeclare steps) (expression : Expression) :
    DeclaresIn scopes current (Eval.evaluate (steps + 1) expression) := by
  cases expression with
  | literal literal span => exact (DeclaresIn.makeValue _).asValue
  | reference name span => exact (DeclaresIn.lookUp name span).asValue
  | assign name right span =>
      refine runs.andRequired right fun value => ?_
      exact (DeclaresIn.assign name value span).asValue
  | getAttribute object name span =>
      refine runs.andRequired object fun value => ?_
      exact (DeclaresIn.located span _).asValue
  | setAttribute object name right span =>
      refine runs.andRequired object fun target => ?_
      refine runs.andRequired right fun value => ?_
      exact (DeclaresIn.located span _).asValue
  | unary operator operand span =>
      refine runs.andRequired operand fun value => ?_
      exact (DeclaresIn.located span _).asValue
  | binary left operator right span =>
      refine runs.andRequired left fun leftValue => ?_
      refine runs.andRequired right fun rightValue => ?_
      exact (DeclaresIn.located span _).asValue
  | logical left operator right span =>
      refine runs.andRequired left fun leftValue => ?_
      refine (DeclaresIn.located span _).bind fun decided => ?_
      cases decided with
      | some truth => exact (DeclaresIn.makeValue _).asValue
      | none =>
          refine runs.andRequired right fun rightValue => ?_
          exact (DeclaresIn.makeValue _).asValue
  | grouping inner span => exact runs.evaluate inner
  | call callee arguments span =>
      refine runs.andRequired callee fun function => ?_
      refine (DeclaresIn.forEach (fun argument => ?_) arguments).bind fun values => ?_
      · exact (runs.evaluate argument).bind fun value? => .required argument.span value?
      · exact runs.call function values span

/-- A block declares in the scope that it opens. -/
theorem block (runs : RunsDeclare steps) (body : List Statement) (span : Span) :
    DeclaresIn scopes current (Eval.execute (steps + 1) (.block body span)) := by
  refine .currentScope (.openScope (fun scope => ?_) _ current)
  have runsBody := DeclaresIn.sequence
    (runs.execute (Set.mem_singleton scope)) none body
  exact runsBody.within.bind fun _ => .pure

theorem execute_succ
    (runs : RunsDeclare steps)
    (isAllowed : current ∈ scopes)
    (statement : Statement) :
    DeclaresIn scopes current (Eval.execute (steps + 1) statement) := by
  cases statement with
  | expression inner =>
      exact (runs.evaluate inner).bind fun _ => .pure
  | declaration constant name initializer span =>
      refine runs.andRequired initializer fun value => .currentScope ?_
      exact (DeclaresIn.declareIn isAllowed constant name value span).bind
        fun _ => .pure
  | function name parameters body span =>
      have declares : DeclaresIn scopes current
          (Runner.declareFunction ⟨name, parameters, body, span⟩) := by
        refine .currentScope ((DeclaresIn.makeValue _).bind fun value => ?_)
        exact .declareIn isAllowed true name value span
      exact declares.bind fun _ => .pure
  | block body span => exact runs.block body span
  | whileLoop condition body span => exact runs.loop isAllowed condition body
  | conditional branches otherwise span =>
      refine (DeclaresIn.firstTrue (fun condition => ?_) branches).bind fun chosen => ?_
      · exact runs.andRequired condition fun _ => .pure
      · cases chosen.or otherwise with
        | some body => exact runs.execute isAllowed body
        | none => exact .pure
  | breakLoop span => exact .pure
  | continueLoop span => exact .pure
  | returnValue result span =>
      cases result with
      | none => exact .pure
      | some result =>
          exact (runs.evaluate result).bind fun _ => .pure

theorem loop_succ
    (runs : RunsDeclare steps)
    (isAllowed : current ∈ scopes)
    (condition : Expression)
    (body : Statement) :
    DeclaresIn scopes current (Eval.loop (steps + 1) condition body) := by
  refine runs.andRequired condition fun value => ?_
  cases value.isTrue with
  | false => exact .pure
  | true =>
      refine (runs.execute isAllowed body).bind fun signal => ?_
      cases signal with
      | normal value => exact runs.loop isAllowed condition body
      | broke => exact .pure
      | continued => exact runs.loop isAllowed condition body
      | returned result => exact .pure

end RunsDeclare

theorem runsDeclare (steps : Nat) : RunsDeclare steps := by
  induction steps with
  | zero => exact ⟨fun _ => .exhausted, fun _ _ => .exhausted, fun _ _ _ => .exhausted⟩
  | succ fewer runs =>
      exact ⟨runs.evaluate_succ, runs.execute_succ, runs.loop_succ⟩

end Eval

/-! ## What is declared in the scope that is run -/

/-- Whether whatever a statement declares belongs to a scope inside of it. -/
def Statement.isEnclosed : Statement → Bool
  | .expression _ | .block _ _ | .returnValue _ _ => true
  | _ => false

/-- The name that a statement binds in the scope that it is run in. -/
def Statement.declaredName? : Statement → Option String
  | .declaration _ name _ _ => some name
  | .function name _ _ _ => some name
  | _ => none

namespace Eval

variable {steps : Nat} {store : Store} {scope : ScopeId} {final : Machine}

theorem declaresIn_of_isEnclosed
    {scopes : Set ScopeId}
    {statement : Statement}
    (isEnclosed : statement.isEnclosed = true)
    (steps : Nat) :
    DeclaresIn scopes scope (execute steps statement) := by
  cases steps with
  | zero => exact .exhausted
  | succ fewer =>
      have runs := runsDeclare fewer
      cases statement with
      | expression inner => exact (runs.evaluate inner).bind fun _ => .pure
      | block body span => exact runs.block body span
      | returnValue result span =>
          cases result with
          | none => exact .pure
          | some result => exact (runs.evaluate result).bind fun _ => .pure
      | _ => cases isEnclosed

/-- A declaration that succeeds adds its name to those of its scope. -/
theorem binds_of_declareIn
    {constant : Bool}
    {name : String}
    {value : Value}
    {span : Span}
    {current : ScopeId}
    (isKnown : scope < store.nextId)
    (isDone :
      declareIn scope constant name value span ⟨store, current⟩ = .done () final)
    (other : String) :
    final.store.Binds scope other ↔ other = name ∨ store.Binds scope other := by
  simp only [declareIn] at isDone
  split at isDone
  · cases isDone
    rw [Store.Binds, Store.binding?_bindIn isKnown]
    by_cases isName : name = other
    · simp [isName]
    · simp [isName, Ne.symm isName, Store.Binds]
  · cases isDone

/-- A declaration or a function that is run to its end adds its name to those of the
scope that it is run in, and no other. -/
theorem binds_of_declaredName?
    {statement : Statement}
    {name : String}
    {signal : Signal}
    (declares : statement.declaredName? = some name)
    (isKnown : scope < store.nextId)
    (isDone : execute steps statement ⟨store, scope⟩ = .done signal final)
    (other : String) :
    final.store.Binds scope other ↔ other = name ∨ store.Binds scope other := by
  cases steps with
  | zero => cases isDone
  | succ fewer =>
      cases statement with
      | declaration constant declared initializer span =>
          cases declares
          obtain ⟨value?, evaluated, ran, isDone⟩ := Outcome.andThen_eq_done isDone
          obtain ⟨value, _, isRequired, isDone⟩ := Outcome.andThen_eq_done isDone
          obtain ⟨_, _, ⟨⟩, isDone⟩ := Outcome.andThen_eq_done isDone
          obtain ⟨⟨⟩, _, isDeclared, isDone⟩ := Outcome.andThen_eq_done isDone
          cases isDone
          have declaresNothing :
              DeclaresIn ∅ scope (Runner.evaluate fewer initializer) :=
            (runsDeclare fewer).evaluate initializer
          have ended := declaresNothing store
          rw [ran] at ended
          cases ended with
          | done keeps =>
              cases value? with
              | none => cases isRequired
              | some found =>
                  cases isRequired
                  have stillKnown := Nat.lt_of_lt_of_le isKnown keeps.nextId_le
                  exact (binds_of_declareIn stillKnown isDeclared other).trans
                    (or_congr Iff.rfl
                      (keeps.binds_iff scope isKnown (Set.notMem_empty scope) other))
      | function declared parameters body span =>
          cases declares
          obtain ⟨⟨⟩, _, isDeclared, isDone⟩ := Outcome.andThen_eq_done isDone
          cases isDone
          exact binds_of_declareIn isKnown isDeclared other
      | _ => cases declares

end Eval

/-- Of all scopes that are there before, a statement that is run to its end, in whatever
way it ends, leaves the names as they are but for the scope that it is run in; and for
this scope too if it is an expression, a block or a return.  A declaration that succeeds
adds its own name there and no other.  A call changes the names of no scope. -/
theorem declarations_stay (steps : Nat) (store : Store) (scope : ScopeId) :
    (∀ statement after,
      (Eval.execute steps statement ⟨store, scope⟩).store? = some after →
      store.KeepsNames {scope} after ∧
        (statement.isEnclosed = true → store.KeepsNames ∅ after)) ∧
    (∀ statement name signal final, statement.declaredName? = some name →
      scope < store.nextId →
      Eval.execute steps statement ⟨store, scope⟩ = .done signal final →
      ∀ other, final.store.Binds scope other ↔
        other = name ∨ store.Binds scope other) ∧
    ∀ callee arguments span after,
      (Eval.call steps callee arguments span ⟨store, scope⟩).store? = some after →
      store.KeepsNames ∅ after := by
  have runs := Eval.runsDeclare steps
  refine ⟨?_, ?_, ?_⟩
  · intro statement after isLeft
    have declares : Eval.DeclaresIn {scope} scope (Eval.execute steps statement) :=
      runs.execute (Set.mem_singleton scope) statement
    refine ⟨(declares store).keepsNames isLeft, ?_⟩
    intro isEnclosed
    have declaresNothing : Eval.DeclaresIn ∅ scope (Eval.execute steps statement) :=
      Eval.declaresIn_of_isEnclosed isEnclosed steps
    exact (declaresNothing store).keepsNames isLeft
  · intro statement name signal final declares isKnown isDone
    exact Eval.binds_of_declaredName? declares isKnown isDone
  · intro callee arguments span after isLeft
    have declaresNothing :
        Eval.DeclaresIn ∅ scope (Eval.call steps callee arguments span) :=
      runs.call callee arguments span
    exact (declaresNothing store).keepsNames isLeft

theorem readAs_functionAndCall :
    ∃ program,
      (SourceUnit.mk "main"
        "function f(a) \x7b var b = a \x7d\n\x7b var c = f(1) \x7d").ReadAs program ∧
      (match program with
      | [.function name parameters body place, block] =>
          match Eval.execute 9 (.function name parameters body place)
            ⟨Store.empty.openFile "main", 0⟩ with
          | .done (.normal none) opened =>
              match (Eval.execute 9 block opened).store?,
                (Eval.call 9 ⟨.function ⟨name, parameters, body, place⟩ 0, 0⟩
                  [⟨.bool true, 0⟩] place opened).store? with
              | some after, some last =>
                  name = "f" ∧ block.isEnclosed ∧ opened.current = 0 ∧
                    after.nextId = 3 ∧ last.nextId = 2
              | _, _ => false
          | _ => false
      | _ => false) = true :=
  SourceUnit.exists_readAs _ _ (by decide +kernel) (by decide +kernel)

/-- A call of a function that declares a name of its own, in a block that declares another
one: both names stay in the scopes that are opened for them. -/
theorem declarations_stay_call :
    ∃ name parameters body place block opened after last,
      (SourceUnit.mk "main"
          "function f(a) \x7b var b = a \x7d\n\x7b var c = f(1) \x7d").ReadAs
        [.function name parameters body place, block] ∧
      Eval.execute 9 (.function name parameters body place)
          ⟨Store.empty.openFile "main", 0⟩ = .done (.normal none) opened ∧
      (∀ other, opened.store.Binds 0 other ↔
        other = "f" ∨ (Store.empty.openFile "main").Binds 0 other) ∧
      (Eval.execute 9 block opened).store? = some after ∧
      after.nextId = 3 ∧ opened.store.KeepsNames {0} after ∧
      opened.store.KeepsNames ∅ after ∧
      (Eval.call 9 ⟨.function ⟨name, parameters, body, place⟩ 0, 0⟩ [⟨.bool true, 0⟩]
        place opened).store? = some last ∧
      last.nextId = 2 ∧ opened.store.KeepsNames ∅ last := by
  obtain ⟨program, reads, isEnd⟩ := readAs_functionAndCall
  split at isEnd
  case h_2 => cases isEnd
  case h_1 name parameters body place block =>
    split at isEnd
    case h_2 => cases isEnd
    case h_1 opened isOpened =>
      split at isEnd
      case h_2 => cases isEnd
      case h_1 after last isLeft isLast =>
        obtain ⟨rfl, isEnclosed, isScope, isMore, isNext⟩ := of_decide_eq_true isEnd
        obtain ⟨opened, _⟩ := opened
        obtain rfl := isScope
        have before := declarations_stay 9 (Store.empty.openFile "main") 0
        have declared := declarations_stay 9 opened 0
        obtain ⟨keepsOthers, keepsAll⟩ := declared.1 _ after isLeft
        exact ⟨"f", parameters, body, place, block, ⟨opened, 0⟩, after, last, reads,
          isOpened, before.2.1 _ "f" _ _ rfl (by decide) isOpened, isLeft, isMore,
          keepsOthers, keepsAll isEnclosed, isLast, isNext, declared.2.2 _ _ _ last isLast⟩

end Scriptlet
