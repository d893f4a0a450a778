import Scriptlet.Proofs.Evaluation.Watched
import Scriptlet.Proofs.Store.Placed

namespace Scriptlet

/-!
# Runs that keep functions in their places

A phrase is run in a scope whose frames are those around the phrase.  This is so because
the scope of a block or of a call is opened under the right scope, which for a call is the
one that the function was declared in.  So a run keeps all functions in their places, and
what it reports has the frames of the phrase that the report is about.  This module says
so of the actions, and of the parts of a run that need no recursion.

Everything is shown for runs that can be observed: of a run on a machine alone one sees
how it ends, and of a watched run one also sees the stores that it passes through.
-/

/-! ## Observing runs -/

/-- What is seen of a run that goes on after its first part. -/
def observeNext
    (first : Outcome α × List Store)
    (next : α → Machine → Outcome β × List Store) :
    Outcome β × List Store :=
  match first with
  | (.done value reached, points) =>
      ((next value reached).1, points ++ (next value reached).2)
  | (.failed diagnostic reached, points) => (.failed diagnostic reached, points)
  | (.exhausted, points) => (.exhausted, points)

/-- Ways of running of which one can see how they end and some of the stores on the
way. -/
class Observed (m : Type → Type) [Runner m] where
  observe : {α : Type} → m α → Machine → Outcome α × List Store
  observe_pure : ∀ {α : Type} (value : α) (machine : Machine),
    observe (pure value) machine = (.done value machine, [])
  observe_bind : ∀ {α β : Type} (first : m α) (next : α → m β) (machine : Machine),
    observe (first >>= next) machine =
      observeNext (observe first machine) fun value => observe (next value)
  observe_within : ∀ {α : Type} (scope : ScopeId) (body : m α) (machine : Machine),
    observe (Runner.within scope body) machine =
      ((observe body { machine with current := scope }).1.mapMachine
          fun final => { final with current := machine.current },
        (observe body { machine with current := scope }).2)
  observe_perform : ∀ {α : Type} (action : Eval α) (machine : Machine),
    (observe (Runner.perform action) machine).1 = action machine
  points_perform : ∀ {α : Type} (action : Eval α) (machine : Machine),
    ∀ point ∈ (observe (Runner.perform action) machine).2,
      (action machine).store? = some point

/-- Of a run alone only the end is seen. -/
instance : Observed Eval where
  observe action machine := (action machine, [])
  observe_pure _ _ := rfl
  observe_bind := by
    intro _ _ first next machine
    rw [Eval.bind_apply]
    cases first machine <;> rfl
  observe_within _ _ _ := rfl
  observe_perform _ _ := rfl
  points_perform := nofun

/-- Of a watched run everything is seen. -/
instance : Observed Watched where
  observe action machine := action machine
  observe_pure _ _ := rfl
  observe_bind := by
    intro _ _ first next machine
    show (match first machine with
      | (.done value reached, points) =>
          ((next value reached).1, points ++ (next value reached).2)
      | (.failed diagnostic reached, points) => (.failed diagnostic reached, points)
      | (.exhausted, points) => (.exhausted, points)) = _
    rfl
  observe_within _ _ _ := rfl
  observe_perform _ _ := rfl
  points_perform _ _ _ isPoint := Option.mem_toList.mp isPoint

/-! ## What is upheld -/

/-- What a report is about, and the frames that it shows. -/
inductive Nesting.Reports (nesting : Nesting) (diagnostic : Diagnostic) : Prop where
  /-- A fault of an expression, with the frames around it. -/
  | expression
      (holds : nesting.Holds frames (.expression expression))
      (isReport : diagnostic = RuntimeFault.locate fault expression.span frames) :
      Reports nesting diagnostic
  /-- A declaration whose name is taken, with the frames around it. -/
  | declaration
      (holds : nesting.Holds frames
        (.statement (.declaration constant name initializer span)))
      (isReport : diagnostic =
        (RuntimeFault.variableAlreadyDeclared name line).locate span frames) :
      Reports nesting diagnostic
  /-- A function whose name is taken, with the frames around it. -/
  | function
      (holds : nesting.Holds frames
        (.statement (.function name parameters body span)))
      (isReport : diagnostic =
        (RuntimeFault.variableAlreadyDeclared name line).locate span frames) :
      Reports nesting diagnostic
  /-- A function with a repeated parameter, with the frames around it and its own. -/
  | parameter
      (holds : nesting.Holds frames
        (.statement (.function name parameters body span)))
      (isRepeated : 1 < parameters.count repeated)
      (isReport : diagnostic =
        (RuntimeFault.variableAlreadyDeclared repeated line).locate span
          (frames ++ [.call name span.line span.fileName])) :
      Reports nesting diagnostic

/-- Whether a scope of a store has the given frames. -/
structure Store.Framed (store : Store) (frames : List Frame) (scope : ScopeId) :
    Prop where
  known : scope < store.nextId
  frames_eq : store.frames scope = frames

theorem Store.Framed.evolves
    {before after : Store}
    {frames : List Frame}
    {scope : ScopeId}
    (framed : before.Framed frames scope)
    (evolves : before.Evolves after) :
    after.Framed frames scope :=
  ⟨evolves.lt_nextId framed.known,
    (evolves.frames_eq framed.known).trans framed.frames_eq⟩

/-- A fault that is raised in a scope is reported with the frames of the scope. -/
theorem Store.Framed.diagnose_eq
    {store : Store}
    {frames : List Frame}
    {scope : ScopeId}
    (framed : store.Framed frames scope)
    (fault : RuntimeFault)
    (span : Span) :
    store.diagnose scope fault span = fault.locate span frames :=
  congrArg (fault.locate span) framed.frames_eq

/-- Whether a run from a store ended in its scope, on a store that has evolved and keeps
all functions in their places, with a result or a report as wanted. -/
inductive Outcome.UpheldFrom
    (nesting : Nesting)
    (Result : Store → α → Prop)
    (before : Store)
    (current : ScopeId) :
    Outcome α → Prop where
  | done
      (evolves : before.Evolves after)
      (placed : after.Placed nesting)
      (isResult : Result after value) :
      UpheldFrom nesting Result before current (.done value ⟨after, current⟩)
  | failed
      (evolves : before.Evolves after)
      (placed : after.Placed nesting)
      (reports : nesting.Reports diagnostic) :
      UpheldFrom nesting Result before current (.failed diagnostic ⟨after, current⟩)
  | exhausted :
      UpheldFrom nesting Result before current .exhausted

namespace Outcome.UpheldFrom

variable {nesting : Nesting} {Result : Store → α → Prop} {before : Store}
  {current : ScopeId} {outcome : Outcome α}

theorem imp
    {Other : Store → α → Prop}
    (upheld : outcome.UpheldFrom nesting Result before current)
    (weaker : ∀ after value, before.Evolves after → Result after value →
      Other after value) :
    outcome.UpheldFrom nesting Other before current := by
  cases upheld with
  | done evolves placed isResult =>
      exact .done evolves placed (weaker _ _ evolves isResult)
  | failed evolves placed reports => exact .failed evolves placed reports
  | exhausted => exact .exhausted

theorem earlier
    {first : Store}
    (upheld : outcome.UpheldFrom nesting Result before current)
    (evolves : first.Evolves before) :
    outcome.UpheldFrom nesting Result first current := by
  cases upheld with
  | done later placed isResult => exact .done (evolves.trans later) placed isResult
  | failed later placed reports => exact .failed (evolves.trans later) placed reports
  | exhausted => exact .exhausted

/-- The store that is left behind. -/
theorem placed_of_store?
    {last : Store}
    (upheld : outcome.UpheldFrom nesting Result before current)
    (isLast : outcome.store? = some last) :
    last.Placed nesting := by
  cases upheld with
  | done evolves placed isResult =>
      cases isLast
      exact placed
  | failed evolves placed reports =>
      cases isLast
      exact placed
  | exhausted => cases isLast

end Outcome.UpheldFrom

section

variable {m : Type → Type} [Runner m] [Observed m]

/-- Whether a run passes through stores that keep all functions in their places, and is
upheld itself. -/
structure UpheldRun
    (nesting : Nesting)
    (Result : Store → α → Prop)
    (store : Store)
    (current : ScopeId)
    (action : m α) :
    Prop where
  points_placed : ∀ point ∈ (Observed.observe action ⟨store, current⟩).2,
    point.Placed nesting
  ends : (Observed.observe action ⟨store, current⟩).1.UpheldFrom nesting Result store
    current

/-- Whether all runs of an action are upheld, from a store that keeps all functions in
their places and in a scope with the given frames. -/
def Upholds
    (nesting : Nesting)
    (frames : List Frame)
    (Result : Store → α → Prop)
    (store : Store)
    (action : m α) :
    Prop :=
  store.Placed nesting → ∀ current, store.Framed frames current →
    UpheldRun nesting Result store current action

namespace Upholds

variable {nesting : Nesting} {frames : List Frame} {Result : Store → α → Prop}
  {store : Store}

theorem imp
    {Other : Store → α → Prop}
    {action : m α}
    (upholds : Upholds nesting frames Result store action)
    (weaker : ∀ after value, store.Evolves after → Result after value →
      Other after value) :
    Upholds nesting frames Other store action := by
  intro placed current framed
  obtain ⟨pointsPlaced, ends⟩ := upholds placed current framed
  exact ⟨pointsPlaced, ends.imp weaker⟩

theorem pure
    {value : α}
    (isResult : Result store value) :
    Upholds nesting frames Result store (Pure.pure value : m α) := by
  intro placed current _
  constructor
  · rw [Observed.observe_pure]
    exact List.forall_mem_nil _
  · rw [Observed.observe_pure]
    exact .done (.refl store) placed isResult

theorem bind
    {Middle : Store → β → Prop}
    {first : m β}
    {next : β → m α}
    (upholds : Upholds nesting frames Middle store first)
    (goesOn : ∀ later value, store.Evolves later → Middle later value →
      Upholds nesting frames Result later (next value)) :
    Upholds nesting frames Result store (first >>= next) := by
  intro placed current framed
  obtain ⟨pointsPlaced, ends⟩ := upholds placed current framed
  have isNext := Observed.observe_bind first next ⟨store, current⟩
  generalize Observed.observe first ⟨store, current⟩ = observed
    at pointsPlaced ends isNext
  obtain ⟨outcome, points⟩ := observed
  cases ends with
  | @done later value evolves laterPlaced isMiddle =>
      obtain ⟨laterPoints, laterEnds⟩ :=
        goesOn later value evolves isMiddle laterPlaced current (framed.evolves evolves)
      constructor
      · rw [isNext]
        exact List.forall_mem_append.mpr ⟨pointsPlaced, laterPoints⟩
      · rw [isNext]
        exact laterEnds.earlier evolves
  | failed evolves laterPlaced reports =>
      constructor
      · rw [isNext]
        exact pointsPlaced
      · rw [isNext]
        exact .failed evolves laterPlaced reports
  | exhausted =>
      constructor
      · rw [isNext]
        exact pointsPlaced
      · rw [isNext]
        exact .exhausted

theorem within
    {inner : List Frame}
    {scope : ScopeId}
    {body : m α}
    (framed : store.Framed inner scope)
    (upholds : Upholds nesting inner Result store body) :
    Upholds nesting frames Result store (Runner.within scope body) := by
  intro placed current _
  obtain ⟨pointsPlaced, ends⟩ := upholds placed scope framed
  constructor
  · rw [Observed.observe_within]
    exact pointsPlaced
  · rw [Observed.observe_within]
    generalize (Observed.observe body ⟨store, scope⟩).1 = outcome at ends
    cases ends with
    | done evolves laterPlaced isResult => exact .done evolves laterPlaced isResult
    | failed evolves laterPlaced reports => exact .failed evolves laterPlaced reports
    | exhausted => exact .exhausted

/-- An action on the machine is upheld if it ends so. -/
theorem perform
    {action : Eval α}
    (ends : store.Placed nesting → ∀ current, store.Framed frames current →
      (action ⟨store, current⟩).UpheldFrom nesting Result store current) :
    Upholds nesting frames Result store (Runner.perform action : m α) := by
  intro placed current framed
  have upheld := ends placed current framed
  constructor
  · intro point isPoint
    exact upheld.placed_of_store? (Observed.points_perform action _ point isPoint)
  · rw [Observed.observe_perform]
    exact upheld

/-! ### The actions -/

theorem exhausted :
    Upholds nesting frames Result store (Runner.exhausted : m α) :=
  .perform fun _ _ _ => .exhausted

theorem raise
    {expression : Expression}
    (holds : nesting.Holds frames (.expression expression))
    (fault : RuntimeFault) :
    Upholds nesting frames Result store
      (Runner.raise fault expression.span : m α) := by
  apply perform
  intro placed current framed
  apply Outcome.UpheldFrom.failed (.refl store) placed
  exact .expression holds (framed.diagnose_eq fault expression.span)

theorem currentScope :
    Upholds nesting frames
      (fun later scope => later = store ∧ later.Framed frames scope)
      store (Runner.currentScope : m ScopeId) :=
  .perform fun placed _ framed => .done (.refl store) placed ⟨rfl, framed⟩

/-- A value that is made keeps the store. -/
theorem makeValue (payload : Payload) :
    Upholds nesting frames
      (fun later value => later = store ∧ value.payload = payload)
      store (Runner.makeValue payload : m Value) :=
  .perform fun placed _ _ => .done (.refl store) placed ⟨rfl, rfl⟩

theorem makePlain
    {payload : Payload}
    (isPlain : payload.isPlain = true) :
    Upholds nesting frames (fun later value => value.PlacedIn nesting later) store
      (Runner.makeValue payload : m Value) := by
  apply (makeValue payload).imp
  rintro later value _ ⟨_, rfl⟩
  exact Value.placedIn_of_isPlain isPlain nesting later

theorem lookUp
    {name : String}
    {span : Span}
    (holds : nesting.Holds frames (.expression (.reference name span))) :
    Upholds nesting frames (fun later value => value.PlacedIn nesting later) store
      (Runner.lookUp name span : m Value) := by
  apply perform
  intro placed current framed
  simp only [Eval.lookUp, Store.get]
  cases isResolved : store.resolve? current name with
  | some binding =>
      exact .done (.refl store) placed (placed.resolve isResolved)
  | none =>
      apply Outcome.UpheldFrom.failed (.refl store) placed
      exact .expression holds (framed.diagnose_eq _ span)

/-- An assignment that is refused is reported in the scope where it is tried. -/
theorem reports_of_assignee
    {expression : Expression}
    {current : ScopeId}
    {name : String}
    {diagnostic : Diagnostic}
    (holds : nesting.Holds frames (.expression expression))
    (framed : store.Framed frames current)
    (isRefused : store.assignee current name expression.span = .error diagnostic) :
    nesting.Reports diagnostic := by
  unfold Store.assignee at isRefused
  split at isRefused
  · split at isRefused
    · cases isRefused
      exact .expression holds (framed.diagnose_eq _ expression.span)
    · cases isRefused
  · cases isRefused
    exact .expression holds (framed.diagnose_eq _ expression.span)

theorem assign
    {name : String}
    {right : Expression}
    {span : Span}
    {value : Value}
    (holds : nesting.Holds frames (.expression (.assign name right span)))
    (isPlaced : value.PlacedIn nesting store) :
    Upholds nesting frames (fun later value => value.PlacedIn nesting later) store
      (Runner.assign name value span : m Value) := by
  apply perform
  intro placed current framed
  simp only [Eval.assign]
  cases isAssignee : store.assignee current name span with
  | ok owner =>
      have notConstant := Store.constant_of_assignee isAssignee
      have evolves := Store.Evolves.assignIn notConstant value
      exact .done evolves (placed.assignIn notConstant isPlaced)
        (isPlaced.evolves evolves)
  | error diagnostic =>
      exact .failed (.refl store) placed
        (reports_of_assignee holds framed isAssignee)

/-- A new scope has the frames around it and its own, and binds nothing. -/
theorem openScope
    {outer : List Frame}
    {parent : ScopeId}
    (framed : store.Framed outer parent)
    (frame : Frame) :
    Upholds nesting frames
      (fun later scope => later.Framed (outer ++ [frame]) scope ∧
        ∀ name, later.binding? scope name = none)
      store (Runner.openScope frame parent : m ScopeId) := by
  apply perform
  intro placed current _
  have parentKnown : ∀ id, some parent = some id → id < store.nextId := by
    rintro _ ⟨⟩
    exact framed.known
  have isKnown : store.nextId < (store.openScope frame (some parent)).nextId := by
    rw [Store.nextId_openScope]
    exact Nat.lt_succ_self _
  have isFrames := Store.frames_openScope framed.known frame
  rw [framed.frames_eq] at isFrames
  have bindsNothing (name : String) :
      (store.openScope frame (some parent)).binding? store.nextId name = none := by
    rw [Store.binding?, Store.scope?_openScope, if_pos rfl]
    rfl
  exact .done (.openScope store frame (some parent))
    (placed.openScope parentKnown frame) ⟨⟨isKnown, isFrames⟩, bindsNothing⟩

/-- A declaration, whose value may have its place by the new binding. -/
theorem declare
    {scope : ScopeId}
    {constant : Bool}
    {name : String}
    {value : Value}
    {span : Span}
    (nested : value.NestedIn nesting store)
    (backed : store.binding? scope name = none →
      value.BackedBy (store.bindIn scope ⟨name, value, constant, span⟩))
    (reports : store.binding? scope name ≠ none → ∀ line,
      nesting.Reports
        (store.diagnose scope (.variableAlreadyDeclared name line) span)) :
    Upholds nesting frames
      (fun later _ => store.binding? scope name = none ∧
        later = store.bindIn scope ⟨name, value, constant, span⟩)
      store (Runner.declareIn scope constant name value span : m Unit) := by
  apply perform
  intro placed current _
  simp only [Eval.declareIn, Store.checkDeclare]
  cases isBound : store.binding? scope name with
  | none =>
      exact .done (.bindIn isBound)
        (placed.bindIn isBound nested (backed isBound)) ⟨rfl, rfl⟩
  | some existing =>
      have isDeclared : store.binding? scope name ≠ none := by
        rw [isBound]
        exact Option.some_ne_none existing
      exact .failed (.refl store) placed (reports isDeclared _)

/-- A declaration of a value that is in its place already. -/
theorem declarePlaced
    {scope : ScopeId}
    {constant : Bool}
    {name : String}
    {value : Value}
    {span : Span}
    (isPlaced : value.PlacedIn nesting store)
    (reports : store.binding? scope name ≠ none → ∀ line,
      nesting.Reports
        (store.diagnose scope (.variableAlreadyDeclared name line) span)) :
    Upholds nesting frames
      (fun later _ => store.binding? scope name = none ∧
        later = store.bindIn scope ⟨name, value, constant, span⟩)
      store (Runner.declareIn scope constant name value span : m Unit) := by
  apply declare isPlaced.nested _ reports
  intro isNew
  exact isPlaced.backed.evolves (.bindIn isNew)

theorem declareFunction
    {declaration : FunctionDeclaration}
    (holds : nesting.Holds frames (.statement declaration.statement)) :
    Upholds nesting frames (fun _ _ => True) store
      (Runner.declareFunction declaration : m Unit) := by
  apply currentScope.bind
  rintro _ closure _ ⟨rfl, framed⟩
  apply (makeValue (.function declaration closure)).bind
  rintro made value _ ⟨rfl, isPayload⟩
  have nested : value.NestedIn nesting made := by
    intro other outer isFunction
    obtain ⟨rfl, rfl⟩ := Payload.function.inj (isPayload.symm.trans isFunction)
    exact ⟨framed.known, by rwa [framed.frames_eq]⟩
  apply (declare nested _ _).imp
  · exact fun _ _ _ _ => trivial
  · intro isNew other outer isFunction
    obtain ⟨rfl, rfl⟩ := Payload.function.inj (isPayload.symm.trans isFunction)
    rw [Store.binding?_bindIn framed.known, if_pos rfl]
    exact ⟨_, rfl, rfl, isPayload⟩
  · intro _ line
    exact .function holds (framed.diagnose_eq _ declaration.span)

theorem located
    {expression : Expression}
    {value other : Value}
    {result following : Except RuntimeFault Value}
    (holds : nesting.Holds frames (.expression expression))
    (results : value.SameResult other result following) :
    Upholds nesting frames (fun later value => value.PlacedIn nesting later) store
      (Runner.located expression.span result : m Value) := by
  cases results with
  | fault fault => exact .raise holds fault
  | plain payload isPlain =>
      exact .pure (Value.placedIn_of_isPlain isPlain nesting store)

/-- The same result, or a fault, of an operation without values. -/
theorem located_any
    {expression : Expression}
    (holds : nesting.Holds frames (.expression expression))
    (result : Except RuntimeFault α) :
    Upholds nesting frames (fun _ _ => True) store
      (Runner.located expression.span result : m α) := by
  cases result with
  | ok value => exact .pure trivial
  | error fault => exact .raise holds fault

end Upholds

/-! ## Values and signals -/

/-- Whether a value that may be missing is in its place. -/
def PlacedValue (nesting : Nesting) (store : Store) (value? : Option Value) : Prop :=
  ∀ value, value? = some value → value.PlacedIn nesting store

/-- Whether all values are in their places. -/
def PlacedValues (nesting : Nesting) (store : Store) (values : List Value) : Prop :=
  ∀ value ∈ values, value.PlacedIn nesting store

/-- Whether the value of a signal, if there is one, is in its place. -/
def PlacedSignal (nesting : Nesting) (store : Store) (signal : Signal) : Prop :=
  PlacedValue nesting store signal.callValue

section

variable {nesting : Nesting} {frames : List Frame} {store : Store}

theorem placedValue_none : PlacedValue nesting store none :=
  nofun

theorem placedValue_some
    {value : Value}
    (isPlaced : value.PlacedIn nesting store) :
    PlacedValue nesting store (some value) := by
  rintro _ ⟨⟩
  exact isPlaced

theorem PlacedValues.evolves
    {later : Store}
    {values : List Value}
    (arePlaced : PlacedValues nesting store values)
    (evolves : store.Evolves later) :
    PlacedValues nesting later values :=
  fun value isValue => (arePlaced value isValue).evolves evolves

theorem PlacedSignal.ofBlock
    {signal : Signal}
    (isPlaced : PlacedSignal nesting store signal) :
    PlacedSignal nesting store signal.ofBlock := by
  cases signal with
  | normal value => exact placedValue_none
  | broke => exact isPlaced
  | continued => exact isPlaced
  | returned value => exact isPlaced

/-! ## Parts that need no recursion -/

namespace Upholds

theorem required
    {expression : Expression}
    {value? : Option Value}
    (holds : nesting.Holds frames (.expression expression))
    (isPlaced : PlacedValue nesting store value?) :
    Upholds nesting frames (fun later value => value.PlacedIn nesting later) store
      (Runner.required expression.span value? : m Value) := by
  cases value? with
  | some value => exact .pure (isPlaced value rfl)
  | none => exact .raise holds .noValue

/-- A value as that of an expression. -/
theorem asValue
    {action : m Value}
    (upholds : Upholds nesting frames
      (fun later value => value.PlacedIn nesting later) store action) :
    Upholds nesting frames (PlacedValue nesting) store
      (do
        let value ← action
        Pure.pure (some value)) := by
  apply upholds.bind
  intro _ value _ isPlaced
  exact .pure (placedValue_some isPlaced)

theorem forEach
    {run : α → m Value}
    {items : List α}
    (runs : ∀ item ∈ items, ∀ start,
      Upholds nesting frames (fun later value => value.PlacedIn nesting later) start
        (run item)) :
    Upholds nesting frames (PlacedValues nesting) store
      (Runner.forEach run items) := by
  induction items generalizing store with
  | nil =>
      exact .pure (List.forall_mem_nil _)
  | cons first rest inductionHypothesis =>
      obtain ⟨runsFirst, runsRest⟩ := List.forall_mem_cons.mp runs
      apply (runsFirst store).bind
      intro later value _ isPlaced
      apply (inductionHypothesis runsRest).bind
      intro last values evolves arePlaced
      exact .pure (List.forall_mem_cons.mpr ⟨isPlaced.evolves evolves, arePlaced⟩)

theorem sequence
    {run : Statement → m Signal}
    {statements : List Statement}
    {last : Option Value}
    (runs : ∀ statement ∈ statements, ∀ start,
      Upholds nesting frames (PlacedSignal nesting) start (run statement))
    (lastPlaced : PlacedValue nesting store last) :
    Upholds nesting frames (PlacedSignal nesting) store
      (Runner.sequence run last statements) := by
  induction statements generalizing store last with
  | nil =>
      exact .pure lastPlaced
  | cons first rest inductionHypothesis =>
      obtain ⟨runsFirst, runsRest⟩ := List.forall_mem_cons.mp runs
      apply (runsFirst store).bind
      intro later signal _ isPlaced
      cases signal with
      | normal value => exact inductionHypothesis runsRest isPlaced
      | broke => exact .pure isPlaced
      | continued => exact .pure isPlaced
      | returned value => exact .pure isPlaced

/-- The statement that is chosen stands in one of the branches. -/
theorem firstTrue
    {test : Expression → m Bool}
    {branches : List (Expression × Statement)}
    (tests : ∀ branch ∈ branches, ∀ start,
      Upholds nesting frames (fun _ _ => True) start (test branch.1)) :
    Upholds nesting frames
      (fun _ chosen => ∀ body, chosen = some body →
        ∃ branch ∈ branches, branch.2 = body)
      store (Runner.firstTrue test branches) := by
  induction branches generalizing store with
  | nil =>
      exact .pure nofun
  | cons branch rest inductionHypothesis =>
      obtain ⟨testsFirst, testsRest⟩ := List.forall_mem_cons.mp tests
      apply (testsFirst store).bind
      intro later truth _ _
      cases truth with
      | true =>
          apply Upholds.pure
          rintro _ ⟨⟩
          exact ⟨branch, List.mem_cons_self, rfl⟩
      | false =>
          apply (inductionHypothesis testsRest).imp
          intro _ chosen _ isBody body isChosen
          obtain ⟨branch, isBranch, rfl⟩ := isBody body isChosen
          exact ⟨branch, List.mem_cons_of_mem _ isBranch, rfl⟩

/-- Binding the parameters of a function in the scope of a call, which fails only if one
of them is repeated. -/
theorem bindParameters
    {declaration : FunctionDeclaration}
    {outer : List Frame}
    {scope : ScopeId}
    {names : List String}
    {values : List Value}
    (earlier : List String)
    (holds : nesting.Holds outer (.statement declaration.statement))
    (framed : store.Framed
      (outer ++ [.call declaration.name declaration.span.line
        declaration.span.fileName]) scope)
    (areParameters : earlier ++ names = declaration.parameters)
    (areEarlier : ∀ name, store.binding? scope name ≠ none → name ∈ earlier)
    (arePlaced : PlacedValues nesting store values) :
    Upholds nesting frames (fun _ _ => True) store
      (Runner.bindParameters scope declaration.span (names.zip values) :
        m Unit) := by
  induction names generalizing store values earlier with
  | nil =>
      exact .pure trivial
  | cons name rest inductionHypothesis =>
      cases values with
      | nil =>
          exact .pure trivial
      | cons value others =>
          obtain ⟨isPlaced, othersPlaced⟩ := List.forall_mem_cons.mp arePlaced
          apply (declarePlaced isPlaced _).bind
          · rintro later _ evolves ⟨_, rfl⟩
            apply inductionHypothesis (earlier ++ [name]) (framed.evolves evolves) _ _
              (PlacedValues.evolves othersPlaced evolves)
            · rw [List.append_assoc]
              exact areParameters
            · intro other isBound
              rw [Store.binding?_bindIn framed.known] at isBound
              split at isBound
              case isTrue isName =>
                cases isName
                exact List.mem_append_right _ (List.mem_singleton_self name)
              case isFalse => exact List.mem_append_left _ (areEarlier other isBound)
          · intro isBound line
            have isRepeated : 1 < declaration.parameters.count name := by
              have isEarlier := List.count_pos_iff.mpr (areEarlier name isBound)
              rw [← areParameters, List.count_append, List.count_cons_self]
              omega
            exact .parameter holds isRepeated (framed.diagnose_eq _ declaration.span)

/-- A call runs the body of the function with the frames around its declaration, and
its own. -/
theorem callWith
    {run : Statement → m Signal}
    {expression : Expression}
    {callee : Value}
    {arguments : List Value}
    (runs : ∀ {inner statement}, nesting.Holds inner (.statement statement) →
      ∀ start, Upholds nesting inner (PlacedSignal nesting) start (run statement))
    (holds : nesting.Holds frames (.expression expression))
    (calleePlaced : callee.PlacedIn nesting store)
    (arePlaced : PlacedValues nesting store arguments) :
    Upholds nesting frames (PlacedValue nesting) store
      (Runner.callWith run callee arguments expression.span) := by
  unfold Runner.callWith
  cases isPayload : callee.payload with
  | function declaration closure =>
      simp only
      split
      case h_1 fault _ => exact .raise holds fault
      case h_2 =>
        obtain ⟨isKnown, bodyHolds⟩ :=
          calleePlaced.nested declaration closure isPayload
        apply (openScope ⟨isKnown, rfl⟩ _).bind
        rintro opened scope isOpened ⟨framed, bindsNothing⟩
        apply (bindParameters [] bodyHolds framed rfl
          (fun name isBound => (isBound (bindsNothing name)).elim)
          (PlacedValues.evolves arePlaced isOpened)).bind
        intro bound _ isBound _
        have runsBody : ∀ statement ∈ declaration.body, ∀ start,
            Upholds nesting _ (PlacedSignal nesting) start (run statement) :=
          fun statement isInside =>
            runs (nesting.holds_inFunction bodyHolds isInside)
        apply (within (framed.evolves isBound)
          (sequence runsBody placedValue_none)).bind
        intro _ signal _ isPlaced
        exact .pure isPlaced
  | _ => exact .raise holds _

end Upholds

end

end

end Scriptlet
