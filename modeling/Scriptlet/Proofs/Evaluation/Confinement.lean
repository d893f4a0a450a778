import Scriptlet.Proofs.Evaluation.Ensured
import Scriptlet.Proofs.Evaluation.Simulation
import Scriptlet.Proofs.Store.Region

namespace Scriptlet

/-!
# Runs stay inside their region

What is run in a scope can only get to the scopes of a region: those that are reachable
from the scope, or from the function that is called and its arguments, and those that it
opens itself.  All other scopes stay as they are.  Nor do they matter: on two stores that
agree on the region, the same is run with the same end, and they agree on it afterwards.
-/

/-- The stores of two runs. -/
structure StorePair where
  first : Store
  second : Store

namespace StorePair

variable {region : Set ScopeId}

/-- That two stores agree on a region. -/
structure Shares (region : Set ScopeId) (pair : StorePair) : Prop where
  isRegion : pair.first.IsRegion region
  agree : Store.AgreeOn region pair.first pair.second

/-- That two stores have changed in a region only. -/
structure Spares (region : Set ScopeId) (before after : StorePair) : Prop where
  first : Store.UnchangedOutside region before.first after.first
  second : Store.UnchangedOutside region before.second after.second

theorem Spares.refl (pair : StorePair) : Spares region pair pair :=
  ⟨.refl _, .refl _⟩

theorem Spares.trans
    {first second third : StorePair}
    (before : Spares region first second)
    (after : Spares region second third) :
    Spares region first third :=
  ⟨before.first.trans after.first, before.second.trans after.second⟩

theorem Shares.openScope
    {pair : StorePair}
    {parent : ScopeId}
    (shares : pair.Shares region)
    (isInside : parent ∈ region)
    (frame : Frame) :
    Shares region
      ⟨pair.first.openScope frame (some parent),
        pair.second.openScope frame (some parent)⟩ :=
  ⟨shares.isRegion.openScope isInside frame, shares.agree.openScope frame _⟩

theorem Shares.bindIn
    {pair : StorePair}
    {binding : Binding}
    (shares : pair.Shares region)
    (madeInside : binding.value.MadeIn region)
    (changed : ScopeId) :
    Shares region
      ⟨pair.first.bindIn changed binding, pair.second.bindIn changed binding⟩ :=
  ⟨shares.isRegion.bindIn madeInside changed, shares.agree.bindIn changed binding⟩

theorem Shares.assignIn
    {pair : StorePair}
    {value : Value}
    (shares : pair.Shares region)
    (madeInside : value.MadeIn region)
    (changed : ScopeId)
    (name : String) :
    Shares region
      ⟨pair.first.assignIn changed name value,
        pair.second.assignIn changed name value⟩ :=
  ⟨shares.isRegion.assignIn madeInside changed name,
    shares.agree.assignIn changed name value⟩

end StorePair

/-- That two runs in a scope, from stores that agree on a region, end alike: with results
that go with each other or with the same report, and on stores that still agree on the
region and have not changed outside of it. -/
inductive Outcome.ConfinedTo
    {α β : Type}
    (region : Set ScopeId)
    (before : StorePair)
    (current : ScopeId)
    (Result : StorePair → α → β → Prop) :
    Outcome α → Outcome β → Prop where
  | done
      (spares : before.Spares region after)
      (shares : after.Shares region)
      (results : Result after value found) :
      ConfinedTo region before current Result
        (.done value ⟨after.first, current⟩)
        (.done found ⟨after.second, current⟩)
  | failed
      (spares : before.Spares region after)
      (shares : after.Shares region) :
      ConfinedTo region before current Result
        (.failed diagnostic ⟨after.first, current⟩)
        (.failed diagnostic ⟨after.second, current⟩)
  | exhausted :
      ConfinedTo region before current Result .exhausted .exhausted

namespace Outcome.ConfinedTo

variable {α β : Type} {region : Set ScopeId} {before : StorePair}
  {current : ScopeId} {Result : StorePair → α → β → Prop}

theorem imp
    {Other : StorePair → α → β → Prop}
    {outcome : Outcome α}
    {other : Outcome β}
    (confined : outcome.ConfinedTo region before current Result other)
    (weaker : ∀ after value found, Result after value found →
      Other after value found) :
    outcome.ConfinedTo region before current Other other := by
  cases confined with
  | done spares shares results =>
      exact .done spares shares (weaker _ _ _ results)
  | failed spares shares => exact .failed spares shares
  | exhausted => exact .exhausted

/-- What is spared from a later point on is spared from the start. -/
theorem earlier
    {middle : StorePair}
    {outcome : Outcome α}
    {other : Outcome β}
    (confined : outcome.ConfinedTo region middle current Result other)
    (spares : before.Spares region middle) :
    outcome.ConfinedTo region before current Result other := by
  cases confined with
  | done later shares results => exact .done (spares.trans later) shares results
  | failed later shares => exact .failed (spares.trans later) shares
  | exhausted => exact .exhausted

theorem andThen
    {γ δ : Type}
    {Middle : StorePair → γ → δ → Prop}
    {outcome : Outcome γ}
    {other : Outcome δ}
    {next : γ → Eval α}
    {following : δ → Eval β}
    (confined : outcome.ConfinedTo region before current Middle other)
    (goesOn : ∀ (later : StorePair) value found, before.Spares region later →
      later.Shares region → Middle later value found →
      (next value ⟨later.first, current⟩).ConfinedTo region later current Result
        (following found ⟨later.second, current⟩)) :
    (outcome.andThen next).ConfinedTo region before current Result
      (other.andThen following) := by
  cases confined with
  | done spares shares results =>
      exact (goesOn _ _ _ spares shares results).earlier spares
  | failed spares shares => exact .failed spares shares
  | exhausted => exact .exhausted

theorem within
    {scope : ScopeId}
    {body : Eval α}
    {other : Eval β}
    (confined : (body ⟨before.first, scope⟩).ConfinedTo region before scope Result
      (other ⟨before.second, scope⟩)) :
    (Runner.within scope body ⟨before.first, current⟩).ConfinedTo region before
      current Result (Runner.within scope other ⟨before.second, current⟩) := by
  simp only [Runner.within, Eval.within]
  generalize body ⟨before.first, scope⟩ = outcome at confined ⊢
  generalize other ⟨before.second, scope⟩ = last at confined ⊢
  cases confined with
  | done spares shares results => exact .done spares shares results
  | failed spares shares => exact .failed spares shares
  | exhausted => exact .exhausted

/-! ## The actions -/

section Actions

variable (shares : before.Shares region) (isInside : current ∈ region)

include shares

theorem openScope
    {parent : ScopeId}
    (parentInside : parent ∈ region)
    (frame : Frame) :
    (Eval.openScope frame parent ⟨before.first, current⟩).ConfinedTo region before
      current (fun _ scope found => found = scope ∧ scope ∈ region)
      (Eval.openScope frame parent ⟨before.second, current⟩) := by
  have newInside : before.first.nextId ∈ region :=
    shares.isRegion.fresh_mem (Nat.le_refl _)
  have otherNewInside : before.second.nextId ∈ region :=
    shares.agree.nextId_eq ▸ newInside
  exact .done
    ⟨.openScope newInside frame _, .openScope otherNewInside frame _⟩
    (shares.openScope parentInside frame)
    ⟨shares.agree.nextId_eq, newInside⟩

theorem declareIn
    {scope : ScopeId}
    {value : Value}
    (scopeInside : scope ∈ region)
    (madeInside : value.MadeIn region)
    (constant : Bool)
    (name : String)
    (span : Span) :
    (Eval.declareIn scope constant name value span
      ⟨before.first, current⟩).ConfinedTo region before current
      (fun _ _ _ => True)
      (Eval.declareIn scope constant name value span
        ⟨before.second, current⟩) := by
  simp only [Eval.declareIn,
    shares.agree.checkDeclare_eq shares.isRegion scopeInside]
  cases before.first.checkDeclare scope name span with
  | ok _ =>
      exact .done ⟨.bindIn scopeInside _, .bindIn scopeInside _⟩
        (shares.bindIn madeInside scope) trivial
  | error diagnostic => exact .failed (.refl before) shares

include isInside

theorem lookUp (name : String) (span : Span) :
    (Eval.lookUp name span ⟨before.first, current⟩).ConfinedTo region before
      current (fun _ value found => found = value ∧ value.MadeIn region)
      (Eval.lookUp name span ⟨before.second, current⟩) := by
  simp only [Eval.lookUp, shares.agree.get_eq shares.isRegion isInside]
  simp only [Store.get]
  cases isResolved : before.first.resolve? current name with
  | some binding =>
      have madeInside := shares.isRegion.resolve_madeIn isInside isResolved
      exact .done (.refl before) shares ⟨rfl, madeInside⟩
  | none => exact .failed (.refl before) shares

theorem assign
    {value : Value}
    (madeInside : value.MadeIn region)
    (name : String)
    (span : Span) :
    (Eval.assign name value span ⟨before.first, current⟩).ConfinedTo region before
      current (fun _ value found => found = value ∧ value.MadeIn region)
      (Eval.assign name value span ⟨before.second, current⟩) := by
  simp only [Eval.assign, shares.agree.assignee_eq shares.isRegion isInside]
  cases isAssignee : before.first.assignee current name span with
  | ok owner =>
      have ownerInside := shares.isRegion.owner_mem isInside
        (Store.owner?_of_assignee isAssignee)
      exact .done
        ⟨.assignIn ownerInside name value, .assignIn ownerInside name value⟩
        (shares.assignIn madeInside owner name) ⟨rfl, madeInside⟩
  | error diagnostic => exact .failed (.refl before) shares

end Actions

end Outcome.ConfinedTo

namespace Eval

/-- Runs on two stores that agree on a region. -/
def confinement (region : Set ScopeId) : Simulation Eval Eval where
  World := StorePair
  Later := StorePair.Spares region
  change := id
  Same _ value mapped := mapped = value ∧ value.MadeIn region
  Known _ scope := scope ∈ region
  Related before Result first second :=
    before.Shares region → ∀ current ∈ region,
      (first ⟨before.first, current⟩).ConfinedTo region before current Result
        (second ⟨before.second, current⟩)
  later_trans := StorePair.Spares.trans
  same_later := fun _ same => same
  known_later := fun _ isKnown => isKnown
  same_mappedTo := by
    intro _ value mapped same
    exact (congrArg Value.payload same.1).trans value.payload.mapSpans_id.symm
  same_withPayload := by
    rintro _ value _ payload isPlain ⟨rfl, _⟩
    exact ⟨rfl, Value.madeIn_of_isPlain isPlain region⟩
  known_closure := by
    intro _ value mapped declaration closure same isFunction
    exact same.2 closure (Value.closure?_eq_some_iff.mpr ⟨declaration, isFunction⟩)
  pure_related := fun results shares _ _ => .done (.refl _) shares results
  bind_related := by
    intro _ _ _ _ before Middle Result first second next following related goesOn
      shares current isInside
    apply (related shares current isInside).andThen
    intro later value found spares laterShares results
    exact goesOn later value found spares results laterShares current isInside
  within_related := by
    intro _ _ before Result first second scope scopeInside related shares current _
    exact (related shares scope scopeInside).within
  exhausted_related := fun _ _ _ => .exhausted
  raise_related := by
    intro _ _ before Result fault span shares current isInside
    have sameReport :=
      shares.agree.diagnose_eq shares.isRegion isInside fault span
    simp only [Runner.raise, Runner.perform, Eval.raise, id_eq, sameReport]
    exact .failed (.refl before) shares
  currentScope_related := fun before shares _ isInside =>
    .done (.refl before) shares ⟨rfl, isInside⟩
  makeValue_related := fun before _ isPlain shares _ _ =>
    .done (.refl before) shares ⟨rfl, Value.madeIn_of_isPlain isPlain region⟩
  lookUp_related := fun _ name span shares _ isInside =>
    .lookUp shares isInside name span
  assign_related := by
    rintro before value _ name span ⟨rfl, madeInside⟩ shares current isInside
    exact .assign shares isInside madeInside name span
  openBlock_related := fun _ parentInside shares _ _ =>
    .openScope shares parentInside _
  openCall_related := fun _ _ parentInside shares _ _ =>
    .openScope shares parentInside _
  declareIn_related := by
    rintro before scope value _ constant name span scopeInside ⟨rfl, madeInside⟩
      shares current _
    exact .declareIn shares scopeInside madeInside constant name span
  declareFunction_related := by
    intro before declaration shares current isInside
    rw [declaration.mapSpans_id]
    have madeInside :
        Value.MadeIn region ⟨.function declaration current, current⟩ := by
      rintro _ ⟨⟩
      exact isInside
    exact .declareIn shares isInside madeInside true declaration.name
      declaration.span

end Eval

/-- Something that can be run in a scope. -/
inductive Request where
  | expression (expression : Expression)
  | statement (statement : Statement)
  /-- A value that is called with arguments. -/
  | call (callee : Value) (arguments : List Value) (span : Span)

namespace Request

/-- The scopes that a request starts from: the one that it is run in, and those around
the functions that it is given. -/
def roots (scope : ScopeId) : Request → Set ScopeId
  | .expression _ => {scope}
  | .statement _ => {scope}
  | .call callee arguments _ =>
      {id | id = scope ∨ ∃ value ∈ callee :: arguments, value.closure? = some id}

/-- How a request is run; an expression and a call end normally with their value. -/
def run (steps : Nat) : Request → Eval Signal
  | .expression inner => do
      let value ← Eval.evaluate steps inner
      pure (.normal value)
  | .statement inner => Eval.execute steps inner
  | .call callee arguments span => do
      let value ← Eval.call steps callee arguments span
      pure (.normal value)

theorem scope_mem_roots (request : Request) (scope : ScopeId) :
    scope ∈ request.roots scope := by
  cases request with
  | expression | statement => exact rfl
  | call => exact .inl rfl

end Request

/-- Values that go with each other are the same. -/
theorem eq_of_rel
    {region : Set ScopeId}
    {value found : Option Value}
    (same : Option.Rel
      (fun value found : Value => found = value ∧ value.MadeIn region) value found) :
    found = value := by
  cases same with
  | some same => rw [same.1]
  | none => rfl

/-- Signals that go with each other are the same. -/
theorem Signal.Same.eq
    {region : Set ScopeId}
    {signal found : Signal}
    (same : Signal.Same
      (fun value found : Value => found = value ∧ value.MadeIn region)
      signal found) :
    found = signal := by
  cases same with
  | normal values => rw [eq_of_rel values]
  | broke => rfl
  | continued => rfl
  | returned values => rw [eq_of_rel values]

namespace Request

/-- What is run in a region stays there. -/
theorem run_confinedTo
    {region : Set ScopeId}
    {before : StorePair}
    {scope : ScopeId}
    {request : Request}
    (shares : before.Shares region)
    (startsInside : request.roots scope ⊆ region)
    (steps : Nat) :
    (request.run steps ⟨before.first, scope⟩).ConfinedTo region before scope
      (fun _ signal found => found = signal)
      (request.run steps ⟨before.second, scope⟩) := by
  have isInside : scope ∈ region := startsInside (request.scope_mem_roots scope)
  have runs : (Eval.confinement region).RunsRelated steps steps :=
    Simulation.runsRelated (.inl rfl)
  cases request with
  | expression inner =>
      have related := runs.evaluate inner before shares scope isInside
      rw [show inner.mapSpans (Eval.confinement region).change = inner from
        inner.mapSpans_id] at related
      apply related.andThen
      intro later value found _ laterShares same
      exact .done (.refl later) laterShares (congrArg Signal.normal (eq_of_rel same))
  | statement inner =>
      have related := runs.execute inner before shares scope isInside
      rw [show inner.mapSpans (Eval.confinement region).change = inner from
        inner.mapSpans_id] at related
      exact related.imp fun _ _ _ same => same.eq
  | call callee arguments span =>
      have madeInside : ∀ value ∈ callee :: arguments, value.MadeIn region := by
        intro value isGiven outer isClosure
        exact startsInside (.inr ⟨value, isGiven, isClosure⟩)
      obtain ⟨calleeInside, argumentsInside⟩ := List.forall_mem_cons.mp madeInside
      have sameArguments :
          (Eval.confinement region).SameValues before arguments arguments := by
        apply List.forall₂_same.mpr
        intro value isGiven
        exact ⟨rfl, argumentsInside value isGiven⟩
      have related : (Eval.confinement region).Related before
          (Eval.confinement region).SameValue
          (Eval.call steps callee arguments span)
          (Eval.call steps callee arguments span) :=
        Simulation.callWith_related runs.execute ⟨rfl, calleeInside⟩ sameArguments
          span
      apply (related shares scope isInside).andThen
      intro later value found _ laterShares same
      exact .done (.refl later) laterShares (congrArg Signal.normal (eq_of_rel same))

/-- What is run in a scope leaves all scopes alone that cannot be reached from there, and
their bindings do not matter: on a store with other ones the run ends alike, with the
same effect on the scopes that can be reached. -/
theorem run_confined
    {store other : Store}
    {scope : ScopeId}
    {request : Request}
    (agree : Store.AgreeOn {id | store.Reachable (request.roots scope) id}
      store other)
    (steps : Nat) :
    (request.run steps ⟨store, scope⟩).ConfinedTo
      (store.regionOf (request.roots scope)) ⟨store, other⟩ scope
      (fun _ signal found => found = signal)
      (request.run steps ⟨other, scope⟩) :=
  run_confinedTo ⟨store.isRegion_regionOf _, agree.regionOf⟩
    (fun _ isRoot => .inl (.root isRoot)) steps

/-- A file whose function assigns to a name of the block that it stands in, and another
file that binds the same name. -/
def twoFiles (number : Int64) : Store :=
  let declaration : FunctionDeclaration :=
    ⟨"set", [], [.expression (.assign "x" (.literal (.int 2) default) default)],
      default⟩
  ⟨#[⟨.file "first", none,
        [⟨"set", ⟨.function declaration 2, 2⟩, false, default⟩]⟩,
      ⟨.file "second", none, [⟨"x", ⟨.int number, 1⟩, false, default⟩]⟩,
      ⟨.block 1 "first", some 0, [⟨"x", ⟨.int 1, 2⟩, false, default⟩]⟩]⟩

theorem isRegion_twoFiles (number : Int64) :
    (twoFiles number).IsRegion {id | id ≠ 1} where
  fresh_mem := by
    rintro id isFresh rfl
    exact absurd (show 3 ≤ 1 from isFresh) (by decide)
  parent_mem := by
    rintro id outer _ isParent rfl
    obtain ⟨scope, isScope, isOuter, _⟩ := Store.parent?_eq_some_iff.mp isParent
    match id, isScope with
    | 0, rfl => cases isOuter
    | 1, rfl => cases isOuter
    | 2, rfl => cases isOuter
  value_madeIn := by
    rintro id scope binding isInside isScope isBound _ isClosure rfl
    match id, isScope with
    | 0, rfl =>
        cases List.mem_singleton.mp isBound
        cases isClosure
    | 1, _ => exact isInside rfl
    | 2, rfl =>
        cases List.mem_singleton.mp isBound
        cases isClosure

theorem run_confined_twoFiles :
    let request : Request :=
      .expression (.call (.reference "set" default) [] default)
    Store.AgreeOn {id | (twoFiles 1).Reachable (request.roots 0) id}
        (twoFiles 1) (twoFiles 7) ∧
      (request.run 4 ⟨twoFiles 1, 0⟩).ConfinedTo
        ((twoFiles 1).regionOf (request.roots 0)) ⟨twoFiles 1, twoFiles 7⟩ 0
        (fun _ signal found => found = signal)
        (request.run 4 ⟨twoFiles 7, 0⟩) := by
  intro request
  have agree : Store.AgreeOn {id | (twoFiles 1).Reachable (request.roots 0) id}
      (twoFiles 1) (twoFiles 7) := by
    constructor
    · rfl
    · intro id reached
      have startsInside : request.roots 0 ⊆ {id | id ≠ 1} := by
        rintro _ rfl
        exact Nat.zero_ne_one
      have notSecond : id ≠ 1 := reached.mem (isRegion_twoFiles 1) startsInside
      match id with
      | 0 => rfl
      | 1 => exact absurd rfl notSecond
      | _ + 2 => rfl
  exact ⟨agree, run_confined agree 4⟩

end Request

end Scriptlet
