import Scriptlet.Machine
import Scriptlet.Proofs.Store.Bound
import Scriptlet.Proofs.Store.Region

namespace Scriptlet

/-!
# What is seen of a change

A name that is used in a scope is looked for from there outwards, and the first scope
that binds it counts.  So whoever uses the name sees a declaration or an assignment
exactly if the changed scope lies on the way outwards and no scope in front of it binds
the name.  Everyone else finds the same as before.
-/

namespace Store

/-- Whether a search for a name gets from one scope as far as to another one: no scope
on the way there binds the name. -/
def Sees
    (store : Store)
    (start : ScopeId)
    (name : String)
    (target : ScopeId) :
    Prop :=
  ∃ inner outer, store.Chain start (inner ++ target :: outer) ∧
    ∀ id ∈ inner, ¬ store.Binds id name

/-- Whether a search for a name from a scope ends at a binding in some scope. -/
structure Finds
    (store : Store)
    (start : ScopeId)
    (name : String)
    (owner : ScopeId)
    (binding : Binding) :
    Prop where
  sees : store.Sees start name owner
  isBound : store.binding? owner name = some binding

/-- Whether two stores differ by what a scope binds a name to: those that see the scope
under that name get the value, and for all others, and under all other names, nothing has
changed. -/
structure Changes
    (before after : Store)
    (target : ScopeId)
    (name : String)
    (value : Value) :
    Prop where
  seen : ∀ id < before.nextId, before.Sees id name target →
    ∀ span, after.get id name span = .ok value
  unseen : ∀ id < before.nextId, ∀ other,
    ¬ (other = name ∧ before.Sees id name target) →
    ∀ span, after.get id other span = before.get id other span

/-! ## The way outwards -/

/-- There is only one way outwards. -/
theorem Chain.unique
    {store : Store}
    {start : ScopeId}
    {chain other : List ScopeId}
    (outwards : store.Chain start chain)
    (alsoOutwards : store.Chain start other) :
    chain = other := by
  induction outwards generalizing other with
  | root isScope isRoot =>
      cases alsoOutwards with
      | root _ _ => rfl
      | child isSame isParent _ =>
          obtain rfl := Option.some.inj (isScope.symm.trans isSame)
          cases isRoot.symm.trans isParent
  | child isScope isParent _ inductionHypothesis =>
      cases alsoOutwards with
      | root isSame isRoot =>
          obtain rfl := Option.some.inj (isScope.symm.trans isSame)
          cases isParent.symm.trans isRoot
      | child isSame isAlsoParent further =>
          obtain rfl := Option.some.inj (isScope.symm.trans isSame)
          obtain rfl := Option.some.inj (isParent.symm.trans isAlsoParent)
          rw [inductionHypothesis further]

/-- The way outwards never comes back. -/
theorem path_nodup (store : Store) (id : ScopeId) :
    (store.path id).Nodup := by
  fun_induction path store id with
  | case1 id parent isParent inductionHypothesis =>
      refine List.nodup_cons.mpr ⟨?_, inductionHypothesis⟩
      intro isOutside
      exact absurd (parent?_lt isParent) (Nat.not_lt.mpr (le_of_mem_path isOutside))
  | case2 id noParent => simp

variable {store after : Store} {id scope owner target : ScopeId} {name : String}

theorem sees_iff (ends : store.Chain id (store.path id)) :
    store.Sees id name target ↔
      ∃ inner outer, store.path id = inner ++ target :: outer ∧
        ∀ id ∈ inner, ¬ store.Binds id name := by
  constructor
  · rintro ⟨inner, outer, outwards, unbound⟩
    exact ⟨inner, outer, ends.unique outwards, unbound⟩
  · rintro ⟨inner, outer, isPath, unbound⟩
    exact ⟨inner, outer, isPath ▸ ends, unbound⟩

/-- Names are looked up in the scope that binds them and is seen. -/
theorem owner?_eq_some_iff (ends : store.Chain id (store.path id)) :
    store.owner? id name = some owner ↔
      store.Binds owner name ∧ store.Sees id name owner := by
  rw [sees_iff ends, owner?, List.find?_eq_some_iff_append]
  simp only [Binds, Bool.not_eq_true', Bool.not_eq_true, exists_and_right]

theorem resolve?_eq_some_iff
    {binding : Binding}
    (ends : store.Chain id (store.path id)) :
    store.resolve? id name = some binding ↔
      ∃ owner, store.Finds id name owner binding := by
  rw [resolve?, Option.bind_eq_some_iff]
  constructor
  · rintro ⟨owner, isOwner, isBound⟩
    exact ⟨owner, ((owner?_eq_some_iff ends).mp isOwner).2, isBound⟩
  · rintro ⟨owner, sees, isBound⟩
    have binds : store.Binds owner name := by rw [Binds, isBound, Option.isSome_some]
    exact ⟨owner, (owner?_eq_some_iff ends).mpr ⟨binds, sees⟩, isBound⟩

theorem get_of_finds
    {binding : Binding}
    (ends : store.Chain id (store.path id))
    (finds : store.Finds id name owner binding)
    (span : Span) :
    store.get id name span = .ok binding.value := by
  rw [get, (resolve?_eq_some_iff ends).mpr ⟨owner, finds⟩]

/-- A search ends in one scope only. -/
theorem Finds.unique
    {other : ScopeId}
    {binding otherBinding : Binding}
    (ends : store.Chain id (store.path id))
    (finds : store.Finds id name owner binding)
    (alsoFinds : store.Finds id name other otherBinding) :
    owner = other ∧ binding = otherBinding := by
  have binds : ∀ {found : ScopeId} {bound : Binding},
      store.Finds id name found bound → store.owner? id name = some found := by
    intro found bound isFound
    have isBound : store.Binds found name := by
      rw [Binds, isFound.isBound, Option.isSome_some]
    exact (owner?_eq_some_iff ends).mpr ⟨isBound, isFound.sees⟩
  obtain rfl := Option.some.inj ((binds finds).symm.trans (binds alsoFinds))
  exact ⟨rfl, Option.some.inj (finds.isBound.symm.trans alsoFinds.isBound)⟩

/-- Whoever sees a scope sees all scopes in front of it. -/
theorem Sees.earlier
    {inner outer : List ScopeId}
    (ends : store.Chain id (store.path id))
    (isPath : store.path id = inner ++ target :: outer)
    (unbound : ∀ id ∈ inner, ¬ store.Binds id name)
    (isInner : scope ∈ inner) :
    store.Sees id name scope := by
  obtain ⟨before, behind, rfl⟩ := List.append_of_mem isInner
  refine (sees_iff ends).mpr ⟨before, behind ++ target :: outer, ?_, ?_⟩
  · rw [isPath, List.append_assoc, List.cons_append]
  · intro id isBefore
    exact unbound id (List.mem_append_left _ isBefore)

/-! ## Stores after a change -/

namespace Evolves

theorem chain
    {chain : List ScopeId}
    (evolves : store.Evolves after)
    (outwards : store.Chain id chain) :
    after.Chain id chain := by
  induction outwards with
  | root isScope isRoot =>
      obtain ⟨kept, isKept, scopeEvolves⟩ := evolves _ _ isScope
      exact .root isKept (scopeEvolves.parent_eq.trans isRoot)
  | child isScope isParent _ inductionHypothesis =>
      obtain ⟨kept, isKept, scopeEvolves⟩ := evolves _ _ isScope
      exact .child isKept (scopeEvolves.parent_eq.trans isParent) inductionHypothesis

variable (evolves : store.Evolves after) (isKnown : id < store.nextId)
  (ends : store.Chain id (store.path id))

include evolves isKnown ends

theorem chain_path : after.Chain id (after.path id) := by
  rw [evolves.path_eq isKnown]
  exact evolves.chain ends

theorem sees_iff :
    after.Sees id name target ↔
      ∃ inner outer, store.path id = inner ++ target :: outer ∧
        ∀ id ∈ inner, ¬ after.Binds id name := by
  rw [Store.sees_iff (evolves.chain_path isKnown ends), evolves.path_eq isKnown]

/-- A search that gets to a scope got there before. -/
theorem sees (sees : after.Sees id name target) : store.Sees id name target := by
  obtain ⟨inner, outer, isPath, unbound⟩ := (evolves.sees_iff isKnown ends).mp sees
  refine (Store.sees_iff ends).mpr ⟨inner, outer, isPath, ?_⟩
  intro id isInner binds
  obtain ⟨binding, isBound⟩ := Option.isSome_iff_exists.mp binds
  obtain ⟨scope, isScope, isFound⟩ := Option.bind_eq_some_iff.mp isBound
  obtain ⟨later, isLater, scopeEvolves⟩ := evolves id scope isScope
  obtain ⟨kept, isKept, _⟩ := scopeEvolves.bindings_kept name binding isFound
  apply unbound id isInner
  rw [Binds, binding?, isLater, Option.bind_some, isKept, Option.isSome_some]

/-- Searches that end at the same bindings give the same values, and those that fail are
reported in the same way. -/
theorem get_eq
    (sameSearch : ∀ owner binding,
      after.Finds id name owner binding ↔ store.Finds id name owner binding)
    (span : Span) :
    after.get id name span = store.get id name span := by
  have sameBinding : after.resolve? id name = store.resolve? id name := by
    apply Option.ext
    intro binding
    rw [resolve?_eq_some_iff (evolves.chain_path isKnown ends),
      resolve?_eq_some_iff ends]
    exact exists_congr fun owner => sameSearch owner binding
  rw [get, get, sameBinding, diagnose, diagnose, evolves.frames_eq isKnown]

end Evolves

/-! ## Assignments -/

theorem binding?_assignIn
    (store : Store)
    (changed id : ScopeId)
    (assigned name : String)
    (value : Value) :
    (store.assignIn changed assigned value).binding? id name =
      (store.binding? id name).map fun binding =>
        if changed = id ∧ assigned = name then { binding with value } else binding := by
  rw [binding?, scope?_assignIn, binding?]
  by_cases isChanged : changed = id
  · cases store.scope? id <;> simp [isChanged]
  · simp [isChanged]

theorem binds_assignIn
    (store : Store)
    (changed id : ScopeId)
    (assigned name : String)
    (value : Value) :
    (store.assignIn changed assigned value).Binds id name ↔ store.Binds id name := by
  rw [Binds, Binds, binding?_assignIn, Option.isSome_map]

/-- An assignment is seen by all scopes from which the name refers to the binding. -/
theorem changes_assignIn
    {binding : Binding}
    (ends : ∀ id < store.nextId, store.Chain id (store.path id))
    (isBound : store.binding? owner name = some binding)
    (isVariable : binding.constant = false)
    (value : Value) :
    store.Changes (store.assignIn owner name value) owner name value := by
  have evolves : store.Evolves (store.assignIn owner name value) := by
    apply Evolves.assignIn
    intro other isOther
    obtain rfl := Option.some.inj (isBound.symm.trans isOther)
    exact isVariable
  have sees_iff : ∀ id < store.nextId, ∀ other target,
      (store.assignIn owner name value).Sees id other target ↔
        store.Sees id other target := by
    intro id isKnown other target
    rw [evolves.sees_iff isKnown (ends id isKnown), Store.sees_iff (ends id isKnown)]
    simp only [binds_assignIn]
  constructor
  · intro id isKnown sees span
    have finds : (store.assignIn owner name value).Finds id name owner
        { binding with value } := by
      refine ⟨(sees_iff id isKnown name owner).mpr sees, ?_⟩
      rw [binding?_assignIn, isBound, Option.map_some, if_pos ⟨rfl, rfl⟩]
    exact get_of_finds (evolves.chain_path isKnown (ends id isKnown)) finds span
  · intro id isKnown other unseen span
    apply evolves.get_eq isKnown (ends id isKnown)
    intro found bound
    suffices sameBinding : store.Sees id other found →
        (store.assignIn owner name value).binding? found other =
          store.binding? found other by
      constructor
      · rintro ⟨sees, isFound⟩
        rw [sees_iff id isKnown] at sees
        exact ⟨sees, (sameBinding sees).symm.trans isFound⟩
      · rintro ⟨sees, isFound⟩
        exact ⟨(sees_iff id isKnown other found).mpr sees,
          (sameBinding sees).trans isFound⟩
    intro sees
    have notChanged : ¬ (owner = found ∧ name = other) := by
      rintro ⟨rfl, rfl⟩
      exact unseen ⟨rfl, sees⟩
    simp [binding?_assignIn, notChanged]

/-! ## Declarations -/

theorem binding?_bindIn_of_ne
    {binding : Binding}
    (notChanged : ¬ (scope = id ∧ binding.name = name)) :
    (store.bindIn scope binding).binding? id name = store.binding? id name := by
  rw [binding?, scope?_bindIn, binding?]
  by_cases isChanged : scope = id
  · have otherName : binding.name ≠ name := fun isName => notChanged ⟨isChanged, isName⟩
    cases store.scope? id <;> simp [isChanged, otherName]
  · rw [if_neg isChanged]

/-- A declaration is seen by all scopes from which a search gets as far as to the scope of
the declaration. -/
theorem changes_bindIn
    {value : Value}
    {constant : Bool}
    {place : Span}
    (ends : ∀ id < store.nextId, store.Chain id (store.path id))
    (isScope : scope < store.nextId)
    (isNew : store.binding? scope name = none) :
    store.Changes (store.bindIn scope ⟨name, value, constant, place⟩) scope name
      value := by
  have evolves : store.Evolves (store.bindIn scope ⟨name, value, constant, place⟩) :=
    .bindIn isNew
  constructor
  · intro id isKnown sees span
    have finds : (store.bindIn scope ⟨name, value, constant, place⟩).Finds id name scope
        ⟨name, value, constant, place⟩ := by
      refine ⟨?_, by rw [binding?_bindIn isScope, if_pos rfl]⟩
      obtain ⟨inner, outer, isPath, unbound⟩ := (sees_iff (ends id isKnown)).mp sees
      refine (evolves.sees_iff isKnown (ends id isKnown)).mpr
        ⟨inner, outer, isPath, ?_⟩
      intro other isInner
      have notScope : scope ≠ other := by
        rintro rfl
        have onlyOnce := isPath ▸ store.path_nodup id
        exact (List.nodup_append.mp onlyOnce).2.2 scope isInner scope
          List.mem_cons_self rfl
      rw [Binds, binding?_bindIn_of_ne fun isChanged => notScope isChanged.1]
      exact unbound other isInner
    exact get_of_finds (evolves.chain_path isKnown (ends id isKnown)) finds span
  · intro id isKnown other unseen span
    have notChanged : ∀ target, store.Sees id other target →
        ¬ (scope = target ∧ name = other) := by
      rintro target sees ⟨rfl, rfl⟩
      exact unseen ⟨rfl, sees⟩
    have keepsSeeing : ∀ target, store.Sees id other target →
        (store.bindIn scope ⟨name, value, constant, place⟩).Sees id other target := by
      intro target sees
      obtain ⟨inner, outer, isPath, unbound⟩ := (sees_iff (ends id isKnown)).mp sees
      refine (evolves.sees_iff isKnown (ends id isKnown)).mpr
        ⟨inner, outer, isPath, ?_⟩
      intro between isInner
      have seesBetween := Sees.earlier (ends id isKnown) isPath unbound isInner
      rw [Binds, binding?_bindIn_of_ne (notChanged between seesBetween)]
      exact unbound between isInner
    apply evolves.get_eq isKnown (ends id isKnown)
    intro found bound
    constructor
    · rintro ⟨sees, isFound⟩
      have sawBefore := evolves.sees isKnown (ends id isKnown) sees
      rw [binding?_bindIn_of_ne (notChanged found sawBefore)] at isFound
      exact ⟨sawBefore, isFound⟩
    · rintro ⟨sees, isFound⟩
      refine ⟨keepsSeeing found sees, ?_⟩
      rwa [binding?_bindIn_of_ne (notChanged found sees)]

end Store

/-! ## Declaring, assigning and looking up on a machine -/

namespace Eval

/-- Whether an action succeeds on a machine just under a condition, and then has an effect,
and otherwise reports a fault and leaves the machine as it was. -/
structure Exact
    (action : Eval α)
    (machine : Machine)
    (Condition : Prop)
    (Effect : α → Machine → Prop)
    (Fault : ErrorKind → Prop) :
    Prop where
  done_iff : (∃ result final, action machine = .done result final) ↔ Condition
  effect : ∀ result final, action machine = .done result final → Effect result final
  failed_iff : (∃ diagnostic final, action machine = .failed diagnostic final) ↔
    ¬ Condition
  fault : ∀ diagnostic final, action machine = .failed diagnostic final →
    final = machine ∧ Fault diagnostic.kind

namespace Exact

variable {α : Type} {action : Eval α} {machine : Machine} {Condition : Prop}
  {Effect : α → Machine → Prop} {Fault : ErrorKind → Prop}

theorem of_done
    (result : α)
    (final : Machine)
    (isDone : action machine = .done result final)
    (isMet : Condition)
    (hasEffect : Effect result final) :
    action.Exact machine Condition Effect Fault where
  done_iff := iff_of_true ⟨result, final, isDone⟩ isMet
  effect := by
    intro other otherFinal isOther
    cases isDone.symm.trans isOther
    exact hasEffect
  failed_iff := by
    refine iff_of_false ?_ (not_not_intro isMet)
    rintro ⟨diagnostic, otherFinal, isOther⟩
    cases isDone.symm.trans isOther
  fault := by
    intro diagnostic otherFinal isOther
    cases isDone.symm.trans isOther

theorem of_failed
    (diagnostic : Diagnostic)
    (isFailed : action machine = .failed diagnostic machine)
    (notMet : ¬ Condition)
    (isFault : Fault diagnostic.kind) :
    action.Exact machine Condition Effect Fault where
  done_iff := by
    refine iff_of_false ?_ notMet
    rintro ⟨result, final, isOther⟩
    cases isFailed.symm.trans isOther
  effect := by
    intro result final isOther
    cases isFailed.symm.trans isOther
  failed_iff := iff_of_true ⟨diagnostic, machine, isFailed⟩ notMet
  fault := by
    intro other otherFinal isOther
    cases isFailed.symm.trans isOther
    exact ⟨rfl, isFault⟩

end Exact

section Actions

variable {store : Store} {scope : ScopeId}
  (ends : ∀ id < store.nextId, store.Chain id (store.path id))
  (isKnown : scope < store.nextId)
  (name : String)

include ends isKnown

theorem assign_exact (value : Value) (span : Span) :
    (assign name value span).Exact ⟨store, scope⟩
      (∃ owner binding, store.Finds scope name owner binding ∧
        binding.constant = false)
      (fun result final => result = value ∧ final.current = scope ∧
        ∃ owner binding, store.Finds scope name owner binding ∧
          store.Changes final.store owner name value)
      (fun kind =>
        (∃ owner binding, store.Finds scope name owner binding ∧
          binding.constant = true ∧ kind = .constantVariableAssignment) ∨
        (∀ owner binding, ¬ store.Finds scope name owner binding) ∧
          kind = .undefinedVariable) := by
  have isChain := ends scope isKnown
  cases isOwner : store.owner? scope name with
  | none =>
      have notFound : ∀ owner binding, ¬ store.Finds scope name owner binding := by
        intro owner binding finds
        have binds : store.Binds owner name := by
          rw [Store.Binds, finds.isBound, Option.isSome_some]
        cases isOwner.symm.trans
          ((Store.owner?_eq_some_iff isChain).mpr ⟨binds, finds.sees⟩)
      refine .of_failed (store.diagnose scope (.undefinedVariable name) span) ?_ ?_
        (.inr ⟨notFound, rfl⟩)
      · simp only [assign, Store.assignee, isOwner]
      · rintro ⟨owner, binding, finds, _⟩
        exact notFound owner binding finds
  | some owner =>
      obtain ⟨binds, sees⟩ := (Store.owner?_eq_some_iff isChain).mp isOwner
      obtain ⟨binding, isBound⟩ := Option.isSome_iff_exists.mp binds
      have finds : store.Finds scope name owner binding := ⟨sees, isBound⟩
      cases isConstant : binding.constant with
      | true =>
          refine .of_failed (store.diagnose scope (.constantAssignment name) span) ?_ ?_
            (.inl ⟨owner, binding, finds, isConstant, rfl⟩)
          · simp [assign, Store.assignee, isOwner, isBound, isConstant]
          · rintro ⟨other, otherBinding, otherFinds, isVariable⟩
            obtain ⟨_, rfl⟩ := finds.unique isChain otherFinds
            cases isConstant.symm.trans isVariable
      | false =>
          have changes := Store.changes_assignIn ends isBound isConstant value
          refine .of_done value ⟨store.assignIn owner name value, scope⟩ ?_
            ⟨owner, binding, finds, isConstant⟩
            ⟨rfl, rfl, owner, binding, finds, changes⟩
          simp [assign, Store.assignee, isOwner, isBound, isConstant]

theorem declareIn_exact
    (current : ScopeId)
    (constant : Bool)
    (value : Value)
    (span : Span) :
    (declareIn scope constant name value span).Exact ⟨store, current⟩
      (¬ store.Binds scope name)
      (fun _ final => final.current = current ∧
        store.Changes final.store scope name value)
      (fun kind => kind = .variableAlreadyDeclared) := by
  cases isBound : store.binding? scope name with
  | none =>
      refine .of_done () ⟨store.bindIn scope ⟨name, value, constant, span⟩, current⟩ ?_ ?_
        ⟨rfl, Store.changes_bindIn ends isKnown isBound⟩
      · simp only [declareIn, Store.checkDeclare, isBound]
      · simp [Store.Binds, isBound]
  | some existing =>
      refine .of_failed
        (store.diagnose scope
          (.variableAlreadyDeclared name existing.declaredAt.line) span)
        ?_ ?_ rfl
      · simp only [declareIn, Store.checkDeclare, isBound]
      · simp [Store.Binds, isBound]

theorem lookUp_exact (span : Span) :
    (lookUp name span).Exact ⟨store, scope⟩
      (∃ owner binding, store.Finds scope name owner binding)
      (fun result final => final = ⟨store, scope⟩ ∧
        ∃ owner binding, store.Finds scope name owner binding ∧
          result = binding.value)
      (fun kind => kind = .undefinedVariable) := by
  have isChain := ends scope isKnown
  cases isResolved : store.resolve? scope name with
  | none =>
      refine .of_failed (store.diagnose scope (.undefinedVariable name) span) ?_ ?_ rfl
      · simp only [lookUp, Store.get, isResolved]
      · rintro ⟨owner, binding, finds⟩
        cases isResolved.symm.trans
          ((Store.resolve?_eq_some_iff isChain).mpr ⟨owner, finds⟩)
  | some binding =>
      obtain ⟨owner, finds⟩ := (Store.resolve?_eq_some_iff isChain).mp isResolved
      refine .of_done binding.value ⟨store, scope⟩ ?_ ⟨owner, binding, finds⟩
        ⟨rfl, owner, binding, finds, rfl⟩
      simp only [lookUp, Store.get, isResolved]

end Actions

/-- In a store whose scopes all have a way outwards that comes to an end, the scopes around
being the older ones:

- an assignment succeeds exactly if the search for the name ends at a variable, and is seen
  by all scopes from which the search ends there;
- a declaration succeeds exactly if the scope does not bind the name itself, and is seen by
  all scopes from which a search gets as far as to this scope;
- a use of a name succeeds exactly if the search ends at a binding, and gives its value.

What fails leaves the machine as it was. -/
theorem accesses_exact
    {store : Store}
    {scope : ScopeId}
    (ends : ∀ id < store.nextId, store.Chain id (store.path id))
    (isKnown : scope < store.nextId)
    (name : String)
    (value : Value)
    (span : Span) :
    (assign name value span).Exact ⟨store, scope⟩
      (∃ owner binding, store.Finds scope name owner binding ∧
        binding.constant = false)
      (fun result final => result = value ∧ final.current = scope ∧
        ∃ owner binding, store.Finds scope name owner binding ∧
          store.Changes final.store owner name value)
      (fun kind =>
        (∃ owner binding, store.Finds scope name owner binding ∧
          binding.constant = true ∧ kind = .constantVariableAssignment) ∨
        (∀ owner binding, ¬ store.Finds scope name owner binding) ∧
          kind = .undefinedVariable) ∧
    (∀ current constant,
      (declareIn scope constant name value span).Exact ⟨store, current⟩
        (¬ store.Binds scope name)
        (fun _ final => final.current = current ∧
          store.Changes final.store scope name value)
        (fun kind => kind = .variableAlreadyDeclared)) ∧
    (lookUp name span).Exact ⟨store, scope⟩
      (∃ owner binding, store.Finds scope name owner binding)
      (fun result final => final = ⟨store, scope⟩ ∧
        ∃ owner binding, store.Finds scope name owner binding ∧
          result = binding.value)
      (fun kind => kind = .undefinedVariable) :=
  ⟨assign_exact ends isKnown name value span,
    fun current constant => declareIn_exact ends isKnown name current constant value span,
    lookUp_exact ends isKnown name span⟩

/-- The outermost scope and scope 1 in it both bind a name; scope 2 lies in scope 1, and
scope 3 in the outermost one. -/
def shadowing : Store where
  scopes :=
    #[⟨.file "main", none, [⟨"x", ⟨.int 1, 0⟩, false, Span.nowhere⟩]⟩,
      ⟨.block 2 "main", some 0, [⟨"x", ⟨.int 2, 1⟩, false, Span.nowhere⟩]⟩,
      ⟨.block 3 "main", some 1, []⟩,
      ⟨.block 6 "main", some 0, []⟩]

/-- An assignment in scope 2 is seen there and not in scope 3. -/
theorem accesses_exact_shadowing :
    ∃ result final,
      assign "x" ⟨.int 3, 2⟩ Span.nowhere ⟨shadowing, 2⟩ = .done result final ∧
      final.store.get 2 "x" Span.nowhere = .ok ⟨.int 3, 2⟩ ∧
      final.store.get 3 "x" Span.nowhere = shadowing.get 3 "x" Span.nowhere := by
  have ends : ∀ id < shadowing.nextId, shadowing.Chain id (shadowing.path id) := by
    have outermost : shadowing.Chain 0 (shadowing.path 0) := by
      rw [Store.path_of_parent?_eq_none rfl]
      exact .root rfl rfl
    have inside : ∀ {id parent scope}, shadowing.scope? id = some scope →
        scope.parent = some parent → parent < id →
        shadowing.Chain parent (shadowing.path parent) →
        shadowing.Chain id (shadowing.path id) := by
      intro id parent scope isScope isParent older outwards
      rw [Store.path_of_parent?_eq_some
        (Store.parent?_eq_some_iff.mpr ⟨scope, isScope, isParent, older⟩)]
      exact .child isScope isParent outwards
    have first : shadowing.Chain 1 (shadowing.path 1) :=
      inside rfl rfl (by decide) outermost
    intro id isKnown
    match id, isKnown with
    | 0, _ => exact outermost
    | 1, _ => exact first
    | 2, _ => exact inside rfl rfl (by decide) first
    | 3, _ => exact inside rfl rfl (by decide) outermost
  have sees : shadowing.Sees 2 "x" 1 := by
    refine ⟨[2], [0], .child rfl rfl (.child rfl rfl (.root rfl rfl)), ?_⟩
    simp [Store.Binds, Store.binding?, shadowing, Store.scope?, Scope.binding?]
  have notSeen : ¬ shadowing.Sees 3 "x" 1 := by
    rintro ⟨inner, outer, outwards, _⟩
    have isChain : shadowing.Chain 3 [3, 0] := .child rfl rfl (.root rfl rfl)
    have isMember : (1 : ScopeId) ∈ inner ++ 1 :: outer := by simp
    rw [outwards.unique isChain] at isMember
    revert isMember
    decide
  have finds : shadowing.Finds 2 "x" 1 ⟨"x", ⟨.int 2, 1⟩, false, Span.nowhere⟩ :=
    ⟨sees, rfl⟩
  have isExact := (accesses_exact ends (by decide : 2 < shadowing.nextId) "x" ⟨.int 3, 2⟩
    Span.nowhere).1
  obtain ⟨result, final, isDone⟩ := isExact.done_iff.mpr ⟨1, _, finds, rfl⟩
  obtain ⟨_, _, owner, binding, alsoFinds, changes⟩ := isExact.effect result final isDone
  obtain ⟨rfl, rfl⟩ := finds.unique (ends 2 (by decide)) alsoFinds
  exact ⟨result, final, isDone, changes.seen 2 (by decide) sees Span.nowhere,
    changes.unseen 3 (by decide) "x" (fun isSeen => notSeen isSeen.2) Span.nowhere⟩

end Eval

end Scriptlet
