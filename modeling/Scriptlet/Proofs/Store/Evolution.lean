import Scriptlet.Proofs.Value.Mapped
import Scriptlet.Store

namespace Scriptlet

/-!
# How a store evolves

Scopes are added to a store and never taken away.  A scope keeps its frame and the
scope around it, a binding keeps its flag and the place of its declaration, and a
constant keeps its value.  In a well-formed store the scope around a scope is an
older one, so that the way outwards always ends in a scope that nothing is around.
-/

/-! ## Scopes after a change -/

namespace Scope

@[simp] theorem binding?_bind
    (scope : Scope)
    (binding : Binding)
    (name : String) :
    (scope.bind binding).binding? name =
      if binding.name = name then some binding else scope.binding? name := by
  by_cases isName : binding.name = name <;>
    simp [binding?, bind, isName]

@[simp] theorem binding?_assign
    (scope : Scope)
    (changed name : String)
    (value : Value) :
    (scope.assign changed value).binding? name =
      (scope.binding? name).map fun binding =>
        if changed = name then { binding with value } else binding := by
  have sameName :
      (fun binding : Binding => binding.name == name) ∘
        (fun binding =>
          if binding.name == changed then { binding with value } else binding) =
      fun binding => binding.name == name := by
    funext binding
    simp only [Function.comp_apply]
    split <;> rfl
  rw [binding?, assign, List.find?_map, sameName, binding?]
  cases found : scope.bindings.find? fun binding => binding.name == name with
  | none =>
      rfl
  | some binding =>
      have isName : binding.name = name := by
        simpa using List.find?_some found
      by_cases isChanged : changed = name
      · simp [isName, isChanged]
      · simp [isName, isChanged, Ne.symm isChanged]

end Scope

namespace Store

theorem lt_nextId_of_scope?
    {store : Store}
    {id : ScopeId}
    {scope : Scope}
    (isScope : store.scope? id = some scope) :
    id < store.nextId :=
  (Array.getElem?_eq_some_iff.mp isScope).1

theorem exists_scope?_of_lt
    {store : Store}
    {id : ScopeId}
    (exists_ : id < store.nextId) :
    ∃ scope, store.scope? id = some scope :=
  ⟨_, Array.getElem?_eq_getElem exists_⟩

@[simp] theorem nextId_openScope
    (store : Store)
    (frame : Frame)
    (parent : Option ScopeId) :
    (store.openScope frame parent).nextId = store.nextId + 1 :=
  Array.size_push _

@[simp] theorem nextId_bindIn
    (store : Store)
    (id : ScopeId)
    (binding : Binding) :
    (store.bindIn id binding).nextId = store.nextId :=
  Array.size_modify

@[simp] theorem nextId_assignIn
    (store : Store)
    (id : ScopeId)
    (name : String)
    (value : Value) :
    (store.assignIn id name value).nextId = store.nextId :=
  Array.size_modify

theorem scope?_openScope
    (store : Store)
    (frame : Frame)
    (parent : Option ScopeId)
    (id : ScopeId) :
    (store.openScope frame parent).scope? id =
      if id = store.nextId then some ⟨frame, parent, []⟩
      else store.scope? id :=
  Array.getElem?_push

theorem scope?_bindIn
    (store : Store)
    (changed : ScopeId)
    (binding : Binding)
    (id : ScopeId) :
    (store.bindIn changed binding).scope? id =
      if changed = id then (store.scope? id).map (Scope.bind · binding)
      else store.scope? id :=
  Array.getElem?_modify

theorem scope?_assignIn
    (store : Store)
    (changed : ScopeId)
    (name : String)
    (value : Value)
    (id : ScopeId) :
    (store.assignIn changed name value).scope? id =
      if changed = id then (store.scope? id).map (Scope.assign · name value)
      else store.scope? id :=
  Array.getElem?_modify

/-- A name that may be declared in a scope is not bound there. -/
theorem binding?_of_checkDeclare
    {store : Store}
    {id : ScopeId}
    {name : String}
    {span : Span}
    (isChecked : store.checkDeclare id name span = .ok ()) :
    store.binding? id name = none := by
  unfold checkDeclare at isChecked
  split at isChecked
  · cases isChecked
  · assumption

/-- A name that may be assigned to is not bound as a constant. -/
theorem constant_of_assignee
    {store : Store}
    {id owner : ScopeId}
    {name : String}
    {span : Span}
    (isAssignee : store.assignee id name span = .ok owner) :
    ∀ binding, store.binding? owner name = some binding →
      binding.constant = false := by
  unfold assignee at isAssignee
  split at isAssignee
  · split at isAssignee
    case isTrue =>
      cases isAssignee
    case isFalse notConstant =>
      cases isAssignee
      intro binding isBound
      simpa [isBound] using notConstant
  · cases isAssignee

end Store

/-! ## Evolution -/

/-- What a binding keeps: its flag, the place of its declaration, and its value if
it is constant. -/
structure Binding.Evolves (before after : Binding) : Prop where
  constant_eq : after.constant = before.constant
  declaredAt_eq : after.declaredAt = before.declaredAt
  value_eq : before.constant = true → after.value = before.value

/-- What a scope keeps: its frame, the scope around it, and its bindings. -/
structure Scope.Evolves (before after : Scope) : Prop where
  frame_eq : after.frame = before.frame
  parent_eq : after.parent = before.parent
  bindings_kept : ∀ name binding, before.binding? name = some binding →
    ∃ kept, after.binding? name = some kept ∧ binding.Evolves kept

/-- What a store keeps: all its scopes. -/
def Store.Evolves (before after : Store) : Prop :=
  ∀ id scope, before.scope? id = some scope →
    ∃ kept, after.scope? id = some kept ∧ scope.Evolves kept

namespace Binding.Evolves

theorem refl (binding : Binding) : binding.Evolves binding :=
  ⟨rfl, rfl, fun _ => rfl⟩

theorem trans
    {first second third : Binding}
    (before : first.Evolves second)
    (after : second.Evolves third) :
    first.Evolves third where
  constant_eq := after.constant_eq.trans before.constant_eq
  declaredAt_eq := after.declaredAt_eq.trans before.declaredAt_eq
  value_eq := by
    intro isConstant
    have stillConstant : second.constant = true :=
      before.constant_eq.trans isConstant
    exact (after.value_eq stillConstant).trans (before.value_eq isConstant)

end Binding.Evolves

namespace Scope.Evolves

theorem refl (scope : Scope) : scope.Evolves scope :=
  ⟨rfl, rfl, fun _ binding isBound => ⟨binding, isBound, .refl binding⟩⟩

theorem trans
    {first second third : Scope}
    (before : first.Evolves second)
    (after : second.Evolves third) :
    first.Evolves third where
  frame_eq := after.frame_eq.trans before.frame_eq
  parent_eq := after.parent_eq.trans before.parent_eq
  bindings_kept := by
    intro name binding isBound
    obtain ⟨middle, isMiddle, toMiddle⟩ :=
      before.bindings_kept name binding isBound
    obtain ⟨kept, isKept, toKept⟩ := after.bindings_kept name middle isMiddle
    exact ⟨kept, isKept, toMiddle.trans toKept⟩

/-- A further binding of a name that was not bound. -/
theorem bind
    {scope : Scope}
    {binding : Binding}
    (isNew : scope.binding? binding.name = none) :
    scope.Evolves (scope.bind binding) where
  frame_eq := rfl
  parent_eq := rfl
  bindings_kept := by
    intro name other isBound
    have otherName : binding.name ≠ name := by
      rintro rfl
      rw [isNew] at isBound
      cases isBound
    exact ⟨other, by rw [binding?_bind, if_neg otherName, isBound], .refl other⟩

/-- Another value for a name that is not bound as a constant. -/
theorem assign
    {scope : Scope}
    {changed : String}
    (notConstant : ∀ binding, scope.binding? changed = some binding →
      binding.constant = false)
    (value : Value) :
    scope.Evolves (scope.assign changed value) where
  frame_eq := rfl
  parent_eq := rfl
  bindings_kept := by
    intro name binding isBound
    rw [binding?_assign, isBound]
    refine ⟨_, rfl, ?_⟩
    show binding.Evolves
      (if changed = name then { binding with value } else binding)
    by_cases isChanged : changed = name
    · subst isChanged
      rw [if_pos rfl]
      refine ⟨rfl, rfl, ?_⟩
      intro isConstant
      rw [notConstant binding isBound] at isConstant
      cases isConstant
    · rw [if_neg isChanged]
      exact .refl binding

end Scope.Evolves

namespace Store.Evolves

theorem refl (store : Store) : store.Evolves store :=
  fun _ scope isScope => ⟨scope, isScope, .refl scope⟩

theorem trans
    {first second third : Store}
    (before : first.Evolves second)
    (after : second.Evolves third) :
    first.Evolves third := by
  intro id scope isScope
  obtain ⟨middle, isMiddle, toMiddle⟩ := before id scope isScope
  obtain ⟨kept, isKept, toKept⟩ := after id middle isMiddle
  exact ⟨kept, isKept, toMiddle.trans toKept⟩

theorem lt_nextId
    {before after : Store}
    {id : ScopeId}
    (evolves : before.Evolves after)
    (isKnown : id < before.nextId) :
    id < after.nextId := by
  obtain ⟨scope, isScope⟩ := exists_scope?_of_lt isKnown
  obtain ⟨kept, isKept, _⟩ := evolves id scope isScope
  exact lt_nextId_of_scope? isKept

theorem openScope
    (store : Store)
    (frame : Frame)
    (parent : Option ScopeId) :
    store.Evolves (store.openScope frame parent) := by
  intro id scope isScope
  have notNew : id ≠ store.nextId :=
    Nat.ne_of_lt (lt_nextId_of_scope? isScope)
  exact ⟨scope, by rw [scope?_openScope, if_neg notNew, isScope], .refl scope⟩

theorem bindIn
    {store : Store}
    {changed : ScopeId}
    {binding : Binding}
    (isNew : store.binding? changed binding.name = none) :
    store.Evolves (store.bindIn changed binding) := by
  intro id scope isScope
  rw [scope?_bindIn]
  by_cases isChanged : changed = id
  · subst isChanged
    rw [if_pos rfl, isScope]
    refine ⟨_, rfl, .bind ?_⟩
    simpa [binding?, isScope] using isNew
  · rw [if_neg isChanged]
    exact ⟨scope, isScope, .refl scope⟩

theorem assignIn
    {store : Store}
    {changed : ScopeId}
    {name : String}
    (notConstant : ∀ binding, store.binding? changed name = some binding →
      binding.constant = false)
    (value : Value) :
    store.Evolves (store.assignIn changed name value) := by
  intro id scope isScope
  rw [scope?_assignIn]
  by_cases isChanged : changed = id
  · subst isChanged
    rw [if_pos rfl, isScope]
    refine ⟨_, rfl, .assign ?_ value⟩
    intro binding isBound
    exact notConstant binding (by simp [binding?, isScope, isBound])
  · rw [if_neg isChanged]
    exact ⟨scope, isScope, .refl scope⟩

end Store.Evolves

/-! ## Well-formed stores -/

/-- Whether the scope around a function value is one of the store. -/
def Value.KnownIn (store : Store) (value : Value) : Prop :=
  ∀ declaration closure, value.payload = .function declaration closure →
    closure < store.nextId

theorem Value.KnownIn.evolves
    {before after : Store}
    {value : Value}
    (isKnown : value.KnownIn before)
    (evolves : before.Evolves after) :
    value.KnownIn after :=
  fun declaration closure isFunction =>
    evolves.lt_nextId (isKnown declaration closure isFunction)

theorem Value.knownIn_of_isPlain
    {value : Value}
    (isPlain : value.payload.isPlain = true)
    (store : Store) :
    value.KnownIn store := by
  intro declaration closure isFunction
  rw [isFunction] at isPlain
  cases isPlain

namespace Store

/-- Whether the scope around every scope is an older one, and the scope around
every function value is one of the store. -/
structure WellFormed (store : Store) : Prop where
  parent_lt : ∀ {id scope parent}, store.scope? id = some scope →
    scope.parent = some parent → parent < id
  value_known : ∀ {id scope binding}, store.scope? id = some scope →
    binding ∈ scope.bindings → binding.value.KnownIn store

namespace WellFormed

theorem empty : Store.empty.WellFormed where
  parent_lt := nofun
  value_known := nofun

theorem openScope
    {store : Store}
    {parent : Option ScopeId}
    (wellFormed : store.WellFormed)
    (isKnown : ∀ id, parent = some id → id < store.nextId)
    (frame : Frame) :
    (store.openScope frame parent).WellFormed where
  parent_lt := by
    intro id scope around isScope isParent
    rw [scope?_openScope] at isScope
    split at isScope
    case isTrue isNew =>
      cases isScope
      exact isNew ▸ isKnown around isParent
    case isFalse =>
      exact wellFormed.parent_lt isScope isParent
  value_known := by
    intro id scope binding isScope isBound
    rw [scope?_openScope] at isScope
    split at isScope
    case isTrue =>
      cases isScope
      cases isBound
    case isFalse =>
      exact (wellFormed.value_known isScope isBound).evolves
        (.openScope store frame parent)

theorem bindIn
    {store : Store}
    {changed : ScopeId}
    {binding : Binding}
    (wellFormed : store.WellFormed)
    (isNew : store.binding? changed binding.name = none)
    (isKnown : binding.value.KnownIn store) :
    (store.bindIn changed binding).WellFormed where
  parent_lt := by
    intro id scope around isScope isParent
    rw [scope?_bindIn] at isScope
    split at isScope
    case isTrue =>
      obtain ⟨old, isOld, rfl⟩ := Option.map_eq_some_iff.mp isScope
      exact wellFormed.parent_lt isOld isParent
    case isFalse =>
      exact wellFormed.parent_lt isScope isParent
  value_known := by
    intro id scope other isScope isBound
    have evolves := Evolves.bindIn isNew
    rw [scope?_bindIn] at isScope
    split at isScope
    case isTrue =>
      obtain ⟨old, isOld, rfl⟩ := Option.map_eq_some_iff.mp isScope
      rcases List.mem_cons.mp isBound with rfl | isOldBinding
      · exact isKnown.evolves evolves
      · exact (wellFormed.value_known isOld isOldBinding).evolves evolves
    case isFalse =>
      exact (wellFormed.value_known isScope isBound).evolves evolves

theorem assignIn
    {store : Store}
    {changed : ScopeId}
    {name : String}
    {value : Value}
    (wellFormed : store.WellFormed)
    (notConstant : ∀ binding, store.binding? changed name = some binding →
      binding.constant = false)
    (isKnown : value.KnownIn store) :
    (store.assignIn changed name value).WellFormed where
  parent_lt := by
    intro id scope around isScope isParent
    rw [scope?_assignIn] at isScope
    split at isScope
    case isTrue =>
      obtain ⟨old, isOld, rfl⟩ := Option.map_eq_some_iff.mp isScope
      exact wellFormed.parent_lt isOld isParent
    case isFalse =>
      exact wellFormed.parent_lt isScope isParent
  value_known := by
    intro id scope other isScope isBound
    have evolves := Evolves.assignIn notConstant value
    rw [scope?_assignIn] at isScope
    split at isScope
    case isTrue =>
      obtain ⟨old, isOld, rfl⟩ := Option.map_eq_some_iff.mp isScope
      obtain ⟨binding, isOldBinding, rfl⟩ := List.mem_map.mp isBound
      split
      · exact isKnown.evolves evolves
      · exact (wellFormed.value_known isOld isOldBinding).evolves evolves
    case isFalse =>
      exact (wellFormed.value_known isScope isBound).evolves evolves

/-- What a name refers to is a value whose scope exists. -/
theorem resolve_known
    {store : Store}
    {id : ScopeId}
    {name : String}
    {binding : Binding}
    (wellFormed : store.WellFormed)
    (isResolved : store.resolve? id name = some binding) :
    binding.value.KnownIn store := by
  obtain ⟨owner, _, isBound⟩ := Option.bind_eq_some_iff.mp isResolved
  obtain ⟨scope, isScope, isFound⟩ := Option.bind_eq_some_iff.mp isBound
  exact wellFormed.value_known isScope (List.mem_of_find?_eq_some isFound)

end WellFormed

/-! ## The way outwards -/

/-- The scopes from a scope outwards, each around the one before, up to one that
nothing is around. -/
inductive Chain (store : Store) : ScopeId → List ScopeId → Prop where
  | root
      (isScope : store.scope? start = some scope)
      (isRoot : scope.parent = none) :
      Chain store start [start]
  | child
      (isScope : store.scope? start = some scope)
      (isParent : scope.parent = some parent)
      (outwards : Chain store parent others) :
      Chain store start (start :: others)

theorem path_of_parent?_eq_some
    {store : Store}
    {id parent : ScopeId}
    (isParent : store.parent? id = some parent) :
    store.path id = id :: store.path parent := by
  rw [path]
  split
  · next other isOther =>
      obtain rfl := Option.some.inj (isParent.symm.trans isOther)
      rfl
  · next noParent => cases isParent.symm.trans noParent

theorem path_of_parent?_eq_none
    {store : Store}
    {id : ScopeId}
    (noParent : store.parent? id = none) :
    store.path id = [id] := by
  rw [path]
  split
  · next isParent => cases noParent.symm.trans isParent
  · rfl

/-- Names are looked up, and frames are collected, along the whole way outwards. -/
theorem WellFormed.chain_path
    {store : Store}
    {id : ScopeId}
    (wellFormed : store.WellFormed)
    (isKnown : id < store.nextId) :
    store.Chain id (store.path id) := by
  induction id using Nat.strongRecOn with
  | ind id inductionHypothesis =>
      obtain ⟨scope, isScope⟩ := exists_scope?_of_lt isKnown
      have isParent? : store.parent? id = scope.parent := by
        rw [parent?, isScope, Option.bind_some]
        cases isParent : scope.parent with
        | none => rfl
        | some parent =>
            have older := wellFormed.parent_lt isScope isParent
            simp [Option.filter, older]
      cases isParent : scope.parent with
      | none =>
          rw [path_of_parent?_eq_none (isParent?.trans isParent)]
          exact .root isScope isParent
      | some parent =>
          have older := wellFormed.parent_lt isScope isParent
          rw [path_of_parent?_eq_some (isParent?.trans isParent)]
          exact .child isScope isParent
            (inductionHypothesis parent older (Nat.lt_trans older isKnown))

end Store

end Scriptlet
