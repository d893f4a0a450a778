import Mathlib.Data.List.Find
import Mathlib.Data.List.Forall2
import Scriptlet.Machine
import Scriptlet.Proofs.Store.Evolution

namespace Scriptlet

/-!
# Stores with matching values

Two stores match if they agree in everything but their values, and each value of the one
goes with that of the other in its place.  Then names belong to the same scopes in both,
reports show the same frames, and the same change made to both keeps them matching.
-/

/-- Bindings that agree up to their values. -/
structure Binding.Matches
    (same : Value → Value → Prop)
    (binding other : Binding) :
    Prop where
  name_eq : other.name = binding.name
  values : same binding.value other.value
  constant_eq : other.constant = binding.constant
  declaredAt_eq : other.declaredAt = binding.declaredAt

/-- Scopes that agree up to the values of their bindings. -/
structure Scope.Matches
    (same : Value → Value → Prop)
    (scope other : Scope) :
    Prop where
  frame_eq : other.frame = scope.frame
  parent_eq : other.parent = scope.parent
  bindings : List.Forall₂ (Binding.Matches same) scope.bindings other.bindings

/-- Stores that agree up to the values of their bindings. -/
def Store.Matches
    (same : Value → Value → Prop)
    (store other : Store) :
    Prop :=
  ∀ id, Option.Rel (Scope.Matches same) (store.scope? id) (other.scope? id)

/-- Machines that agree up to the values in their stores. -/
structure Machine.Matches
    (same : Value → Value → Prop)
    (machine other : Machine) :
    Prop where
  stores : machine.store.Matches same other.store
  current_eq : other.current = machine.current

/-- Two optional results that go with each other are both there or both missing. -/
theorem eq_none_or_eq_some_of_rel
    {Goes : α → β → Prop}
    {first : Option α}
    {second : Option β}
    (related : Option.Rel Goes first second) :
    (first = none ∧ second = none) ∨
      ∃ value found, first = some value ∧ second = some found ∧
        Goes value found := by
  cases related with
  | none => exact .inl ⟨rfl, rfl⟩
  | some goes => exact .inr ⟨_, _, rfl, rfl, goes⟩

variable {same : Value → Value → Prop}

/-! ## Scopes -/

namespace Scope.Matches

variable {scope other : Scope}

theorem binding?
    (scopes : scope.Matches same other)
    (name : String) :
    Option.Rel (Binding.Matches same) (scope.binding? name)
      (other.binding? name) := by
  have bindings := scopes.bindings
  unfold Scope.binding?
  generalize scope.bindings = first at bindings
  generalize other.bindings = second at bindings
  induction bindings with
  | nil =>
      exact .none
  | cons isMatch _ inductionHypothesis =>
      rw [List.find?_cons, List.find?_cons, isMatch.name_eq]
      split
      · exact .some isMatch
      · exact inductionHypothesis

theorem bind
    {binding mapped : Binding}
    (scopes : scope.Matches same other)
    (isMatch : binding.Matches same mapped) :
    (scope.bind binding).Matches same (other.bind mapped) :=
  ⟨scopes.frame_eq, scopes.parent_eq, .cons isMatch scopes.bindings⟩

theorem assign
    {value mapped : Value}
    (scopes : scope.Matches same other)
    (values : same value mapped)
    (name : String) :
    (scope.assign name value).Matches same (other.assign name mapped) := by
  refine ⟨scopes.frame_eq, scopes.parent_eq, ?_⟩
  apply List.forall₂_map_left_iff.mpr
  apply List.forall₂_map_right_iff.mpr
  apply scopes.bindings.imp
  intro binding found isMatch
  simp only [isMatch.name_eq]
  split
  · exact ⟨rfl, values, isMatch.constant_eq, isMatch.declaredAt_eq⟩
  · exact isMatch

end Scope.Matches

/-! ## Stores -/

namespace Store.Matches

variable {store other : Store}

theorem refl
    (reflexive : ∀ value, same value value)
    (store : Store) :
    store.Matches same store := by
  intro id
  cases store.scope? id with
  | none => exact .none
  | some scope =>
      refine .some ⟨rfl, rfl, ?_⟩
      exact List.forall₂_same.mpr fun binding _ =>
        ⟨rfl, reflexive binding.value, rfl, rfl⟩

section Reading

variable (stores : store.Matches same other)

include stores

theorem nextId_eq : other.nextId = store.nextId := by
  have lt_iff : ∀ id, id < other.nextId ↔ id < store.nextId := by
    intro id
    rcases eq_none_or_eq_some_of_rel (stores id) with
      ⟨isNone, otherNone⟩ | ⟨scope, found, isScope, isFound, _⟩
    · have fresh := Array.getElem?_eq_none_iff.mp isNone
      have otherFresh := Array.getElem?_eq_none_iff.mp otherNone
      exact iff_of_false (Nat.not_lt.mpr otherFresh) (Nat.not_lt.mpr fresh)
    · exact iff_of_true (lt_nextId_of_scope? isFound)
        (lt_nextId_of_scope? isScope)
  exact Nat.le_antisymm
    (Nat.le_of_not_lt fun more => Nat.lt_irrefl _ ((lt_iff _).mp more))
    (Nat.le_of_not_lt fun more => Nat.lt_irrefl _ ((lt_iff _).mpr more))

theorem parent?_eq (id : ScopeId) :
    other.parent? id = store.parent? id := by
  rcases eq_none_or_eq_some_of_rel (stores id) with
    ⟨isNone, otherNone⟩ | ⟨scope, found, isScope, isFound, scopes⟩
  · rw [parent?, otherNone, parent?, isNone]
  · rw [parent?, isFound, parent?, isScope, Option.bind_some, Option.bind_some,
      scopes.parent_eq]

theorem path_eq (id : ScopeId) :
    other.path id = store.path id := by
  fun_induction path store id with
  | case1 id parent isParent inductionHypothesis =>
      have otherParent := (stores.parent?_eq id).trans isParent
      rw [path_of_parent?_eq_some otherParent, inductionHypothesis]
  | case2 id noParent =>
      exact path_of_parent?_eq_none ((stores.parent?_eq id).trans noParent)

theorem frames_eq (id : ScopeId) :
    other.frames id = store.frames id := by
  rw [frames, stores.path_eq, frames]
  congr 1
  apply List.filterMap_congr
  intro outer _
  rcases eq_none_or_eq_some_of_rel (stores outer) with
    ⟨isNone, otherNone⟩ | ⟨scope, found, isScope, isFound, scopes⟩
  · rw [otherNone, isNone]
  · rw [isFound, isScope, Option.map_some, Option.map_some, scopes.frame_eq]

theorem diagnose_eq (id : ScopeId) (fault : RuntimeFault) (span : Span) :
    other.diagnose id fault span = store.diagnose id fault span := by
  rw [diagnose, stores.frames_eq, diagnose]

theorem binding? (id : ScopeId) (name : String) :
    Option.Rel (Binding.Matches same) (store.binding? id name)
      (other.binding? id name) := by
  rcases eq_none_or_eq_some_of_rel (stores id) with
    ⟨isNone, otherNone⟩ | ⟨scope, found, isScope, isFound, scopes⟩
  · rw [Store.binding?, isNone, Store.binding?, otherNone]
    exact .none
  · rw [Store.binding?, isScope, Store.binding?, isFound]
    exact scopes.binding? name

theorem owner?_eq (id : ScopeId) (name : String) :
    other.owner? id name = store.owner? id name := by
  have sameTest : ∀ outer ∈ store.path id,
      (other.binding? outer name).isSome = (store.binding? outer name).isSome := by
    intro outer _
    rcases eq_none_or_eq_some_of_rel (stores.binding? outer name) with
      ⟨isNone, otherNone⟩ | ⟨binding, found, isBound, isFound, _⟩
    · rw [otherNone, isNone]
    · rw [isFound, isBound]
      rfl
  rw [owner?, stores.path_eq, owner?]
  exact List.find?_congr sameTest

theorem resolve? (id : ScopeId) (name : String) :
    Option.Rel (Binding.Matches same) (store.resolve? id name)
      (other.resolve? id name) := by
  unfold Store.resolve?
  rw [stores.owner?_eq]
  cases store.owner? id name with
  | none => exact .none
  | some owner => exact stores.binding? owner name

theorem checkDeclare_eq (id : ScopeId) (name : String) (span : Span) :
    other.checkDeclare id name span = store.checkDeclare id name span := by
  rcases eq_none_or_eq_some_of_rel (stores.binding? id name) with
    ⟨isNone, otherNone⟩ | ⟨binding, found, isBound, isFound, bindings⟩
  · rw [checkDeclare, otherNone, checkDeclare, isNone]
  · simp only [checkDeclare, isFound, isBound, bindings.declaredAt_eq,
      stores.diagnose_eq]

theorem assignee_eq (id : ScopeId) (name : String) (span : Span) :
    other.assignee id name span = store.assignee id name span := by
  rw [assignee, stores.owner?_eq, assignee]
  cases store.owner? id name with
  | none =>
      simp only [stores.diagnose_eq]
  | some owner =>
      have sameFlag : (other.binding? owner name).any Binding.constant =
          (store.binding? owner name).any Binding.constant := by
        rcases eq_none_or_eq_some_of_rel (stores.binding? owner name) with
          ⟨isNone, otherNone⟩ | ⟨binding, found, isBound, isFound, bindings⟩
        · rw [otherNone, isNone]
        · rw [isFound, isBound]
          exact bindings.constant_eq
      simp only [sameFlag, stores.diagnose_eq]

/-! ## Changes -/

theorem openScope (frame : Frame) (parent : Option ScopeId) :
    (store.openScope frame parent).Matches same
      (other.openScope frame parent) := by
  intro id
  rw [scope?_openScope, scope?_openScope, stores.nextId_eq]
  split
  · exact .some ⟨rfl, rfl, .nil⟩
  · exact stores id

theorem bindIn
    {binding mapped : Binding}
    (isMatch : binding.Matches same mapped)
    (changed : ScopeId) :
    (store.bindIn changed binding).Matches same
      (other.bindIn changed mapped) := by
  intro id
  rw [scope?_bindIn, scope?_bindIn]
  split
  · rcases eq_none_or_eq_some_of_rel (stores id) with
      ⟨isNone, otherNone⟩ | ⟨scope, found, isScope, isFound, scopes⟩
    · rw [isNone, otherNone]
      exact .none
    · rw [isScope, isFound]
      exact .some (scopes.bind isMatch)
  · exact stores id

theorem assignIn
    {value mapped : Value}
    (values : same value mapped)
    (changed : ScopeId)
    (name : String) :
    (store.assignIn changed name value).Matches same
      (other.assignIn changed name mapped) := by
  intro id
  rw [scope?_assignIn, scope?_assignIn]
  split
  · rcases eq_none_or_eq_some_of_rel (stores id) with
      ⟨isNone, otherNone⟩ | ⟨scope, found, isScope, isFound, scopes⟩
    · rw [isNone, otherNone]
      exact .none
    · rw [isScope, isFound]
      exact .some (scopes.assign values name)
  · exact stores id

end Reading

end Store.Matches

end Scriptlet
