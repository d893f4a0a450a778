import Scriptlet.Machine
import Scriptlet.Proofs.Store.Evolution

namespace Scriptlet

/-!
# Stores up to spans

Two stores are the same up to spans if they agree once the spans in their values and
bindings, and the lines and files of their frames, are replaced by one and the same
span.  What a store is asked for does not depend on them.
-/

/-- A frame without the place of what it stands for. -/
def Frame.bare : Frame → Frame
  | .file fileName => .file fileName
  | .block _ _ => .block Span.nowhere.line Span.nowhere.fileName
  | .call name _ _ => .call name Span.nowhere.line Span.nowhere.fileName

/-- A value without its spans. -/
def Value.bare (value : Value) : Value where
  payload := value.payload.mapSpans fun _ => Span.nowhere
  scope := value.scope

/-- A binding without its spans. -/
def Binding.bare (binding : Binding) : Binding where
  name := binding.name
  value := binding.value.bare
  constant := binding.constant
  declaredAt := Span.nowhere

/-- A scope without its spans. -/
def Scope.bare (scope : Scope) : Scope where
  frame := scope.frame.bare
  parent := scope.parent
  bindings := scope.bindings.map Binding.bare

/-- A store without its spans. -/
def Store.bare (store : Store) : Store where
  scopes := store.scopes.map Scope.bare

/-- A machine without its spans. -/
def Machine.bare (machine : Machine) : Machine where
  store := machine.store.bare
  current := machine.current

theorem Value.operand_bare (value : Value) :
    value.bare.operand = value.operand :=
  Value.Resembles.operand_eq (value.payload.resembles_mapSpans _)

/-! ## Scopes -/

namespace Scope

theorem binding?_bare (scope : Scope) (name : String) :
    scope.bare.binding? name = (scope.binding? name).map Binding.bare :=
  List.find?_map

theorem bare_assign (scope : Scope) (name : String) (value : Value) :
    (scope.assign name value).bare = scope.bare.assign name value.bare := by
  have sameBindings :
      (scope.assign name value).bare.bindings =
        (scope.bare.assign name value.bare).bindings := by
    simp only [assign, bare, List.map_map]
    apply List.map_congr_left
    intro binding _
    by_cases isName : binding.name = name <;> simp [Binding.bare, isName]
  exact congrArg (Scope.mk scope.frame.bare scope.parent) sameBindings

end Scope

/-! ## Stores -/

namespace Store

theorem ext_scope?
    {store other : Store}
    (same : ∀ id, store.scope? id = other.scope? id) :
    store = other :=
  congrArg Store.mk (Array.ext_getElem? same)

theorem scope?_bare (store : Store) (id : ScopeId) :
    store.bare.scope? id = (store.scope? id).map Scope.bare :=
  Array.getElem?_map

theorem nextId_bare (store : Store) :
    store.bare.nextId = store.nextId :=
  Array.size_map

theorem parent?_bare (store : Store) (id : ScopeId) :
    store.bare.parent? id = store.parent? id := by
  rw [parent?, scope?_bare, Option.bind_map, parent?]
  rfl

theorem path_bare (store : Store) (id : ScopeId) :
    store.bare.path id = store.path id := by
  fun_induction path store id with
  | case1 id parent isParent inductionHypothesis =>
      have isBareParent := (store.parent?_bare id).trans isParent
      rw [path_of_parent?_eq_some isBareParent, inductionHypothesis]
  | case2 id noParent =>
      exact path_of_parent?_eq_none ((store.parent?_bare id).trans noParent)

theorem binding?_bare (store : Store) (id : ScopeId) (name : String) :
    store.bare.binding? id name =
      (store.binding? id name).map Binding.bare := by
  rw [binding?, scope?_bare, Option.bind_map, binding?, Option.map_bind]
  congr 1
  funext scope
  exact scope.binding?_bare name

theorem owner?_bare (store : Store) (id : ScopeId) (name : String) :
    store.bare.owner? id name = store.owner? id name := by
  rw [owner?, path_bare, owner?]
  congr 1
  funext scope
  rw [binding?_bare, Option.isSome_map]

theorem resolve?_bare (store : Store) (id : ScopeId) (name : String) :
    store.bare.resolve? id name =
      (store.resolve? id name).map Binding.bare := by
  rw [resolve?, owner?_bare, resolve?, Option.map_bind]
  congr 1
  funext owner
  exact store.binding?_bare owner name

theorem bare_openScope
    (store : Store)
    (frame : Frame)
    (parent : Option ScopeId) :
    (store.openScope frame parent).bare =
      store.bare.openScope frame.bare parent :=
  congrArg Store.mk Array.map_push

theorem bare_bindIn
    (store : Store)
    (id : ScopeId)
    (binding : Binding) :
    (store.bindIn id binding).bare = store.bare.bindIn id binding.bare := by
  apply ext_scope?
  intro other
  rw [scope?_bare, scope?_bindIn, scope?_bindIn, scope?_bare]
  split
  · rw [Option.map_map, Option.map_map]
    rfl
  · rfl

theorem bare_assignIn
    (store : Store)
    (id : ScopeId)
    (name : String)
    (value : Value) :
    (store.assignIn id name value).bare =
      store.bare.assignIn id name value.bare := by
  apply ext_scope?
  intro other
  rw [scope?_bare, scope?_assignIn, scope?_assignIn, scope?_bare]
  split
  · rw [Option.map_map, Option.map_map]
    congr 1
    funext scope
    exact scope.bare_assign name value
  · rfl

end Store

end Scriptlet
