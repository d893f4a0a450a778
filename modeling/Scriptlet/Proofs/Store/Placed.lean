import Mathlib.Data.List.Basic
import Scriptlet.Proofs.Store.Evolution
import Scriptlet.Proofs.Tree.Nesting

namespace Scriptlet

/-!
# Functions in their places

A function value belongs to the scope that it was declared in.  That scope binds the name
of the function, as a constant, to this very function, and its frames are those around
the declaration.  Both stays so however the store evolves.  What changes a store keeps all
functions that it binds in their places.
-/

namespace Store

/-! ## Frames -/

/-- The way outwards leads to older scopes. -/
theorem le_of_mem_path
    {store : Store}
    {id outer : ScopeId}
    (isOnPath : outer ∈ store.path id) :
    outer ≤ id := by
  fun_induction path store id with
  | case1 id parent isParent inductionHypothesis =>
      rcases List.mem_cons.mp isOnPath with rfl | isOutside
      · exact Nat.le_refl _
      · exact Nat.le_trans (inductionHypothesis isOutside)
          (Nat.le_of_lt (parent?_lt isParent))
  | case2 id noParent =>
      exact Nat.le_of_eq (List.mem_singleton.mp isOnPath)

namespace Evolves

variable {before after : Store} {id : ScopeId}

theorem frame_eq
    (evolves : before.Evolves after)
    (isKnown : id < before.nextId) :
    (after.scope? id).map Scope.frame = (before.scope? id).map Scope.frame := by
  obtain ⟨scope, isScope⟩ := exists_scope?_of_lt isKnown
  obtain ⟨kept, isKept, scopeEvolves⟩ := evolves id scope isScope
  rw [isScope, isKept, Option.map_some, Option.map_some, scopeEvolves.frame_eq]

theorem parent?_eq
    (evolves : before.Evolves after)
    (isKnown : id < before.nextId) :
    after.parent? id = before.parent? id := by
  obtain ⟨scope, isScope⟩ := exists_scope?_of_lt isKnown
  obtain ⟨kept, isKept, scopeEvolves⟩ := evolves id scope isScope
  rw [parent?, parent?, isScope, isKept, Option.bind_some, Option.bind_some,
    scopeEvolves.parent_eq]

theorem path_eq
    (evolves : before.Evolves after)
    (isKnown : id < before.nextId) :
    after.path id = before.path id := by
  fun_induction path before id with
  | case1 id parent isParent inductionHypothesis =>
      have stillParent := (evolves.parent?_eq isKnown).trans isParent
      rw [path_of_parent?_eq_some stillParent,
        inductionHypothesis (Nat.lt_trans (parent?_lt isParent) isKnown)]
  | case2 id noParent =>
      exact path_of_parent?_eq_none ((evolves.parent?_eq isKnown).trans noParent)

/-- A scope keeps its frames. -/
theorem frames_eq
    (evolves : before.Evolves after)
    (isKnown : id < before.nextId) :
    after.frames id = before.frames id := by
  rw [frames, evolves.path_eq isKnown, frames]
  congr 1
  apply List.filterMap_congr
  intro outer isOnPath
  exact evolves.frame_eq (Nat.lt_of_le_of_lt (le_of_mem_path isOnPath) isKnown)

/-- A constant keeps its value. -/
theorem constant_kept
    {name : String}
    {binding : Binding}
    (evolves : before.Evolves after)
    (isBound : before.binding? id name = some binding)
    (isConstant : binding.constant = true) :
    ∃ kept, after.binding? id name = some kept ∧ kept.constant = true ∧
      kept.value = binding.value := by
  obtain ⟨scope, isScope, isFound⟩ := Option.bind_eq_some_iff.mp isBound
  obtain ⟨later, isLater, scopeEvolves⟩ := evolves id scope isScope
  obtain ⟨kept, isKept, bindingEvolves⟩ :=
    scopeEvolves.bindings_kept name binding isFound
  exact ⟨kept, Option.bind_eq_some_iff.mpr ⟨later, isLater, isKept⟩,
    bindingEvolves.constant_eq.trans isConstant, bindingEvolves.value_eq isConstant⟩

end Evolves

/-- A new scope has the frames of the scope around it and its own. -/
theorem frames_openScope
    {store : Store}
    {parent : ScopeId}
    (isKnown : parent < store.nextId)
    (frame : Frame) :
    (store.openScope frame (some parent)).frames store.nextId =
      store.frames parent ++ [frame] := by
  have evolves := Evolves.openScope store frame (some parent)
  have isScope : (store.openScope frame (some parent)).scope? store.nextId =
      some ⟨frame, some parent, []⟩ := by
    rw [scope?_openScope, if_pos rfl]
  have isParent : (store.openScope frame (some parent)).parent? store.nextId =
      some parent := by
    rw [parent?, isScope, Option.bind_some]
    simp [Option.filter, isKnown]
  have outside := evolves.frames_eq isKnown
  rw [frames, path_of_parent?_eq_some isParent, List.filterMap_cons, isScope]
  simp only [Option.map_some, List.reverse_cons]
  exact congrArg (· ++ [frame]) outside

@[simp] theorem binding?_bindIn
    {store : Store}
    {id : ScopeId}
    (isKnown : id < store.nextId)
    (binding : Binding)
    (name : String) :
    (store.bindIn id binding).binding? id name =
      if binding.name = name then some binding else store.binding? id name := by
  obtain ⟨scope, isScope⟩ := exists_scope?_of_lt isKnown
  simp [binding?, scope?_bindIn, isScope]

end Store

/-! ## Places -/

/-- The statement that declares a function. -/
def FunctionDeclaration.statement (declaration : FunctionDeclaration) : Statement :=
  .function declaration.name declaration.parameters declaration.body declaration.span

/-- Whether a value, if it is a function, is what the name of the function is bound to, as
a constant, in the scope that it was declared in. -/
def Value.BackedBy (store : Store) (value : Value) : Prop :=
  ∀ declaration closure, value.payload = .function declaration closure →
    ∃ binding, store.binding? closure declaration.name = some binding ∧
      binding.constant = true ∧
      binding.value.payload = .function declaration closure

/-- Whether a value, if it is a function, was declared in a scope of the store with the
frames that are around its declaration. -/
def Value.NestedIn (nesting : Nesting) (store : Store) (value : Value) : Prop :=
  ∀ declaration closure, value.payload = .function declaration closure →
    closure < store.nextId ∧
      nesting.Holds (store.frames closure) (.statement declaration.statement)

/-- Whether a value is no function or one that is in its place. -/
structure Value.PlacedIn (nesting : Nesting) (store : Store) (value : Value) : Prop where
  backed : value.BackedBy store
  nested : value.NestedIn nesting store

/-- Whether a store is well-formed and all functions that it binds are in their
places. -/
structure Store.Placed (nesting : Nesting) (store : Store) : Prop where
  wellFormed : store.WellFormed
  value_placed : ∀ {id scope binding}, store.scope? id = some scope →
    binding ∈ scope.bindings → binding.value.PlacedIn nesting store

namespace Value

variable {nesting : Nesting} {before after : Store} {value : Value}

theorem BackedBy.evolves
    (backed : value.BackedBy before)
    (evolves : before.Evolves after) :
    value.BackedBy after := by
  intro declaration closure isFunction
  obtain ⟨binding, isBound, isConstant, isSame⟩ :=
    backed declaration closure isFunction
  obtain ⟨kept, isKept, stillConstant, sameValue⟩ :=
    evolves.constant_kept isBound isConstant
  exact ⟨kept, isKept, stillConstant, by rw [sameValue, isSame]⟩

theorem NestedIn.evolves
    (nested : value.NestedIn nesting before)
    (evolves : before.Evolves after) :
    value.NestedIn nesting after := by
  intro declaration closure isFunction
  obtain ⟨isKnown, holds⟩ := nested declaration closure isFunction
  exact ⟨evolves.lt_nextId isKnown, by rwa [evolves.frames_eq isKnown]⟩

theorem PlacedIn.evolves
    (placed : value.PlacedIn nesting before)
    (evolves : before.Evolves after) :
    value.PlacedIn nesting after :=
  ⟨placed.backed.evolves evolves, placed.nested.evolves evolves⟩

theorem NestedIn.known (nested : value.NestedIn nesting before) :
    value.KnownIn before :=
  fun declaration closure isFunction => (nested declaration closure isFunction).1

theorem placedIn_of_isPlain
    (isPlain : value.payload.isPlain = true)
    (nesting : Nesting)
    (store : Store) :
    value.PlacedIn nesting store := by
  have notFunction : ∀ declaration closure,
      value.payload ≠ .function declaration closure := by
    intro declaration closure isFunction
    rw [isFunction] at isPlain
    cases isPlain
  exact ⟨fun _ _ isFunction => absurd isFunction (notFunction _ _),
    fun _ _ isFunction => absurd isFunction (notFunction _ _)⟩

end Value

namespace Store.Placed

variable {nesting : Nesting} {store : Store}

theorem openScope
    {parent : Option ScopeId}
    (placed : store.Placed nesting)
    (isKnown : ∀ id, parent = some id → id < store.nextId)
    (frame : Frame) :
    (store.openScope frame parent).Placed nesting where
  wellFormed := placed.wellFormed.openScope isKnown frame
  value_placed := by
    intro id scope binding isScope isBound
    rw [scope?_openScope] at isScope
    split at isScope
    case isTrue =>
      cases isScope
      cases isBound
    case isFalse =>
      exact (placed.value_placed isScope isBound).evolves
        (.openScope store frame parent)

/-- A new binding; the function that it binds may have its place by this binding. -/
theorem bindIn
    {changed : ScopeId}
    {binding : Binding}
    (placed : store.Placed nesting)
    (isNew : store.binding? changed binding.name = none)
    (nested : binding.value.NestedIn nesting store)
    (backed : binding.value.BackedBy (store.bindIn changed binding)) :
    (store.bindIn changed binding).Placed nesting where
  wellFormed := placed.wellFormed.bindIn isNew nested.known
  value_placed := by
    intro id scope other isScope isBound
    have evolves := Evolves.bindIn isNew
    rw [scope?_bindIn] at isScope
    split at isScope
    case isTrue =>
      obtain ⟨old, isOld, rfl⟩ := Option.map_eq_some_iff.mp isScope
      rcases List.mem_cons.mp isBound with rfl | isOldBinding
      · exact ⟨backed, nested.evolves evolves⟩
      · exact (placed.value_placed isOld isOldBinding).evolves evolves
    case isFalse =>
      exact (placed.value_placed isScope isBound).evolves evolves

theorem assignIn
    {changed : ScopeId}
    {name : String}
    {value : Value}
    (placed : store.Placed nesting)
    (notConstant : ∀ binding, store.binding? changed name = some binding →
      binding.constant = false)
    (isPlaced : value.PlacedIn nesting store) :
    (store.assignIn changed name value).Placed nesting where
  wellFormed := placed.wellFormed.assignIn notConstant isPlaced.nested.known
  value_placed := by
    intro id scope other isScope isBound
    have evolves := Evolves.assignIn notConstant value
    rw [scope?_assignIn] at isScope
    split at isScope
    case isTrue =>
      obtain ⟨old, isOld, rfl⟩ := Option.map_eq_some_iff.mp isScope
      obtain ⟨binding, isOldBinding, rfl⟩ := List.mem_map.mp isBound
      split
      · exact isPlaced.evolves evolves
      · exact (placed.value_placed isOld isOldBinding).evolves evolves
    case isFalse =>
      exact (placed.value_placed isScope isBound).evolves evolves

/-- What a name refers to is in its place. -/
theorem resolve
    {id : ScopeId}
    {name : String}
    {binding : Binding}
    (placed : store.Placed nesting)
    (isResolved : store.resolve? id name = some binding) :
    binding.value.PlacedIn nesting store := by
  obtain ⟨owner, _, isBound⟩ := Option.bind_eq_some_iff.mp isResolved
  obtain ⟨scope, isScope, isFound⟩ := Option.bind_eq_some_iff.mp isBound
  exact placed.value_placed isScope (List.mem_of_find?_eq_some isFound)

end Store.Placed

end Scriptlet
