import Mathlib.Data.List.Basic
import Mathlib.Data.List.Find
import Mathlib.Data.Set.Basic
import Scriptlet.Proofs.Store.Evolution

namespace Scriptlet

/-!
# Regions of a store

From a scope one gets to the scope around it and to the scopes around the functions that
it binds.  A region is a set of scopes that cannot be left in this way, together with all
scopes that are still to be opened.  Names that are looked up inside of a region, and
frames that are collected there, depend on the scopes of the region only; and a change
to one of these scopes leaves a region behind if the value that is bound belongs to it.
-/

/-- The scope around a value that is a function. -/
def Value.closure? (value : Value) : Option ScopeId :=
  match value.payload with
  | .function _ closure => some closure
  | _ => none

theorem Value.closure?_eq_some_iff {value : Value} {closure : ScopeId} :
    value.closure? = some closure ↔
      ∃ declaration, value.payload = .function declaration closure := by
  unfold closure?
  cases value.payload <;> simp

theorem Value.closure?_of_isPlain
    {value : Value}
    (isPlain : value.payload.isPlain = true) :
    value.closure? = none := by
  unfold closure?
  cases isPayload : value.payload with
  | function declaration closure =>
      rw [isPayload] at isPlain
      cases isPlain
  | _ => rfl

/-- Whether a value is no function or one that was declared in one of the scopes. -/
def Value.MadeIn (region : Set ScopeId) (value : Value) : Prop :=
  ∀ outer, value.closure? = some outer → outer ∈ region

theorem Value.madeIn_of_isPlain
    {value : Value}
    (isPlain : value.payload.isPlain = true)
    (region : Set ScopeId) :
    value.MadeIn region := by
  intro outer isClosure
  rw [closure?_of_isPlain isPlain] at isClosure
  cases isClosure

namespace Store

/-- The scopes that one gets to from the given ones. -/
inductive Reachable (store : Store) (roots : Set ScopeId) : ScopeId → Prop where
  | root
      {start : ScopeId}
      (isRoot : start ∈ roots) :
      Reachable store roots start
  /-- The scope around a scope. -/
  | parent
      {inside outer : ScopeId}
      (reached : Reachable store roots inside)
      (isParent : store.parent? inside = some outer) :
      Reachable store roots outer
  /-- The scope around a function that a scope binds. -/
  | closure
      {inside outer : ScopeId}
      {scope : Scope}
      {binding : Binding}
      (reached : Reachable store roots inside)
      (isScope : store.scope? inside = some scope)
      (isBound : binding ∈ scope.bindings)
      (isClosure : binding.value.closure? = some outer) :
      Reachable store roots outer

/-- Whether a set of scopes can neither be left through the scopes around its scopes nor
through the functions that they bind, and holds all scopes that are still to be opened. -/
structure IsRegion (store : Store) (region : Set ScopeId) : Prop where
  fresh_mem : ∀ {id}, store.nextId ≤ id → id ∈ region
  parent_mem : ∀ {id outer}, id ∈ region → store.parent? id = some outer →
    outer ∈ region
  value_madeIn : ∀ {id scope binding}, id ∈ region →
    store.scope? id = some scope → binding ∈ scope.bindings →
    binding.value.MadeIn region

/-- The scopes that one gets to from the given ones, and those that are still to be
opened. -/
def regionOf (store : Store) (roots : Set ScopeId) : Set ScopeId :=
  {id | store.Reachable roots id ∨ store.nextId ≤ id}

theorem parent?_eq_some_iff
    {store : Store}
    {id outer : ScopeId} :
    store.parent? id = some outer ↔
      ∃ scope, store.scope? id = some scope ∧ scope.parent = some outer ∧
        outer < id := by
  simp [parent?, Option.bind_eq_some_iff, Option.filter_eq_some_iff]

/-- Only scopes that exist have a scope around them. -/
theorem lt_nextId_of_parent?
    {store : Store}
    {id outer : ScopeId}
    (isParent : store.parent? id = some outer) :
    id < store.nextId := by
  obtain ⟨scope, isScope, _⟩ := parent?_eq_some_iff.mp isParent
  exact lt_nextId_of_scope? isScope

theorem isRegion_regionOf (store : Store) (roots : Set ScopeId) :
    store.IsRegion (store.regionOf roots) where
  fresh_mem := Or.inr
  parent_mem := by
    intro id outer isInside isParent
    rcases isInside with reached | isFresh
    · exact .inl (.parent reached isParent)
    · exact absurd (lt_nextId_of_parent? isParent) (Nat.not_lt.mpr isFresh)
  value_madeIn := by
    intro id scope binding isInside isScope isBound outer isClosure
    rcases isInside with reached | isFresh
    · exact .inl (.closure reached isScope isBound isClosure)
    · exact absurd (lt_nextId_of_scope? isScope) (Nat.not_lt.mpr isFresh)

/-- One does not get out of a region. -/
theorem Reachable.mem
    {store : Store}
    {roots region : Set ScopeId}
    {id : ScopeId}
    (reached : store.Reachable roots id)
    (isRegion : store.IsRegion region)
    (startsInside : roots ⊆ region) :
    id ∈ region := by
  induction reached with
  | root isRoot => exact startsInside isRoot
  | parent _ isParent inductionHypothesis =>
      exact isRegion.parent_mem inductionHypothesis isParent
  | closure _ isScope isBound isClosure inductionHypothesis =>
      exact isRegion.value_madeIn inductionHypothesis isScope isBound _ isClosure

/-- What an assignment changes is the scope that the name belongs to. -/
theorem owner?_of_assignee
    {store : Store}
    {id owner : ScopeId}
    {name : String}
    {span : Span}
    (isAssignee : store.assignee id name span = .ok owner) :
    store.owner? id name = some owner := by
  unfold assignee at isAssignee
  split at isAssignee
  case h_1 found isOwner =>
    split at isAssignee
    · cases isAssignee
    · cases isAssignee
      exact isOwner
  case h_2 =>
    cases isAssignee

/-! ## Changes inside of a region -/

theorem parent?_openScope
    (store : Store)
    (frame : Frame)
    (parent : Option ScopeId)
    (id : ScopeId) :
    (store.openScope frame parent).parent? id =
      if id = store.nextId then parent.filter (· < id)
      else store.parent? id := by
  rw [parent?, scope?_openScope]
  split <;> rfl

theorem parent?_bindIn
    (store : Store)
    (changed : ScopeId)
    (binding : Binding)
    (id : ScopeId) :
    (store.bindIn changed binding).parent? id = store.parent? id := by
  rw [parent?, scope?_bindIn, parent?]
  split
  · rw [Option.bind_map]
    rfl
  · rfl

theorem parent?_assignIn
    (store : Store)
    (changed : ScopeId)
    (name : String)
    (value : Value)
    (id : ScopeId) :
    (store.assignIn changed name value).parent? id = store.parent? id := by
  rw [parent?, scope?_assignIn, parent?]
  split
  · rw [Option.bind_map]
    rfl
  · rfl

namespace IsRegion

variable {store : Store} {region : Set ScopeId}

theorem openScope
    {parent : ScopeId}
    (isRegion : store.IsRegion region)
    (isInside : parent ∈ region)
    (frame : Frame) :
    (store.openScope frame (some parent)).IsRegion region where
  fresh_mem := by
    intro id isFresh
    rw [nextId_openScope] at isFresh
    exact isRegion.fresh_mem (Nat.le_of_succ_le isFresh)
  parent_mem := by
    intro id outer idInside isParent
    rw [parent?_openScope] at isParent
    split at isParent
    case isTrue =>
      obtain ⟨isParent, _⟩ := Option.filter_eq_some_iff.mp isParent
      cases isParent
      exact isInside
    case isFalse =>
      exact isRegion.parent_mem idInside isParent
  value_madeIn := by
    intro id scope binding idInside isScope isBound
    rw [scope?_openScope] at isScope
    split at isScope
    case isTrue =>
      cases isScope
      cases isBound
    case isFalse =>
      exact isRegion.value_madeIn idInside isScope isBound

theorem bindIn
    {binding : Binding}
    (isRegion : store.IsRegion region)
    (madeInside : binding.value.MadeIn region)
    (changed : ScopeId) :
    (store.bindIn changed binding).IsRegion region where
  fresh_mem := by
    intro id isFresh
    rw [nextId_bindIn] at isFresh
    exact isRegion.fresh_mem isFresh
  parent_mem := by
    intro id outer idInside isParent
    rw [parent?_bindIn] at isParent
    exact isRegion.parent_mem idInside isParent
  value_madeIn := by
    intro id scope other idInside isScope isBound
    rw [scope?_bindIn] at isScope
    split at isScope
    case isTrue =>
      obtain ⟨old, isOld, rfl⟩ := Option.map_eq_some_iff.mp isScope
      rcases List.mem_cons.mp isBound with rfl | isOldBinding
      · exact madeInside
      · exact isRegion.value_madeIn idInside isOld isOldBinding
    case isFalse =>
      exact isRegion.value_madeIn idInside isScope isBound

theorem assignIn
    {value : Value}
    (isRegion : store.IsRegion region)
    (madeInside : value.MadeIn region)
    (changed : ScopeId)
    (name : String) :
    (store.assignIn changed name value).IsRegion region where
  fresh_mem := by
    intro id isFresh
    rw [nextId_assignIn] at isFresh
    exact isRegion.fresh_mem isFresh
  parent_mem := by
    intro id outer idInside isParent
    rw [parent?_assignIn] at isParent
    exact isRegion.parent_mem idInside isParent
  value_madeIn := by
    intro id scope other idInside isScope isBound
    rw [scope?_assignIn] at isScope
    split at isScope
    case isTrue =>
      obtain ⟨old, isOld, rfl⟩ := Option.map_eq_some_iff.mp isScope
      obtain ⟨binding, isOldBinding, rfl⟩ := List.mem_map.mp isBound
      split
      · exact madeInside
      · exact isRegion.value_madeIn idInside isOld isOldBinding
    case isFalse =>
      exact isRegion.value_madeIn idInside isScope isBound

/-- The way outwards does not leave a region. -/
theorem path_mem
    {id outer : ScopeId}
    (isRegion : store.IsRegion region)
    (isInside : id ∈ region)
    (isOnPath : outer ∈ store.path id) :
    outer ∈ region := by
  fun_induction path store id with
  | case1 id parent isParent inductionHypothesis =>
      rcases List.mem_cons.mp isOnPath with rfl | isOutside
      · exact isInside
      · exact inductionHypothesis (isRegion.parent_mem isInside isParent) isOutside
  | case2 id noParent =>
      rw [List.mem_singleton.mp isOnPath]
      exact isInside

/-- A name that is used in a region belongs to a scope of the region. -/
theorem owner_mem
    {id owner : ScopeId}
    {name : String}
    (isRegion : store.IsRegion region)
    (isInside : id ∈ region)
    (isOwner : store.owner? id name = some owner) :
    owner ∈ region :=
  isRegion.path_mem isInside (List.mem_of_find?_eq_some isOwner)

/-- A function that a name refers to in a region was declared there. -/
theorem resolve_madeIn
    {id : ScopeId}
    {name : String}
    {binding : Binding}
    (isRegion : store.IsRegion region)
    (isInside : id ∈ region)
    (isResolved : store.resolve? id name = some binding) :
    binding.value.MadeIn region := by
  obtain ⟨owner, isOwner, isBound⟩ := Option.bind_eq_some_iff.mp isResolved
  obtain ⟨scope, isScope, isFound⟩ := Option.bind_eq_some_iff.mp isBound
  exact isRegion.value_madeIn (isRegion.owner_mem isInside isOwner) isScope
    (List.mem_of_find?_eq_some isFound)

end IsRegion

/-! ## Stores that agree on a region -/

/-- Whether two stores have as many scopes and the same ones in a region. -/
structure AgreeOn (region : Set ScopeId) (store other : Store) : Prop where
  nextId_eq : other.nextId = store.nextId
  scope_eq : ∀ {id}, id ∈ region → other.scope? id = store.scope? id

namespace AgreeOn

variable {region : Set ScopeId} {store other : Store} {id : ScopeId}

/-- Scopes that are still to be opened make no difference. -/
theorem regionOf
    {roots : Set ScopeId}
    (agree : AgreeOn {id | store.Reachable roots id} store other) :
    AgreeOn (store.regionOf roots) store other where
  nextId_eq := agree.nextId_eq
  scope_eq := by
    intro id isInside
    rcases isInside with reached | isFresh
    · exact agree.scope_eq reached
    · have otherFresh : other.nextId ≤ id := agree.nextId_eq ▸ isFresh
      rw [scope?, scope?, Array.getElem?_eq_none isFresh,
        Array.getElem?_eq_none otherFresh]

theorem openScope
    (agree : AgreeOn region store other)
    (frame : Frame)
    (parent : Option ScopeId) :
    AgreeOn region (store.openScope frame parent)
      (other.openScope frame parent) where
  nextId_eq := by
    rw [nextId_openScope, nextId_openScope, agree.nextId_eq]
  scope_eq := by
    intro id isInside
    rw [scope?_openScope, scope?_openScope, agree.nextId_eq,
      agree.scope_eq isInside]

theorem bindIn
    (agree : AgreeOn region store other)
    (changed : ScopeId)
    (binding : Binding) :
    AgreeOn region (store.bindIn changed binding)
      (other.bindIn changed binding) where
  nextId_eq := by
    rw [nextId_bindIn, nextId_bindIn, agree.nextId_eq]
  scope_eq := by
    intro id isInside
    rw [scope?_bindIn, scope?_bindIn, agree.scope_eq isInside]

theorem assignIn
    (agree : AgreeOn region store other)
    (changed : ScopeId)
    (name : String)
    (value : Value) :
    AgreeOn region (store.assignIn changed name value)
      (other.assignIn changed name value) where
  nextId_eq := by
    rw [nextId_assignIn, nextId_assignIn, agree.nextId_eq]
  scope_eq := by
    intro id isInside
    rw [scope?_assignIn, scope?_assignIn, agree.scope_eq isInside]

theorem parent?_eq
    (agree : AgreeOn region store other)
    (isInside : id ∈ region) :
    other.parent? id = store.parent? id := by
  rw [parent?, agree.scope_eq isInside, parent?]

theorem binding?_eq
    (agree : AgreeOn region store other)
    (isInside : id ∈ region)
    (name : String) :
    other.binding? id name = store.binding? id name := by
  rw [binding?, agree.scope_eq isInside, binding?]

section Region

variable (agree : AgreeOn region store other) (isRegion : store.IsRegion region)
  (isInside : id ∈ region)

include agree isRegion isInside

theorem path_eq : other.path id = store.path id := by
  fun_induction path store id with
  | case1 id parent isParent inductionHypothesis =>
      have otherParent := (agree.parent?_eq isInside).trans isParent
      rw [path_of_parent?_eq_some otherParent,
        inductionHypothesis (isRegion.parent_mem isInside isParent)]
  | case2 id noParent =>
      exact path_of_parent?_eq_none ((agree.parent?_eq isInside).trans noParent)

theorem frames_eq : other.frames id = store.frames id := by
  rw [frames, agree.path_eq isRegion isInside, frames]
  congr 1
  apply List.filterMap_congr
  intro outer isOnPath
  rw [agree.scope_eq (isRegion.path_mem isInside isOnPath)]

theorem diagnose_eq (fault : RuntimeFault) (span : Span) :
    other.diagnose id fault span = store.diagnose id fault span := by
  rw [diagnose, agree.frames_eq isRegion isInside, diagnose]

theorem owner?_eq (name : String) :
    other.owner? id name = store.owner? id name := by
  have sameTest : ∀ outer ∈ store.path id,
      (other.binding? outer name).isSome = (store.binding? outer name).isSome := by
    intro outer isOnPath
    rw [agree.binding?_eq (isRegion.path_mem isInside isOnPath)]
  rw [owner?, agree.path_eq isRegion isInside, owner?]
  exact List.find?_congr sameTest

theorem resolve?_eq (name : String) :
    other.resolve? id name = store.resolve? id name := by
  rw [resolve?, agree.owner?_eq isRegion isInside, resolve?]
  cases isOwner : store.owner? id name with
  | none => rfl
  | some owner =>
      exact agree.binding?_eq (isRegion.owner_mem isInside isOwner) name

theorem get_eq (name : String) (span : Span) :
    other.get id name span = store.get id name span := by
  rw [get, agree.resolve?_eq isRegion isInside,
    agree.diagnose_eq isRegion isInside, get]

theorem checkDeclare_eq (name : String) (span : Span) :
    other.checkDeclare id name span = store.checkDeclare id name span := by
  rw [checkDeclare, agree.binding?_eq isInside, checkDeclare]
  split
  · rw [agree.diagnose_eq isRegion isInside]
  · rfl

theorem assignee_eq (name : String) (span : Span) :
    other.assignee id name span = store.assignee id name span := by
  rw [assignee, agree.owner?_eq isRegion isInside,
    agree.diagnose_eq isRegion isInside, agree.diagnose_eq isRegion isInside,
    assignee]
  cases isOwner : store.owner? id name with
  | none => rfl
  | some owner =>
      have ownerInside := isRegion.owner_mem isInside isOwner
      simp only [agree.binding?_eq ownerInside]

end Region

end AgreeOn

/-! ## The scopes outside of a region -/

/-- Whether a store has changed in a region only. -/
def UnchangedOutside (region : Set ScopeId) (before after : Store) : Prop :=
  ∀ id, id ∉ region → after.scope? id = before.scope? id

namespace UnchangedOutside

variable {region : Set ScopeId}

theorem refl (store : Store) : UnchangedOutside region store store :=
  fun _ _ => rfl

theorem trans
    {first second third : Store}
    (before : UnchangedOutside region first second)
    (after : UnchangedOutside region second third) :
    UnchangedOutside region first third :=
  fun id isOutside => (after id isOutside).trans (before id isOutside)

theorem openScope
    {store : Store}
    (isInside : store.nextId ∈ region)
    (frame : Frame)
    (parent : Option ScopeId) :
    UnchangedOutside region store (store.openScope frame parent) := by
  intro id isOutside
  have notNew : id ≠ store.nextId := by
    rintro rfl
    exact isOutside isInside
  rw [scope?_openScope, if_neg notNew]

theorem bindIn
    {store : Store}
    {changed : ScopeId}
    (isInside : changed ∈ region)
    (binding : Binding) :
    UnchangedOutside region store (store.bindIn changed binding) := by
  intro id isOutside
  have notChanged : changed ≠ id := by
    rintro rfl
    exact isOutside isInside
  rw [scope?_bindIn, if_neg notChanged]

theorem assignIn
    {store : Store}
    {changed : ScopeId}
    (isInside : changed ∈ region)
    (name : String)
    (value : Value) :
    UnchangedOutside region store (store.assignIn changed name value) := by
  intro id isOutside
  have notChanged : changed ≠ id := by
    rintro rfl
    exact isOutside isInside
  rw [scope?_assignIn, if_neg notChanged]

end UnchangedOutside

end Store

end Scriptlet
