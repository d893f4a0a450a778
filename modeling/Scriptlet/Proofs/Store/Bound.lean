import Mathlib.Data.Set.Insert
import Scriptlet.Proofs.Store.Placed

namespace Scriptlet

/-!
# The names that scopes bind

A scope that is opened binds no name.  A declaration adds a name to one scope, and an
assignment leaves the names of all scopes as they are.
-/

/-- An assignment binds no further name. -/
theorem Scope.isSome_binding?_assign
    (scope : Scope)
    (changed name : String)
    (value : Value) :
    ((scope.assign changed value).binding? name).isSome =
      (scope.binding? name).isSome := by
  rw [binding?_assign, Option.isSome_map]

namespace Store

/-- Whether the scope of a number binds a name itself. -/
def Binds (store : Store) (id : ScopeId) (name : String) : Prop :=
  (store.binding? id name).isSome = true

/-- Whether all scopes of a store, but for the given ones, still bind the same names. -/
structure KeepsNames (except : Set ScopeId) (before after : Store) : Prop where
  nextId_le : before.nextId ≤ after.nextId
  binds_iff : ∀ id < before.nextId, id ∉ except →
    ∀ name, after.Binds id name ↔ before.Binds id name

namespace KeepsNames

variable {except : Set ScopeId} {before after : Store}

theorem refl (store : Store) : store.KeepsNames except store :=
  ⟨Nat.le_refl _, fun _ _ _ _ => Iff.rfl⟩

theorem trans
    {last : Store}
    (first : before.KeepsNames except after)
    (second : after.KeepsNames except last) :
    before.KeepsNames except last where
  nextId_le := Nat.le_trans first.nextId_le second.nextId_le
  binds_iff := by
    intro id isKnown notExcepted name
    have stillKnown : id < after.nextId := Nat.lt_of_lt_of_le isKnown first.nextId_le
    exact (second.binds_iff id stillKnown notExcepted name).trans
      (first.binds_iff id isKnown notExcepted name)

theorem openScope
    (store : Store)
    (frame : Frame)
    (parent : Option ScopeId) :
    store.KeepsNames except (store.openScope frame parent) where
  nextId_le := by
    rw [nextId_openScope]
    exact Nat.le_succ _
  binds_iff := by
    intro id isKnown _ name
    rw [Binds, binding?, scope?_openScope, if_neg (Nat.ne_of_lt isKnown)]
    rfl

theorem bindIn
    {store : Store}
    {changed : ScopeId}
    (isExcepted : changed ∈ except)
    (binding : Binding) :
    store.KeepsNames except (store.bindIn changed binding) where
  nextId_le := Nat.le_of_eq (nextId_bindIn store changed binding).symm
  binds_iff := by
    intro id _ notExcepted name
    have otherScope : changed ≠ id := by
      rintro rfl
      exact notExcepted isExcepted
    rw [Binds, binding?, scope?_bindIn, if_neg otherScope]
    rfl

theorem assignIn
    (store : Store)
    (changed : ScopeId)
    (name : String)
    (value : Value) :
    store.KeepsNames except (store.assignIn changed name value) where
  nextId_le := Nat.le_of_eq (nextId_assignIn store changed name value).symm
  binds_iff := by
    intro id isKnown _ other
    obtain ⟨scope, isScope⟩ := exists_scope?_of_lt isKnown
    rw [Binds, Binds, binding?, binding?, scope?_assignIn, isScope]
    split
    · rw [Option.map_some, Option.bind_some, Option.bind_some,
        Scope.isSome_binding?_assign]
    · exact Iff.rfl

/-- A scope that is opened is none of those that were there before. -/
theorem of_openScope
    {frame : Frame}
    {parent : Option ScopeId}
    (keeps : (before.openScope frame parent).KeepsNames {before.nextId} after) :
    before.KeepsNames except after where
  nextId_le := by
    have isMore := keeps.nextId_le
    rw [nextId_openScope] at isMore
    exact Nat.le_of_succ_le isMore
  binds_iff := by
    intro id isKnown _ name
    have opens : before.KeepsNames ∅ (before.openScope frame parent) :=
      openScope before frame parent
    have notNew : id ∉ ({before.nextId} : Set ScopeId) := Nat.ne_of_lt isKnown
    exact (keeps.binds_iff id (Nat.lt_of_lt_of_le isKnown opens.nextId_le) notNew
      name).trans (opens.binds_iff id isKnown (Set.notMem_empty id) name)

end KeepsNames

end Store

end Scriptlet
