import Scriptlet.Value

namespace Scriptlet

/-!
# The store of scopes

All scopes of a run live in one store.  A scope is never taken away and keeps the
scope around it and its frame; only its bindings change.  Names are looked up from
a scope outwards, and the first scope that binds the name counts.
-/

/-- A name with its value in one scope. -/
structure Binding where
  name : String
  value : Value
  /-- Whether the value must stay. -/
  constant : Bool
  /-- Where the name was declared. -/
  declaredAt : Span
  deriving Inhabited

/-- Names that belong together, and the scope around them. -/
structure Scope where
  frame : Frame
  parent : Option ScopeId
  bindings : List Binding
  deriving Inhabited

namespace Scope

/-- The binding of a name in the scope itself. -/
def binding? (scope : Scope) (name : String) : Option Binding :=
  scope.bindings.find? fun binding => binding.name == name

/-- The scope with a further binding. -/
def bind (scope : Scope) (binding : Binding) : Scope :=
  { scope with bindings := binding :: scope.bindings }

/-- The scope with another value for a name that it binds. -/
def assign (scope : Scope) (name : String) (value : Value) : Scope :=
  { scope with
    bindings :=
      scope.bindings.map fun binding =>
        if binding.name == name then { binding with value } else binding }

end Scope

/-- The scopes of a run, by number. -/
structure Store where
  scopes : Array Scope
  deriving Inhabited

namespace Store

/-- The store without scopes. -/
def empty : Store :=
  ⟨#[]⟩

/-- The scope of a number. -/
def scope? (store : Store) (id : ScopeId) : Option Scope :=
  store.scopes[id]?

/-- The number of the next scope that is opened. -/
def nextId (store : Store) : ScopeId :=
  store.scopes.size

/-- A store with one more scope, which binds nothing yet and gets the next
number. -/
def openScope (store : Store) (frame : Frame) (parent : Option ScopeId) :
    Store :=
  ⟨store.scopes.push ⟨frame, parent, []⟩⟩

/-- The scope around a scope.  It is always older, that is, of a smaller
number. -/
def parent? (store : Store) (id : ScopeId) : Option ScopeId :=
  (store.scope? id).bind fun scope =>
    scope.parent.filter (· < id)

/-- The scope around a scope has a smaller number. -/
theorem parent?_lt
    {store : Store}
    {id parent : ScopeId}
    (isParent : store.parent? id = some parent) :
    parent < id := by
  simp only [parent?, Option.bind_eq_some_iff, Option.filter_eq_some_iff,
    decide_eq_true_eq] at isParent
  obtain ⟨_, _, _, smaller⟩ := isParent
  exact smaller

/-- A scope and the scopes around it, from the innermost to the outermost. -/
def path (store : Store) (id : ScopeId) : List ScopeId :=
  match _ : store.parent? id with
  | some parent => id :: path store parent
  | none => [id]
termination_by id
decreasing_by exact parent?_lt (by assumption)

/-- The frames of a scope and of the scopes around it, outermost first. -/
def frames (store : Store) (id : ScopeId) : List Frame :=
  ((store.path id).filterMap fun scopeId =>
    (store.scope? scopeId).map Scope.frame).reverse

/-- The binding of a name in the scope of a number. -/
def binding? (store : Store) (id : ScopeId) (name : String) : Option Binding :=
  (store.scope? id).bind fun scope => scope.binding? name

/-- The innermost scope that binds a name, from the given scope outwards. -/
def owner? (store : Store) (id : ScopeId) (name : String) : Option ScopeId :=
  (store.path id).find? fun scopeId => (store.binding? scopeId name).isSome

/-- The binding that a name refers to in a scope. -/
def resolve? (store : Store) (id : ScopeId) (name : String) : Option Binding :=
  (store.owner? id name).bind fun owner => store.binding? owner name

/-- The report of a fault that is raised in a scope. -/
def diagnose (store : Store) (id : ScopeId) (fault : RuntimeFault) (span : Span) :
    Diagnostic :=
  fault.locate span (store.frames id)

/-- The store with a further binding in the scope of a number. -/
def bindIn (store : Store) (id : ScopeId) (binding : Binding) : Store :=
  ⟨store.scopes.modify id fun scope => scope.bind binding⟩

/-- The store with another value for a name in the scope of a number. -/
def assignIn (store : Store) (id : ScopeId) (name : String) (value : Value) :
    Store :=
  ⟨store.scopes.modify id fun scope => scope.assign name value⟩

/-- Whether a name can be declared in a scope: it is declared only once per
scope, but it may hide a binding of a scope around. -/
def checkDeclare
    (store : Store)
    (id : ScopeId)
    (name : String)
    (span : Span) :
    Except Diagnostic Unit :=
  match store.binding? id name with
  | some existing =>
      .error
        (store.diagnose id
          (.variableAlreadyDeclared name existing.declaredAt.line) span)
  | none => .ok ()

/-- The scope that an assignment to a name changes: the one that the name belongs
to, provided that its value need not stay. -/
def assignee
    (store : Store)
    (id : ScopeId)
    (name : String)
    (span : Span) :
    Except Diagnostic ScopeId :=
  match store.owner? id name with
  | some owner =>
      if (store.binding? owner name).any Binding.constant then
        .error (store.diagnose id (.constantAssignment name) span)
      else
        .ok owner
  | none =>
      .error (store.diagnose id (.undefinedVariable name) span)

/-- Binds a new name in a scope. -/
def declare
    (store : Store)
    (id : ScopeId)
    (constant : Bool)
    (name : String)
    (value : Value)
    (span : Span) :
    Except Diagnostic Store :=
  match store.checkDeclare id name span with
  | .ok () => .ok (store.bindIn id ⟨name, value, constant, span⟩)
  | .error diagnostic => .error diagnostic

/-- The value of a name in a scope. -/
def get (store : Store) (id : ScopeId) (name : String) (span : Span) :
    Except Diagnostic Value :=
  match store.resolve? id name with
  | some binding => .ok binding.value
  | none => .error (store.diagnose id (.undefinedVariable name) span)

/-- Gives a name a new value in the scope that it belongs to. -/
def set
    (store : Store)
    (id : ScopeId)
    (name : String)
    (value : Value)
    (span : Span) :
    Except Diagnostic Store :=
  match store.assignee id name span with
  | .ok owner => .ok (store.assignIn owner name value)
  | .error diagnostic => .error diagnostic

end Store

end Scriptlet
