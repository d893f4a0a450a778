import Scriptlet.Store

namespace Scriptlet

/-!
# Running in a scope

A machine is a store together with the scope that is being run.  A run ends with
a value, or with the report of a fault, or because the number of steps that it was
allowed is used up; in the first two cases it leaves a machine behind.
-/

/-- A store and the scope in it that is being run. -/
structure Machine where
  store : Store
  current : ScopeId
  deriving Inhabited

/-- How a run ends. -/
inductive Outcome (α : Type) where
  | done (value : α) (machine : Machine)
  | failed (diagnostic : Diagnostic) (machine : Machine)
  /-- The allowed number of steps is used up. -/
  | exhausted
  deriving Inhabited

/-- Something that can be run on a machine. -/
abbrev Eval (α : Type) :=
  Machine → Outcome α

namespace Outcome

/-- Going on with the value on the machine that is left. -/
@[inline] def andThen (first : Outcome α) (next : α → Eval β) : Outcome β :=
  match first with
  | .done value machine => next value machine
  | .failed diagnostic machine => .failed diagnostic machine
  | .exhausted => .exhausted

@[simp] theorem done_andThen
    (value : α)
    (machine : Machine)
    (next : α → Eval β) :
    (Outcome.done value machine).andThen next = next value machine :=
  rfl

@[simp] theorem failed_andThen
    (diagnostic : Diagnostic)
    (machine : Machine)
    (next : α → Eval β) :
    (Outcome.failed diagnostic machine : Outcome α).andThen next =
      .failed diagnostic machine :=
  rfl

@[simp] theorem exhausted_andThen (next : α → Eval β) :
    (Outcome.exhausted : Outcome α).andThen next = .exhausted :=
  rfl

/-- The same end on a machine that is changed. -/
@[inline] def mapMachine (change : Machine → Machine) : Outcome α → Outcome α
  | .done value machine => .done value (change machine)
  | .failed diagnostic machine => .failed diagnostic (change machine)
  | .exhausted => .exhausted

end Outcome

namespace Eval

@[always_inline, inline]
instance : Monad Eval where
  pure value := fun machine => .done value machine
  bind first next := fun machine => (first machine).andThen next

@[simp] theorem pure_apply (value : α) (machine : Machine) :
    (pure value : Eval α) machine = .done value machine :=
  rfl

@[simp] theorem bind_apply
    (first : Eval α)
    (next : α → Eval β)
    (machine : Machine) :
    (first >>= next) machine = (first machine).andThen next :=
  rfl

/-- Using up the allowed steps. -/
def exhausted : Eval α :=
  fun _ => .exhausted

/-- The scope that is being run. -/
def currentScope : Eval ScopeId :=
  fun machine => .done machine.current machine

/-- A fault in the scope that is being run. -/
def raise (fault : RuntimeFault) (span : Span) : Eval α :=
  fun machine =>
    .failed (machine.store.diagnose machine.current fault span) machine

/-- A value made in the scope that is being run. -/
def makeValue (payload : Payload) : Eval Value :=
  fun machine => .done ⟨payload, machine.current⟩ machine

/-- A new scope under the given one. -/
def openScope (frame : Frame) (parent : ScopeId) : Eval ScopeId :=
  fun ⟨store, current⟩ =>
    .done store.nextId ⟨store.openScope frame (some parent), current⟩

/-- Binds a new name in the given scope. -/
def declareIn
    (scope : ScopeId)
    (constant : Bool)
    (name : String)
    (value : Value)
    (span : Span) :
    Eval Unit :=
  fun ⟨store, current⟩ =>
    match store.checkDeclare scope name span with
    | .ok () =>
        .done () ⟨store.bindIn scope ⟨name, value, constant, span⟩, current⟩
    | .error diagnostic => .failed diagnostic ⟨store, current⟩

/-- The value of a name in the scope that is being run. -/
def lookUp (name : String) (span : Span) : Eval Value :=
  fun machine =>
    match machine.store.get machine.current name span with
    | .ok value => .done value machine
    | .error diagnostic => .failed diagnostic machine

/-- Gives a name a new value, as seen from the scope that is being run. -/
def assign (name : String) (value : Value) (span : Span) : Eval Value :=
  fun ⟨store, current⟩ =>
    match store.assignee current name span with
    | .ok owner => .done value ⟨store.assignIn owner name value, current⟩
    | .error diagnostic => .failed diagnostic ⟨store, current⟩

/-- Runs something in another scope, which is left again whatever happens. -/
@[inline] def within (scope : ScopeId) (body : Eval α) : Eval α :=
  fun machine =>
    let previous := machine.current
    (body { machine with current := scope }).mapMachine fun final =>
      { final with current := previous }

end Eval

end Scriptlet
