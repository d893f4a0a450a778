import Scriptlet.Machine

namespace Scriptlet

/-!
# Ways of running

A run consists of actions, each done on the machine at once, some of them inside
another scope.  What a run is beyond the machine that it leaves behind is up to the
way of running.  Running on a machine alone is one of them.
-/

/-- A way of running. -/
class Runner (m : Type → Type) extends Monad m where
  /-- Does an action on the machine. -/
  perform : Eval α → m α
  /-- Runs something in another scope, which is left again whatever happens. -/
  within : ScopeId → m α → m α

namespace Eval

@[always_inline]
instance : Runner Eval where
  perform action := action
  within := within

end Eval

namespace Runner

variable {m : Type → Type} [Runner m]

/-- Using up the allowed steps. -/
@[inline] def exhausted : m α :=
  perform Eval.exhausted

/-- The scope that is being run. -/
@[inline] def currentScope : m ScopeId :=
  perform Eval.currentScope

/-- A fault in the scope that is being run. -/
@[inline] def raise (fault : RuntimeFault) (span : Span) : m α :=
  perform (Eval.raise fault span)

/-- The result of an operation on values, or its fault at a place. -/
@[inline] def located (span : Span) (result : Except RuntimeFault α) : m α :=
  match result with
  | .ok value => pure value
  | .error fault => raise fault span

/-- A value made in the scope that is being run. -/
@[inline] def makeValue (payload : Payload) : m Value :=
  perform (Eval.makeValue payload)

/-- A new scope under the given one. -/
@[inline] def openScope (frame : Frame) (parent : ScopeId) : m ScopeId :=
  perform (Eval.openScope frame parent)

/-- Binds a new name in the given scope. -/
@[inline] def declareIn
    (scope : ScopeId)
    (constant : Bool)
    (name : String)
    (value : Value)
    (span : Span) :
    m Unit :=
  perform (Eval.declareIn scope constant name value span)

/-- The value of a name in the scope that is being run. -/
@[inline] def lookUp (name : String) (span : Span) : m Value :=
  perform (Eval.lookUp name span)

/-- Gives a name a new value, as seen from the scope that is being run. -/
@[inline] def assign (name : String) (value : Value) (span : Span) : m Value :=
  perform (Eval.assign name value span)

end Runner

end Scriptlet
