import Scriptlet.Runner
import Scriptlet.Value.Arithmetic

namespace Scriptlet

/-!
# Running programs

Expressions are evaluated and statements are run on a machine.  Only calls of
functions can come back without a value.  A statement tells by a signal whether the
statements behind it are to be run.

Since loops and calls need not come to an end, every function takes the number of
steps that it may use.  Everything is defined for any way of running.
-/

/-- How a statement ended. -/
inductive Signal where
  /-- It ran to its end, with a value if it has one. -/
  | normal (value : Option Value)
  /-- The loop around is to be left. -/
  | broke
  /-- The loop around is to go on with its next round. -/
  | continued
  /-- The function around is to be left. -/
  | returned (value : Option Value)
  deriving Inhabited

namespace Signal

/-- The signal of a block: a block has no value of its own. -/
def ofBlock : Signal → Signal
  | .normal _ => .normal none
  | signal => signal

/-- The value of a call, given how the body ended: that of the return statement
or that of the last statement.  Loops do not reach across a function. -/
def callValue : Signal → Option Value
  | .normal value => value
  | .returned value => value
  | .broke => none
  | .continued => none

/-- The value that a statement of a program contributes to its result. -/
def programValue : Signal → Option Value
  | .normal value => value
  | _ => none

end Signal

namespace Runner

variable {m : Type → Type} [Runner m]

/-! ## Parts that need no recursion -/

/-- The value of an expression that has to have one. -/
@[specialize] def required (span : Span) (value? : Option Value) : m Value :=
  match value? with
  | some value => pure value
  | none => raise .noValue span

/-- The results of something for each member of a list, from the first to the
last. -/
@[specialize] def forEach (run : α → m β) : List α → m (List β)
  | [] => pure []
  | first :: rest => do
      let result ← run first
      let results ← forEach run rest
      pure (result :: results)

/-- Statements one after the other, as long as they end normally.  The value is
that of the last one. -/
@[specialize] def sequence
    (run : Statement → m Signal) :
    Option Value →
    List Statement →
    m Signal
  | last, [] => pure (.normal last)
  | _, statement :: rest => do
      match ← run statement with
      | .normal value => sequence run value rest
      | signal => pure signal

/-- The statement of the first branch whose condition is true. -/
@[specialize] def firstTrue
    (test : Expression → m Bool) :
    List (Expression × Statement) →
    m (Option Statement)
  | [] => pure none
  | (condition, body) :: rest => do
      if ← test condition then
        pure (some body)
      else
        firstTrue test rest

/-- Binds the parameters of a function to its arguments in the scope of the
call. -/
@[specialize] def bindParameters
    (scope : ScopeId)
    (span : Span) :
    List (String × Value) →
    m Unit
  | [] => pure ()
  | (name, value) :: rest => do
      declareIn scope false name value span
      bindParameters scope span rest

/-- Binds the name of a function, as a constant, in the scope that is being run,
which also becomes the scope around its calls. -/
@[specialize] def declareFunction (declaration : FunctionDeclaration) :
    m Unit := do
  let closure ← currentScope
  let value ← makeValue (.function declaration closure)
  declareIn closure true declaration.name value declaration.span

/-- What a logical operator makes of its left side: its own result if the right
side is not needed. -/
def shortCut? (kind : TokenKind) (left : Bool) :
    Except RuntimeFault (Option Bool) :=
  match kind with
  | .orKeyword => .ok (if left then some true else none)
  | .andKeyword => .ok (if left then none else some false)
  | other => .error (.invalidOperator other)

/-- The fault of a call with a wrong number of arguments, if there is one. -/
def arityFault? (expected got : Nat) : Option RuntimeFault :=
  if expected < got then
    some (.tooManyArguments expected got)
  else if got < expected then
    some (.tooFewArguments expected got)
  else
    none

/-- Calls a function value with its arguments, given how statements are run.  The
body is run in a new scope under the one that the function was declared in. -/
@[specialize] def callWith
    (run : Statement → m Signal)
    (callee : Value)
    (arguments : List Value)
    (span : Span) :
    m (Option Value) :=
  match callee.payload with
  | .function declaration closure =>
      match arityFault? declaration.parameters.length arguments.length with
      | some fault => raise fault span
      | none => do
          let scope ←
            openScope
              (.call declaration.name declaration.span.line
                declaration.span.fileName)
              closure
          bindParameters scope declaration.span
            (declaration.parameters.zip arguments)
          let signal ← within scope (sequence run none declaration.body)
          pure signal.callValue
  | payload => raise (.invalidCall payload.type) span

/-! ## Expressions and statements -/

mutual

/-- The value of an expression, if it has one. -/
@[specialize] def evaluate : Nat → Expression → m (Option Value)
  | 0, _ => exhausted
  | fuel + 1, expression =>
      match expression with
      | .literal literal _ => do
          let value ← makeValue literal.payload
          pure (some value)
      | .reference name span => do
          let value ← lookUp name span
          pure (some value)
      | .assign name right span => do
          let value ← required right.span (← evaluate fuel right)
          let assigned ← assign name value span
          pure (some assigned)
      | .getAttribute object name span => do
          let value ← required object.span (← evaluate fuel object)
          let result ← located span (value.getAttribute name)
          pure (some result)
      | .setAttribute object name right span => do
          let target ← required object.span (← evaluate fuel object)
          let value ← required right.span (← evaluate fuel right)
          let result ← located span (target.setAttribute name value)
          pure (some result)
      | .unary operator operand span => do
          let value ← required operand.span (← evaluate fuel operand)
          let result ← located span (value.unary operator.kind)
          pure (some result)
      | .binary left operator right span => do
          let leftValue ← required left.span (← evaluate fuel left)
          let rightValue ← required right.span (← evaluate fuel right)
          let result ←
            located span (leftValue.binary operator.kind rightValue)
          pure (some result)
      | .logical left operator right span => do
          let leftValue ← required left.span (← evaluate fuel left)
          match ← located span (shortCut? operator.kind leftValue.isTrue) with
          | some truth => do
              let result ← makeValue (.bool truth)
              pure (some result)
          | none => do
              let rightValue ← required right.span (← evaluate fuel right)
              let result ← makeValue (.bool rightValue.isTrue)
              pure (some result)
      | .grouping inner _ => evaluate fuel inner
      | .call callee arguments span => do
          let function ← required callee.span (← evaluate fuel callee)
          let values ←
            forEach
              (fun argument => do
                required argument.span (← evaluate fuel argument))
              arguments
          callWith (execute fuel) function values span

/-- Runs a statement. -/
@[specialize] def execute : Nat → Statement → m Signal
  | 0, _ => exhausted
  | fuel + 1, statement =>
      match statement with
      | .expression inner => do
          let value ← evaluate fuel inner
          pure (.normal value)
      | .declaration constant name initializer span => do
          let value ← required initializer.span (← evaluate fuel initializer)
          declareIn (← currentScope) constant name value span
          pure (.normal (some value))
      | .function name parameters body span => do
          declareFunction ⟨name, parameters, body, span⟩
          pure (.normal none)
      | .block body span => do
          let scope ←
            openScope (.block span.line span.fileName) (← currentScope)
          let signal ← within scope (sequence (execute fuel) none body)
          pure signal.ofBlock
      | .whileLoop condition body _ => loop fuel condition body
      | .conditional branches otherwise _ => do
          let chosen ←
            firstTrue
              (fun condition => do
                let value ←
                  required condition.span (← evaluate fuel condition)
                pure value.isTrue)
              branches
          match chosen.or otherwise with
          | some body => execute fuel body
          | none => pure (.normal none)
      | .breakLoop _ => pure .broke
      | .continueLoop _ => pure .continued
      | .returnValue none _ => pure (.returned none)
      | .returnValue (some result) _ => do
          let value ← evaluate fuel result
          pure (.returned value)

/-- Runs the body of a loop as long as its condition is true. -/
@[specialize] def loop : Nat → Expression → Statement → m Signal
  | 0, _, _ => exhausted
  | fuel + 1, condition, body => do
      let value ← required condition.span (← evaluate fuel condition)
      if value.isTrue then
        match ← execute fuel body with
        | .broke => pure (.normal none)
        | .returned result => pure (.returned result)
        | .continued => loop fuel condition body
        | .normal _ => loop fuel condition body
      else
        pure (.normal none)

end

/-- Calls a value with arguments. -/
@[specialize] def call
    (fuel : Nat)
    (callee : Value)
    (arguments : List Value)
    (span : Span) :
    m (Option Value) :=
  callWith (execute fuel) callee arguments span

/-- Runs a program, and collects the values of its statements. -/
@[specialize] def program (fuel : Nat) : List Statement → m (List Value)
  | [] => pure []
  | statement :: rest => do
      let signal ← execute fuel statement
      let values ← program fuel rest
      pure (signal.programValue.toList ++ values)

end Runner

namespace Eval

/-- Calls a value with arguments on a machine. -/
def call
    (fuel : Nat)
    (callee : Value)
    (arguments : List Value)
    (span : Span) :
    Eval (Option Value) :=
  Runner.call fuel callee arguments span

/-- Runs a program on a machine. -/
def program (fuel : Nat) (statements : List Statement) : Eval (List Value) :=
  Runner.program fuel statements

end Eval

end Scriptlet
