import Scriptlet.Evaluation
import Scriptlet.Grammar.Parse
import Scriptlet.Report
import Scriptlet.Token.Scan

namespace Scriptlet

/-!
# Running source units

A source unit is cut into tokens, read as a program and run in a scope of a store.
If there are lexical faults, all of them are reported and nothing is run; otherwise
the first syntax fault is reported and nothing is run; otherwise the program runs up
to its end or its first fault.  Declarations stay in the store for later units.
-/

/-- What running a source unit gave. -/
structure Execution where
  /-- The values of the statements of the program; none if anything went
  wrong. -/
  values : List Value
  /-- What went wrong. -/
  diagnostics : List Diagnostic
  /-- The store afterwards. -/
  store : Store

namespace Execution

/-- Whether nothing went wrong. -/
def isOk (execution : Execution) : Bool :=
  execution.diagnostics.isEmpty

end Execution

namespace Store

/-- Runs a program in a scope; there is no answer if the allowed steps are used
up. -/
def runProgram?
    (store : Store)
    (steps : Nat)
    (scope : ScopeId)
    (program : List Statement) :
    Option Execution :=
  match Eval.program steps program ⟨store, scope⟩ with
  | .done values machine => some ⟨values, [], machine.store⟩
  | .failed diagnostic machine => some ⟨[], [diagnostic], machine.store⟩
  | .exhausted => none

/-- Runs a source unit in a scope; there is no answer if the allowed steps are
used up. -/
def run?
    (store : Store)
    (steps : Nat)
    (scope : ScopeId)
    (source : SourceUnit) :
    Option Execution :=
  let scan := source.scan
  if scan.diagnostics.isEmpty then
    match parse scan.tokens with
    | .ok program => store.runProgram? steps scope program
    | .error diagnostic => some ⟨[], [diagnostic], store⟩
  else
    some ⟨[], scan.diagnostics, store⟩

/-- A store with the outermost scope of a file, which gets the next number. -/
def openFile (store : Store) (fileName : String) : Store :=
  store.openScope (.file fileName) none

end Store

/-- More steps than any run can take in a lifetime. -/
def ampleSteps : Nat :=
  Nat.pow 2 62

end Scriptlet
