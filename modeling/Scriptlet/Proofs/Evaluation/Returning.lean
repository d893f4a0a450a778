import Scriptlet.Proofs.Evaluation.Ensured
import Scriptlet.Proofs.Evaluation.Simulation
import Scriptlet.Proofs.Grammar.JoinedTexts
import Scriptlet.Proofs.Store.Evolution
import Scriptlet.Session

namespace Scriptlet

/-!
# Runs come back to their scope

Blocks and calls go over to scopes of their own, and whatever ends them goes back.  So a
run leaves the machine in the scope where it was started, be it with a result, with a
signal that cuts statements short, or with a fault, of this run or of one far inside it.
Since a store keeps its scopes, the number still stands for the scope that it stood for.
-/

/-- The machine that a run leaves behind, if it comes to an end. -/
def Outcome.machine? : Outcome α → Option Machine
  | .done _ machine => some machine
  | .failed _ machine => some machine
  | .exhausted => none

/-- Whether a machine runs the scope of an earlier one, and its store has evolved from
there. -/
structure Machine.Returned (before after : Machine) : Prop where
  current_eq : after.current = before.current
  evolves : before.store.Evolves after.store

namespace Machine.Returned

theorem refl (machine : Machine) : machine.Returned machine :=
  ⟨rfl, .refl machine.store⟩

theorem trans
    {first second third : Machine}
    (before : first.Returned second)
    (after : second.Returned third) :
    first.Returned third :=
  ⟨after.current_eq.trans before.current_eq, before.evolves.trans after.evolves⟩

end Machine.Returned

/-- Whether two runs end alike, on a machine that has returned to the start. -/
inductive Outcome.ReturnsAs
    {α β : Type}
    (start : Machine)
    (Result : α → β → Prop) :
    Outcome α → Outcome β → Prop where
  | done
      (results : Result value found)
      (returned : start.Returned final) :
      ReturnsAs start Result (.done value final) (.done found final)
  | failed
      (returned : start.Returned final) :
      ReturnsAs start Result (.failed diagnostic final) (.failed diagnostic final)
  | exhausted :
      ReturnsAs start Result .exhausted .exhausted

namespace Outcome.ReturnsAs

variable {α β : Type} {start : Machine} {Result : α → β → Prop}
  {first : Outcome α} {second : Outcome β}

/-- What is left behind by a run that returns. -/
theorem returned
    {final : Machine}
    (returns : first.ReturnsAs start Result second)
    (isLeft : first.machine? = some final) :
    start.Returned final := by
  cases returns with
  | done _ returned =>
      cases isLeft
      exact returned
  | failed returned =>
      cases isLeft
      exact returned
  | exhausted => cases isLeft

/-- A run that starts where another one has returned. -/
theorem earlier
    {before : Machine}
    (returns : first.ReturnsAs start Result second)
    (returned : before.Returned start) :
    first.ReturnsAs before Result second := by
  cases returns with
  | done results later => exact .done results (returned.trans later)
  | failed later => exact .failed (returned.trans later)
  | exhausted => exact .exhausted

theorem andThen
    {γ δ : Type}
    {Final : γ → δ → Prop}
    {next : α → Eval γ}
    {following : β → Eval δ}
    (returns : first.ReturnsAs start Result second)
    (goesOn : ∀ value found later, Result value found →
      (next value later).ReturnsAs later Final (following found later)) :
    (first.andThen next).ReturnsAs start Final (second.andThen following) := by
  cases returns with
  | done results returned => exact (goesOn _ _ _ results).earlier returned
  | failed returned => exact .failed returned
  | exhausted => exact .exhausted

/-- A run inside another scope, which is left again whatever happens. -/
theorem leave
    {scope : ScopeId}
    (returns : first.ReturnsAs { start with current := scope } Result second) :
    (first.mapMachine fun final => { final with current := start.current }).ReturnsAs
      start Result
      (second.mapMachine fun final => { final with current := start.current }) := by
  cases returns with
  | done results returned => exact .done results ⟨rfl, returned.evolves⟩
  | failed returned => exact .failed ⟨rfl, returned.evolves⟩
  | exhausted => exact .exhausted

end Outcome.ReturnsAs

namespace Eval

/-! ## The actions -/

theorem openScope_returns
    (frame : Frame)
    (parent : ScopeId)
    (machine : Machine) :
    (openScope frame parent machine).ReturnsAs machine
      (fun scope found => found = scope ∧ True) (openScope frame parent machine) :=
  .done ⟨rfl, trivial⟩ ⟨rfl, .openScope machine.store frame (some parent)⟩

theorem declareIn_returns
    (scope : ScopeId)
    (constant : Bool)
    (name : String)
    (value : Value)
    (span : Span)
    (machine : Machine) :
    (declareIn scope constant name value span machine).ReturnsAs machine
      (fun _ _ => True) (declareIn scope constant name value span machine) := by
  simp only [declareIn]
  cases isChecked : machine.store.checkDeclare scope name span with
  | ok _ =>
      have isNew := Store.binding?_of_checkDeclare isChecked
      exact .done trivial ⟨rfl, .bindIn isNew⟩
  | error diagnostic => exact .failed (.refl machine)

theorem lookUp_returns (name : String) (span : Span) (machine : Machine) :
    (lookUp name span machine).ReturnsAs machine (fun value found => found = value)
      (lookUp name span machine) := by
  unfold lookUp
  cases machine.store.get machine.current name span with
  | ok value => exact .done rfl (.refl machine)
  | error diagnostic => exact .failed (.refl machine)

theorem assign_returns
    (name : String)
    (value : Value)
    (span : Span)
    (machine : Machine) :
    (assign name value span machine).ReturnsAs machine (fun value found => found = value)
      (assign name value span machine) := by
  simp only [assign]
  cases isAssignee : machine.store.assignee machine.current name span with
  | ok owner =>
      have notConstant := Store.constant_of_assignee isAssignee
      exact .done rfl ⟨rfl, .assignIn notConstant value⟩
  | error diagnostic => exact .failed (.refl machine)

/-! ## Whole runs -/

/-- A run beside itself: all actions leave the machine in its scope, and going over to
another scope is undone. -/
def returning : Simulation Eval Eval where
  World := Unit
  Later _ _ := True
  change := id
  Same _ value found := found = value
  Known _ _ := True
  Related world Result first second :=
    ∀ machine, (first machine).ReturnsAs machine (Result world) (second machine)
  later_trans := fun _ _ => trivial
  same_later := fun _ same => same
  known_later := fun _ _ => trivial
  same_mappedTo := by
    rintro _ _ value rfl
    exact value.payload.mapSpans_id.symm
  same_withPayload := by
    rintro _ _ value payload _ rfl
    rfl
  known_closure := fun _ _ => trivial
  pure_related := fun results machine => .done results (.refl machine)
  bind_related := fun related goesOn machine =>
    (related machine).andThen fun value found later results =>
      goesOn () value found trivial results later
  within_related := fun _ related machine =>
    (related { machine with current := _ }).leave
  exhausted_related := fun _ => .exhausted
  raise_related := fun _ _ machine => .failed (.refl machine)
  currentScope_related := fun _ machine => .done ⟨rfl, trivial⟩ (.refl machine)
  makeValue_related := fun _ _ _ machine => .done rfl (.refl machine)
  lookUp_related := fun _ name span machine => lookUp_returns name span machine
  assign_related := by
    rintro _ _ value name span rfl machine
    exact assign_returns name value span machine
  openBlock_related := fun span _ machine =>
    openScope_returns (.block span.line span.fileName) _ machine
  openCall_related := fun name span _ machine =>
    openScope_returns (.call name span.line span.fileName) _ machine
  declareIn_related := by
    rintro _ scope _ value constant name span _ rfl machine
    exact declareIn_returns scope constant name value span machine
  declareFunction_related := by
    intro _ declaration machine
    rw [declaration.mapSpans_id]
    exact declareIn_returns machine.current true declaration.name _ declaration.span
      machine

/-- Runs with the same number of steps can be compared. -/
theorem returning_runs (steps : Nat) : returning.RunsRelated steps steps :=
  returning.runsRelated (.inl rfl)

end Eval

/-- Every run of an expression, of a statement, of a program and of a call that comes to
its end, with a result, with any signal or with the report of a fault, leaves the machine
in the scope where it was started. -/
theorem runs_return (steps : Nat) (machine final : Machine) :
    (∀ expression,
      (Eval.evaluate steps expression machine).machine? = some final →
      machine.Returned final) ∧
    (∀ statement,
      (Eval.execute steps statement machine).machine? = some final →
      machine.Returned final) ∧
    (∀ statements,
      (Eval.program steps statements machine).machine? = some final →
      machine.Returned final) ∧
    ∀ callee arguments span,
      (Eval.call steps callee arguments span machine).machine? = some final →
      machine.Returned final := by
  have runs := Eval.returning_runs steps
  refine ⟨?_, ?_, ?_, ?_⟩
  · intro expression isLeft
    have returns : (Eval.evaluate steps expression machine).ReturnsAs machine _ _ :=
      runs.evaluate expression () machine
    exact returns.returned isLeft
  · intro statement isLeft
    have returns : (Eval.execute steps statement machine).ReturnsAs machine _ _ :=
      runs.execute statement () machine
    exact returns.returned isLeft
  · intro statements isLeft
    have returns : (Eval.program steps statements machine).ReturnsAs machine _ _ :=
      Eval.returning.program_related (.inl rfl) statements () machine
    exact returns.returned isLeft
  · intro callee arguments span isLeft
    have sameArguments : Eval.returning.SameValues () arguments arguments :=
      List.forall₂_same.mpr fun _ _ => rfl
    have returns : (Eval.call steps callee arguments span machine).ReturnsAs machine _ _ :=
      Simulation.callWith_related runs.execute rfl sameArguments span machine
    exact returns.returned isLeft

theorem readAs_repeatedParameter :
    ∃ program,
      (SourceUnit.mk "main" "function f(a, a) \x7b 1 \x7d\n\x7b f(1, 2) \x7d").ReadAs
        program ∧
      (match Eval.program 9 program ⟨Store.empty.openFile "main", 0⟩ with
      | .failed diagnostic final =>
          diagnostic.kind = .variableAlreadyDeclared ∧ final.store.nextId = 3
      | _ => false) = true :=
  SourceUnit.exists_readAs _ _ (by decide +kernel) (by decide +kernel)

/-- A call that fails on a repeated parameter, inside a block: the scopes of the block and
of the call are left behind, and the machine is back in the outermost scope. -/
theorem runs_return_repeatedParameter :
    ∃ program diagnostic final,
      (SourceUnit.mk "main" "function f(a, a) \x7b 1 \x7d\n\x7b f(1, 2) \x7d").ReadAs
        program ∧
      Eval.program 9 program ⟨Store.empty.openFile "main", 0⟩ =
        .failed diagnostic final ∧
      diagnostic.kind = .variableAlreadyDeclared ∧ final.store.nextId = 3 ∧
      Machine.Returned ⟨Store.empty.openFile "main", 0⟩ final := by
  obtain ⟨program, reads, isEnd⟩ := readAs_repeatedParameter
  split at isEnd
  case h_2 => cases isEnd
  case h_1 diagnostic final isFailed =>
    obtain ⟨isKind, isNext⟩ := of_decide_eq_true isEnd
    have isLeft :
        (Eval.program 9 program ⟨Store.empty.openFile "main", 0⟩).machine? = some final := by
      rw [isFailed]
      rfl
    have returns := runs_return 9 ⟨Store.empty.openFile "main", 0⟩ final
    exact ⟨program, diagnostic, final, reads, isFailed, isKind, isNext,
      returns.2.2.1 program isLeft⟩

end Scriptlet
