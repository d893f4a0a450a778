import Scriptlet.Proofs.Evaluation.Ending
import Scriptlet.Proofs.Evaluation.Places
import Scriptlet.Proofs.Grammar.JoinedTexts
import Scriptlet.Session

namespace Scriptlet

/-!
# Splitting a text

It makes no difference whether two texts are run one after the other or as one text
with a line break between them.
-/

namespace Eval

theorem program_cons
    (steps : Nat)
    (statement : Statement)
    (rest : List Statement)
    (machine : Machine) :
    program steps (statement :: rest) machine =
      ((Runner.execute steps statement : Eval Signal) machine).andThen
        fun signal middle =>
          (program steps rest middle).andThen fun values final =>
            .done (signal.programValue.toList ++ values) final :=
  rfl

/-- A program that goes on with another one. -/
theorem program_append
    (steps : Nat)
    (first second : List Statement)
    (machine : Machine) :
    program steps (first ++ second) machine =
      (program steps first machine).andThen fun values middle =>
        (program steps second middle).andThen fun others final =>
          .done (values ++ others) final := by
  induction first generalizing machine with
  | nil =>
      show program steps second machine =
        (program steps second machine).andThen fun others final =>
          .done others final
      cases program steps second machine <;> rfl
  | cons statement rest inductionHypothesis =>
      rw [List.cons_append, program_cons, program_cons]
      cases (Runner.execute steps statement : Eval Signal) machine with
      | failed diagnostic final => rfl
      | exhausted => rfl
      | done signal middle =>
          simp only [Outcome.done_andThen, inductionHypothesis]
          cases program steps rest middle with
          | failed diagnostic final => rfl
          | exhausted => rfl
          | done values later =>
              simp only [Outcome.done_andThen]
              cases program steps second later with
              | failed diagnostic final => rfl
              | exhausted => rfl
              | done others final =>
                  simp only [Outcome.done_andThen, List.append_assoc]

end Eval

/-- What shows of a binding: its flag, and the type and the text of its value. -/
def Binding.shown (binding : Binding) : Bool × Operand :=
  (binding.constant, binding.value.operand)

theorem Binding.shown_bare (binding : Binding) :
    binding.bare.shown = binding.shown :=
  congrArg (Prod.mk binding.constant) binding.value.operand_bare

theorem Value.map_operand_of_bare
    {values others : List Value}
    (alike : others.map Value.bare = values.map Value.bare) :
    others.map Value.operand = values.map Value.operand := by
  have sameOperands := congrArg (List.map Value.operand) alike
  rw [List.map_map, List.map_map] at sameOperands
  have isOperand : Value.operand ∘ Value.bare = Value.operand := by
    funext value
    exact value.operand_bare
  rwa [isOperand] at sameOperands

theorem Store.shown_of_bare
    {store other : Store}
    (alike : other.bare = store.bare)
    (id : ScopeId)
    (name : String) :
    (other.binding? id name).map Binding.shown =
      (store.binding? id name).map Binding.shown := by
  have isShown : Binding.shown ∘ Binding.bare = Binding.shown := by
    funext binding
    exact binding.shown_bare
  have sameBinding :=
    congrArg (fun found : Store => (found.binding? id name).map Binding.shown)
      alike
  simp only [Store.binding?_bare, Option.map_map, isShown] at sameBinding
  exact sameBinding

namespace Store

section Runs

variable {store : Store} {scope : ScopeId} {source : SourceUnit}
  {program : List Statement}

theorem run?_of_readAs
    (reads : source.ReadAs program)
    (steps : Nat) :
    store.run? steps scope source = store.runProgram? steps scope program := by
  simp [run?, reads.scanned, reads.parsed]

/-- What a run gave is how its program ended. -/
theorem run?_cases
    {steps : Nat}
    {execution : Execution}
    (reads : source.ReadAs program)
    (ran : store.run? steps scope source = some execution) :
    (∃ values final,
      Eval.program steps program ⟨store, scope⟩ = .done values final ∧
      execution = ⟨values, [], final.store⟩) ∨
    (∃ diagnostic final,
      Eval.program steps program ⟨store, scope⟩ = .failed diagnostic final ∧
      execution = ⟨[], [diagnostic], final.store⟩) := by
  rw [run?_of_readAs reads, runProgram?] at ran
  generalize Eval.program steps program ⟨store, scope⟩ = outcome at ran ⊢
  cases outcome with
  | done values final =>
      cases ran
      exact .inl ⟨values, final, rfl, rfl⟩
  | failed diagnostic final =>
      cases ran
      exact .inr ⟨diagnostic, final, rfl, rfl⟩
  | exhausted =>
      cases ran

end Runs

section Split

variable {store : Store} {scope : ScopeId} {name first second : String}
  {program next : List Statement}

/-- Two texts that can be read, the first of which runs without fault, do the same
joined by a line break as one after the other: given enough steps, the joined text
ends; it gives the values of both and leaves bindings that show alike, or it gives
no values and a report of the same kind as the second text. -/
theorem run_joined
    {steps nextSteps : Nat}
    {execution following : Execution}
    (reads : (SourceUnit.mk name first).ReadAs program)
    (nextReads : (SourceUnit.mk name second).ReadAs next)
    (ran : store.run? steps scope ⟨name, first⟩ = some execution)
    (succeeded : execution.diagnostics = [])
    (ranNext :
      execution.store.run? nextSteps scope ⟨name, second⟩ = some following) :
    ∃ enough, ∀ allowed, enough ≤ allowed → ∃ whole,
      store.run? allowed scope ⟨name, first ++ "\n" ++ second⟩ = some whole ∧
      (following.diagnostics = [] →
        whole.diagnostics = [] ∧
        whole.values.map Value.operand =
          (execution.values ++ following.values).map Value.operand ∧
        ∀ id variableName,
          (whole.store.binding? id variableName).map Binding.shown =
            (following.store.binding? id variableName).map Binding.shown) ∧
      (following.diagnostics ≠ [] →
        whole.values = [] ∧
        ∃ report diagnostic, whole.diagnostics = [report] ∧
          following.diagnostics = [diagnostic] ∧
          report.kind = diagnostic.kind) := by
  obtain ⟨joined, readsJoined, alike⟩ := reads.join nextReads
  refine ⟨max steps nextSteps, ?_⟩
  intro allowed isEnough
  have enough : steps ≤ allowed := Nat.le_trans (Nat.le_max_left _ _) isEnough
  have enoughNext : nextSteps ≤ allowed :=
    Nat.le_trans (Nat.le_max_right _ _) isEnough
  rcases run?_cases reads ran with
    ⟨values, middle, isDone, rfl⟩ | ⟨diagnostic, middle, _, rfl⟩
  case inr => cases succeeded
  obtain ⟨isDone, returned⟩ := Eval.program_eq_done enough isDone
  have atMiddle : Machine.mk middle.store scope = middle :=
    congrArg (Machine.mk middle.store) returned.symm
  -- The two programs, one after the other, end like the program of the joined text.
  have ends := Eval.program_alike alike allowed ⟨store, scope⟩
  rw [Eval.program_append, isDone, Outcome.done_andThen] at ends
  have runsJoined :
      store.run? allowed scope ⟨name, first ++ "\n" ++ second⟩ =
        store.runProgram? allowed scope joined :=
    run?_of_readAs readsJoined allowed
  rw [runsJoined, runProgram?]
  rcases run?_cases nextReads ranNext with
    ⟨others, final, isNext, rfl⟩ | ⟨diagnostic, final, isNext, rfl⟩
  · obtain ⟨isNext, _⟩ := Eval.program_eq_done enoughNext isNext
    rw [atMiddle] at isNext
    rw [isNext, Outcome.done_andThen] at ends
    generalize Eval.program allowed joined ⟨store, scope⟩ = outcome at ends
    cases ends with
    | done sameValues sameMachine =>
        refine ⟨_, rfl, fun _ => ⟨rfl, ?_, ?_⟩, fun failed => (failed rfl).elim⟩
        · exact Value.map_operand_of_bare sameValues
        · exact shown_of_bare (congrArg Machine.store sameMachine)
  · have isNext := Eval.program_eq_failed enoughNext isNext
    rw [atMiddle] at isNext
    rw [isNext, Outcome.failed_andThen] at ends
    generalize Eval.program allowed joined ⟨store, scope⟩ = outcome at ends
    cases ends with
    | failed sameKind _ =>
        exact ⟨_, rfl, nofun, fun _ => ⟨rfl, _, _, rfl, rfl, sameKind⟩⟩

/-- A declaration and, on the next line, the name that it declares. -/
theorem run_joined_declaration :
    ∃ enough, ∀ allowed, enough ≤ allowed → ∃ whole,
      (Store.empty.openFile "main").run? allowed 0
          ⟨"main", "var x = 1" ++ "\n" ++ "x"⟩ =
        some whole ∧
      whole.diagnostics = [] ∧
      whole.values.map Value.operand = [⟨.int, "1"⟩, ⟨.int, "1"⟩] := by
  obtain ⟨program, reads, _⟩ :=
    SourceUnit.exists_readAs ⟨"main", "var x = 1"⟩ (fun _ => true) (by decide +kernel)
      (by decide +kernel)
  obtain ⟨next, nextReads, _⟩ :=
    SourceUnit.exists_readAs ⟨"main", "x"⟩ (fun _ => true) (by decide +kernel)
      (by decide +kernel)
  have isRun :
      (((Store.empty.openFile "main").run? 9 0 ⟨"main", "var x = 1"⟩).bind fun first =>
        (first.store.run? 9 0 ⟨"main", "x"⟩).map fun second =>
          [first, second].map fun execution =>
            (execution.diagnostics, execution.values.map Value.operand)) =
        some [([], [⟨.int, "1"⟩]), ([], [⟨.int, "1"⟩])] := by
    decide +kernel
  obtain ⟨execution, ran, isNext⟩ := Option.bind_eq_some_iff.mp isRun
  obtain ⟨following, ranNext, areShown⟩ := Option.map_eq_some_iff.mp isNext
  simp only [List.map_cons, List.map_nil, List.cons.injEq, Prod.mk.injEq, and_true]
    at areShown
  obtain ⟨⟨succeeded, values⟩, nextSucceeded, nextValues⟩ := areShown
  obtain ⟨enough, ends⟩ := run_joined reads nextReads ran succeeded ranNext
  refine ⟨enough, ?_⟩
  intro allowed isEnough
  obtain ⟨whole, ranWhole, alike, _⟩ := ends allowed isEnough
  obtain ⟨noReport, sameValues, _⟩ := alike nextSucceeded
  refine ⟨whole, ranWhole, noReport, ?_⟩
  rw [sameValues, List.map_append, values, nextValues]
  rfl

end Split

end Store

end Scriptlet
