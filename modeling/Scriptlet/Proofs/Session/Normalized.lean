import Scriptlet.Proofs.Evaluation.Rephrasing
import Scriptlet.Proofs.Session.Split
import Scriptlet.Proofs.Tree.Normalized

namespace Scriptlet

/-!
# Running programs in normal form

A program and its normal form mean the same: in every scope of every store, either both
of them run forever, or both of them end, with values and bindings that show alike or with
the same fault.
-/

/-- Whether two runs show alike: they give values of the same types and texts, report the
same faults, and leave the same names with bindings that show alike. -/
structure Execution.ShowsLike (execution other : Execution) : Prop where
  values :
    other.values.map Value.operand = execution.values.map Value.operand
  reports :
    List.Forall₂ Diagnostic.SameFault execution.diagnostics other.diagnostics
  bindings : ∀ id name,
    (other.store.binding? id name).map Binding.shown =
      (execution.store.binding? id name).map Binding.shown

theorem Value.map_operand_of_rephrases
    {values others : List Value}
    (rephrased : List.Forall₂ Value.Rephrases values others) :
    others.map Value.operand = values.map Value.operand := by
  induction rephrased with
  | nil => rfl
  | cons firsts _ inductionHypothesis =>
      rw [List.map_cons, List.map_cons, firsts.resembles.operand_eq,
        inductionHypothesis]

namespace Store

/-- A store in which values rephrase those of another shows like it. -/
theorem Matches.shown_eq
    {store other : Store}
    (stores : store.Matches Value.Rephrases other)
    (id : ScopeId)
    (name : String) :
    (other.binding? id name).map Binding.shown =
      (store.binding? id name).map Binding.shown := by
  rcases eq_none_or_eq_some_of_rel (stores.binding? id name) with
    ⟨isNone, otherNone⟩ | ⟨binding, found, isBound, isFound, bindings⟩
  · rw [otherNone, isNone]
  · rw [isFound, isBound, Option.map_some, Option.map_some, Binding.shown,
      bindings.constant_eq, bindings.values.resembles.operand_eq, Binding.shown]

variable {store : Store} {scope : ScopeId} {statements others : List Statement}

/-- A program that has ended has done so whatever more steps it may use. -/
theorem runProgram?_of_le
    {steps more : Nat}
    {execution : Execution}
    (atMost : steps ≤ more)
    (ran : store.runProgram? steps scope statements = some execution) :
    store.runProgram? more scope statements = some execution := by
  rw [runProgram?] at ran ⊢
  cases isOutcome : Eval.program steps statements ⟨store, scope⟩ with
  | done values final =>
      rw [isOutcome] at ran
      rw [(Eval.program_eq_done atMost isOutcome).1]
      exact ran
  | failed diagnostic final =>
      rw [isOutcome] at ran
      rw [Eval.program_eq_failed atMost isOutcome]
      exact ran
  | exhausted =>
      rw [isOutcome] at ran
      cases ran

/-- Where a program ends, a program that says the same ends alike with enough steps. -/
theorem runProgram?_followed
    {steps : Nat}
    {execution : Execution}
    (rephrased : Statement.RephrasesEach statements others)
    (ran : store.runProgram? steps scope statements = some execution) :
    ∃ other, execution.ShowsLike other ∧ ∃ enough, ∀ allowed, enough ≤ allowed →
      store.runProgram? allowed scope others = some other := by
  have machines : Machine.Matches Value.Rephrases ⟨store, scope⟩ ⟨store, scope⟩ :=
    ⟨.refl .refl store, rfl⟩
  have follows := Eval.program_followed steps rephrased _ _ machines
  rw [runProgram?] at ran
  generalize Eval.program steps statements ⟨store, scope⟩ = outcome at ran follows
  cases follows with
  | exhausted => cases ran
  | @settled otherOutcome _ settles outcomes =>
      obtain ⟨enough, ends⟩ := settles
      replace ends : ∀ allowed, enough ≤ allowed →
          Eval.program allowed others ⟨store, scope⟩ = otherOutcome := ends
      cases outcomes with
      | exhausted => cases ran
      | @done values found final otherFinal results finals =>
          cases ran
          have alike : Execution.ShowsLike ⟨values, [], final.store⟩
              ⟨found, [], otherFinal.store⟩ :=
            ⟨Value.map_operand_of_rephrases results, .nil, finals.stores.shown_eq⟩
          refine ⟨_, alike, enough, ?_⟩
          intro allowed isEnough
          rw [runProgram?, ends allowed isEnough]
      | @failed diagnostic report final otherFinal reports finals =>
          cases ran
          have alike : Execution.ShowsLike ⟨[], [diagnostic], final.store⟩
              ⟨[], [report], otherFinal.store⟩ :=
            ⟨rfl, .cons reports .nil, finals.stores.shown_eq⟩
          refine ⟨_, alike, enough, ?_⟩
          intro allowed isEnough
          rw [runProgram?, ends allowed isEnough]

/-- A program and its normal form, which has no parentheses, conditionals with one branch
only and no function body that ends with an expression, both run forever or both end, and
then with values and bindings that show alike, or with the same fault. -/
theorem runProgram?_normalized
    (store : Store)
    (scope : ScopeId)
    (program : List Statement) :
    let normalForm := Statement.normalizedEach program
    Statement.AllNormal normalForm ∧
      ((∀ steps,
        store.runProgram? steps scope program = none ∧
          store.runProgram? steps scope normalForm = none) ∨
        ∃ execution other, execution.ShowsLike other ∧ ∃ enough, ∀ steps,
          enough ≤ steps →
            store.runProgram? steps scope program = some execution ∧
            store.runProgram? steps scope normalForm = some other) := by
  intro normalForm
  refine ⟨Statement.allNormal_normalizedEach program, ?_⟩
  have rephrased := Statement.rephrases_normalizedEach program
  by_cases ends : ∃ steps execution,
      store.runProgram? steps scope program = some execution
  case pos =>
    obtain ⟨steps, execution, ran⟩ := ends
    obtain ⟨other, alike, more, ranOther⟩ := runProgram?_followed rephrased ran
    refine .inr ⟨execution, other, alike, max steps more, ?_⟩
    intro allowed isEnough
    exact ⟨runProgram?_of_le (Nat.le_trans (Nat.le_max_left _ _) isEnough) ran,
      ranOther allowed (Nat.le_trans (Nat.le_max_right _ _) isEnough)⟩
  case neg =>
    -- A normal form that ended would be followed by the program itself.
    refine .inl fun steps => ⟨?_, ?_⟩
    · refine Option.eq_none_iff_forall_ne_some.mpr ?_
      intro execution ran
      exact ends ⟨steps, execution, ran⟩
    · refine Option.eq_none_iff_forall_ne_some.mpr ?_
      intro other ran
      obtain ⟨execution, _, enough, ranFirst⟩ :=
        runProgram?_followed rephrased.symm ran
      exact ends ⟨enough, execution, ranFirst enough (Nat.le_refl enough)⟩

end Store

end Scriptlet
