import Scriptlet.Proofs.Evaluation.Ensured
import Scriptlet.Proofs.Grammar.JoinedTexts
import Scriptlet.Session

namespace Scriptlet

/-!
# Statements without a value

Blocks and loops drop the values of the statements inside them.  A conditional passes
on what the statement that it chooses gives, so that it has a value if this statement,
or that of a conditional in its place, is an expression without braces around it.  What
a program collects are the values of the statements that can have one.
-/

namespace Statement

mutual

/-- Whether a statement can end normally with a value: expressions, declarations, and
conditionals that have one of these for a branch. -/
def yields : Statement → Bool
  | .expression _ => true
  | .declaration _ _ _ _ => true
  | .conditional branches otherwise _ =>
      branchesYield branches || otherwiseYields otherwise
  | .function _ _ _ _ => false
  | .block _ _ => false
  | .whileLoop _ _ _ => false
  | .breakLoop _ => false
  | .continueLoop _ => false
  | .returnValue _ _ => false

/-- Whether one of the branches can end normally with a value. -/
def branchesYield : List (Expression × Statement) → Bool
  | [] => false
  | (_, body) :: rest => body.yields || branchesYield rest

/-- Whether the last resort of a conditional can end normally with a value. -/
def otherwiseYields : Option Statement → Bool
  | none => false
  | some body => body.yields

end

theorem yields_of_branchesYield
    {branches : List (Expression × Statement)}
    (areSilent : branchesYield branches = false) :
    ∀ branch ∈ branches, branch.2.yields = false := by
  induction branches with
  | nil =>
      exact nofun
  | cons branch rest inductionHypothesis =>
      obtain ⟨isSilent, restSilent⟩ := Bool.or_eq_false_iff.mp areSilent
      exact List.forall_mem_cons.mpr ⟨isSilent, inductionHypothesis restSilent⟩

/-- None of the statements that a conditional without a value chooses from has one. -/
theorem yields_of_conditional
    {branches : List (Expression × Statement)}
    {otherwise : Option Statement}
    {span : Span}
    (isSilent : (Statement.conditional branches otherwise span).yields = false) :
    (∀ branch ∈ branches, branch.2.yields = false) ∧
      ∀ body, otherwise = some body → body.yields = false := by
  obtain ⟨branchesSilent, otherwiseSilent⟩ := Bool.or_eq_false_iff.mp isSilent
  refine ⟨yields_of_branchesYield branchesSilent, ?_⟩
  rintro body rfl
  exact otherwiseSilent

end Statement

/-- Whether a signal, if it is that of a normal end, has no value. -/
def Signal.Valueless : Signal → Prop
  | .normal value => value = none
  | .broke => True
  | .continued => True
  | .returned _ => True

theorem Signal.valueless_ofBlock (signal : Signal) :
    signal.ofBlock.Valueless := by
  cases signal with
  | normal value => rfl
  | broke => exact trivial
  | continued => exact trivial
  | returned value => exact trivial

theorem Signal.Valueless.programValue
    {signal : Signal}
    (valueless : signal.Valueless) :
    signal.programValue = none := by
  cases signal with
  | normal value => exact valueless
  | broke => rfl
  | continued => rfl
  | returned value => rfl

namespace Eval

/-- Whether all results of an action, on whatever store, have a property. -/
abbrev Gives (Result : α → Prop) (action : Eval α) : Prop :=
  Ensures (fun _ => True) (fun _ => True) Result action

theorem Gives.anything (action : Eval α) : Gives (fun _ => True) action := by
  intro machine _
  cases action machine with
  | done value later => exact ⟨trivial, trivial⟩
  | failed diagnostic later => exact ⟨trivial, trivial⟩
  | exhausted => exact trivial

/-- A loop has no value. -/
theorem loop_valueless
    (steps : Nat)
    (condition : Expression)
    (body : Statement) :
    Gives Signal.Valueless (loop steps condition body) := by
  induction steps with
  | zero =>
      exact .exhausted
  | succ fewer inductionHypothesis =>
      refine (Gives.anything _).bind ?_
      intro value? _
      refine (Gives.anything _).bind ?_
      intro value _
      cases value.isTrue with
      | false =>
          exact .pure rfl
      | true =>
          refine (Gives.anything _).bind ?_
          intro signal _
          cases signal with
          | normal value => exact inductionHypothesis
          | broke => exact .pure rfl
          | continued => exact inductionHypothesis
          | returned value => exact .pure trivial

/-- A statement that cannot yield a value has none. -/
theorem execute_valueless
    {statement : Statement}
    (isSilent : statement.yields = false)
    (steps : Nat) :
    Gives Signal.Valueless (execute steps statement) := by
  -- A conditional hands over to the statement that it chooses, with one step fewer.
  induction steps generalizing statement with
  | zero =>
      exact .exhausted
  | succ fewer inductionHypothesis =>
      cases statement with
      | expression => cases isSilent
      | declaration => cases isSilent
      | function =>
          refine (Gives.anything _).bind ?_
          intro _ _
          exact .pure rfl
      | block =>
          refine (Gives.anything _).bind ?_
          intro parent _
          refine (Gives.anything _).bind ?_
          intro scope _
          refine (Gives.anything _).bind ?_
          intro signal _
          exact .pure signal.valueless_ofBlock
      | whileLoop condition body =>
          exact loop_valueless fewer condition body
      | conditional branches otherwise =>
          obtain ⟨branchesSilent, otherwiseSilent⟩ :=
            Statement.yields_of_conditional isSilent
          refine (Ensures.firstTrue fun _ _ => Gives.anything _).bind ?_
          intro chosen isBody
          cases chosen with
          | some body =>
              obtain ⟨branch, isBranch, rfl⟩ := isBody body rfl
              exact inductionHypothesis (branchesSilent branch isBranch)
          | none =>
              cases otherwise with
              | some body => exact inductionHypothesis (otherwiseSilent body rfl)
              | none => exact .pure rfl
      | breakLoop => exact .pure trivial
      | continueLoop => exact .pure trivial
      | returnValue result =>
          cases result with
          | none =>
              exact .pure trivial
          | some result =>
              refine (Gives.anything _).bind ?_
              intro value _
              exact .pure trivial

/-- Statements that end with one without a value have none. -/
theorem sequence_valueless
    {run : Statement → Eval Signal}
    {statement : Statement}
    (valueless : Gives Signal.Valueless (run statement))
    (before : List Statement)
    (last : Option Value) :
    Gives Signal.Valueless
      (Runner.sequence run last (before ++ [statement])) := by
  induction before generalizing last with
  | nil =>
      refine valueless.bind ?_
      intro signal isValueless
      cases signal with
      | normal value => exact .pure isValueless
      | broke => exact .pure trivial
      | continued => exact .pure trivial
      | returned value => exact .pure trivial
  | cons first rest inductionHypothesis =>
      refine (Gives.anything (run first)).bind ?_
      intro signal _
      cases signal with
      | normal value => exact inductionHypothesis value
      | broke => exact .pure trivial
      | continued => exact .pure trivial
      | returned value => exact .pure trivial

end Eval

/-- The values of the statements of a program that can yield one, in their order.
Nothing else is collected. -/
inductive Collects (steps : Nat) :
    List Statement →
    Machine →
    List Value →
    Machine →
    Prop where
  | nil :
      Collects steps [] machine [] machine
  | yielding
      (yields : statement.yields = true)
      (isDone : Eval.execute steps statement machine = .done signal later)
      (rest : Collects steps behind later values final) :
      Collects steps (statement :: behind) machine
        (signal.programValue.toList ++ values) final
  | silent
      (isSilent : statement.yields = false)
      (isDone : Eval.execute steps statement machine = .done signal later)
      (rest : Collects steps behind later values final) :
      Collects steps (statement :: behind) machine values final

/-- A program collects the values of the statements that can yield one. -/
theorem collects_of_program
    {steps : Nat}
    {program : List Statement}
    {machine final : Machine}
    {values : List Value}
    (isDone : Eval.program steps program machine = .done values final) :
    Collects steps program machine values final := by
  induction program generalizing machine values with
  | nil =>
      cases isDone
      exact .nil
  | cons statement rest inductionHypothesis =>
      obtain ⟨signal, later, ran, isDone⟩ := Outcome.andThen_eq_done isDone
      obtain ⟨others, last, ranRest, isDone⟩ := Outcome.andThen_eq_done isDone
      cases isDone
      have collectsRest := inductionHypothesis ranRest
      cases yields : statement.yields with
      | true => exact .yielding yields ran collectsRest
      | false =>
          obtain ⟨_, valueless⟩ :=
            (Eval.execute_valueless yields steps).ends trivial ran
          rw [valueless.programValue]
          exact .silent yields ran collectsRest

/-- Blocks, loops, and conditionals that have no bare expression for a branch end
without a value if they end normally, on every machine.  A program gives the values of
its other statements only, and a function whose body ends with one of these gives no
value unless it returns one. -/
theorem valueless_statements (steps : Nat) (machine final : Machine) :
    (∀ statement value, statement.yields = false →
      Eval.execute steps statement machine = .done (.normal value) final →
      value = none) ∧
    (∀ program values, Eval.program steps program machine = .done values final →
      Collects steps program machine values final) ∧
    ∀ (declaration : FunctionDeclaration) before last value,
      declaration.body = before ++ [last] →
      last.yields = false →
      Runner.sequence (Eval.execute steps) none declaration.body machine =
        .done (.normal value) final →
      value = none := by
  refine ⟨?_, ?_, ?_⟩
  · intro statement value isSilent isDone
    exact ((Eval.execute_valueless isSilent steps).ends trivial isDone).2
  · intro program values isDone
    exact collects_of_program isDone
  · intro declaration before last value isBody isSilent isDone
    rw [isBody] at isDone
    have valueless := Eval.execute_valueless isSilent steps
    exact ((Eval.sequence_valueless valueless before none).ends trivial isDone).2

theorem readAs_braces :
    ∃ program, (SourceUnit.mk "main" "if true { 5 }").ReadAs program ∧
      (match program with
      | [statement] =>
          match Eval.execute 9 statement ⟨Store.empty.openFile "main", 0⟩ with
          | .done (.normal _) _ => !statement.yields
          | _ => false
      | _ => false) = true :=
  SourceUnit.exists_readAs _ _ (by decide +kernel) (by decide +kernel)

/-- A conditional whose branch is a block. -/
theorem valueless_statements_braces :
    ∃ statement final,
      (SourceUnit.mk "main" "if true { 5 }").ReadAs [statement] ∧
      Eval.execute 9 statement ⟨Store.empty.openFile "main", 0⟩ =
        .done (.normal none) final := by
  obtain ⟨program, reads, isEnd⟩ := readAs_braces
  split at isEnd
  case h_2 => cases isEnd
  case h_1 statement =>
    split at isEnd
    case h_2 => cases isEnd
    case h_1 value final isDone =>
      have isSilent := (Bool.not_eq_true' _).mp isEnd
      have isNone := (valueless_statements 9 _ final).1 statement value isSilent isDone
      rw [isNone] at isDone
      exact ⟨statement, final, reads, isDone⟩

theorem readAs_bareBranch :
    ∃ program, (SourceUnit.mk "main" "if true 5").ReadAs program ∧
      (match program with
      | [.conditional branches otherwise span] =>
          match Eval.execute 9 (.conditional branches otherwise span)
            ⟨Store.empty.openFile "main", 0⟩ with
          | .done (.normal (some _)) _ => true
          | _ => false
      | _ => false) = true :=
  SourceUnit.exists_readAs _ _ (by decide +kernel) (by decide +kernel)

/-- A conditional whose branch is a bare expression has the value of that branch, and
the program has it too. -/
theorem conditional_with_value :
    ∃ branches otherwise span value final execution,
      (SourceUnit.mk "main" "if true 5").ReadAs
        [.conditional branches otherwise span] ∧
      Eval.execute 9 (.conditional branches otherwise span)
        ⟨Store.empty.openFile "main", 0⟩ = .done (.normal (some value)) final ∧
      (Store.empty.openFile "main").run? 9 0 ⟨"main", "if true 5"⟩ =
        some execution ∧
      execution.values.map Value.operand = [⟨.int, "5"⟩] := by
  obtain ⟨program, reads, isEnd⟩ := readAs_bareBranch
  have areValues : ((Store.empty.openFile "main").run? 9 0 ⟨"main", "if true 5"⟩).map
      (fun execution => execution.values.map Value.operand) = some [⟨.int, "5"⟩] := by
    decide +kernel
  obtain ⟨execution, isRun, areValues⟩ := Option.map_eq_some_iff.mp areValues
  split at isEnd
  case h_2 => cases isEnd
  case h_1 branches otherwise span =>
    split at isEnd
    case h_2 => cases isEnd
    case h_1 value final isDone =>
      exact ⟨branches, otherwise, span, value, final, execution, reads, isDone, isRun,
        areValues⟩

end Scriptlet
