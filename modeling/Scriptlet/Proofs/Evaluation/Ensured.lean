import Scriptlet.Evaluation

namespace Scriptlet

/-!
# What runs ensure

A run ensures something of its result if, started on a store with a property, it ends
with such a result or with a fault that is allowed, and keeps the property of the store
in both cases.  A run that uses up its steps ensures everything.  What an action ensures
follows from what its parts ensure.
-/

/-- A run that goes on comes to its end only if its first part does. -/
theorem Outcome.andThen_eq_done
    {first : Outcome α}
    {next : α → Eval β}
    {result : β}
    {final : Machine}
    (isDone : first.andThen next = .done result final) :
    ∃ value later, first = .done value later ∧
      next value later = .done result final := by
  cases first with
  | done value later => exact ⟨value, later, rfl, isDone⟩
  | failed diagnostic later => cases isDone
  | exhausted => cases isDone

/-- Whether a run ended with a result, or a fault, of the given kind, on a store with
the given property. -/
def Outcome.Ensured
    (Kept : Store → Prop)
    (Allowed : Diagnostic → Prop)
    (Result : α → Prop) :
    Outcome α → Prop
  | .done value machine => Kept machine.store ∧ Result value
  | .failed diagnostic machine => Kept machine.store ∧ Allowed diagnostic
  | .exhausted => True

namespace Eval

/-- The value of an expression on a machine. -/
abbrev evaluate (steps : Nat) (expression : Expression) : Eval (Option Value) :=
  Runner.evaluate steps expression

/-- Runs a statement on a machine. -/
abbrev execute (steps : Nat) (statement : Statement) : Eval Signal :=
  Runner.execute steps statement

/-- Runs the rounds of a loop on a machine. -/
abbrev loop (steps : Nat) (condition : Expression) (body : Statement) :
    Eval Signal :=
  Runner.loop steps condition body

/-- Whether all runs of an action, from stores with the given property on, end as
wanted. -/
def Ensures
    (Kept : Store → Prop)
    (Allowed : Diagnostic → Prop)
    (Result : α → Prop)
    (action : Eval α) :
    Prop :=
  ∀ machine, Kept machine.store →
    (action machine).Ensured Kept Allowed Result

namespace Ensures

variable {Kept : Store → Prop} {Allowed : Diagnostic → Prop} {Result : α → Prop}

/-- What is left behind by an action that comes to its end. -/
theorem ends
    {action : Eval α}
    {value : α}
    {machine final : Machine}
    (ensures : Ensures Kept Allowed Result action)
    (isKept : Kept machine.store)
    (isDone : action machine = .done value final) :
    Kept final.store ∧ Result value := by
  have ended := ensures machine isKept
  rw [isDone] at ended
  exact ended

theorem imp
    {Other : α → Prop}
    {action : Eval α}
    (ensures : Ensures Kept Allowed Result action)
    (follows : ∀ value, Result value → Other value) :
    Ensures Kept Allowed Other action := by
  intro machine isKept
  have ended := ensures machine isKept
  generalize action machine = outcome at ended
  cases outcome with
  | done value later => exact ⟨ended.1, follows value ended.2⟩
  | failed diagnostic later => exact ended
  | exhausted => exact trivial

theorem pure
    {value : α}
    (isResult : Result value) :
    Ensures Kept Allowed Result (Pure.pure value) :=
  fun _ isKept => ⟨isKept, isResult⟩

theorem bind
    {Middle : β → Prop}
    {first : Eval β}
    {next : β → Eval α}
    (ensures : Ensures Kept Allowed Middle first)
    (goesOn : ∀ value, Middle value → Ensures Kept Allowed Result (next value)) :
    Ensures Kept Allowed Result (first >>= next) := by
  intro machine isKept
  have ended := ensures machine isKept
  rw [Eval.bind_apply]
  generalize first machine = outcome at ended
  cases outcome with
  | done value later => exact goesOn value ended.2 later ended.1
  | failed diagnostic later => exact ended
  | exhausted => exact trivial

theorem within
    {body : Eval α}
    (ensures : Ensures Kept Allowed Result body)
    (scope : ScopeId) :
    Ensures Kept Allowed Result (Runner.within scope body) := by
  intro machine isKept
  have ended := ensures ⟨machine.store, scope⟩ isKept
  show ((body ⟨machine.store, scope⟩).mapMachine fun final =>
    { final with current := machine.current }).Ensured Kept Allowed Result
  generalize body ⟨machine.store, scope⟩ = outcome at ended
  cases outcome with
  | done value later => exact ended
  | failed diagnostic later => exact ended
  | exhausted => exact trivial

theorem exhausted : Ensures Kept Allowed Result Eval.exhausted :=
  fun _ _ => trivial

theorem currentScope : Ensures Kept Allowed (fun _ => True) Eval.currentScope :=
  fun _ isKept => ⟨isKept, trivial⟩

theorem forEach
    {Each : β → Prop}
    {run : α → Eval β}
    {items : List α}
    (runs : ∀ item ∈ items, Ensures Kept Allowed Each (run item)) :
    Ensures Kept Allowed (fun results => ∀ result ∈ results, Each result)
      (Runner.forEach run items) := by
  induction items with
  | nil =>
      exact .pure nofun
  | cons first rest inductionHypothesis =>
      obtain ⟨runsFirst, runsRest⟩ := List.forall_mem_cons.mp runs
      refine runsFirst.bind ?_
      intro result isEach
      refine (inductionHypothesis runsRest).bind ?_
      intro results areEach
      exact .pure (List.forall_mem_cons.mpr ⟨isEach, areEach⟩)

/-- Statements end with the signal of one of them, unless there are none. -/
theorem sequence
    {Ends : Signal → Prop}
    {run : Statement → Eval Signal}
    {statements : List Statement}
    {last : Option Value}
    (runs : ∀ statement ∈ statements, Ensures Kept Allowed Ends (run statement))
    (isLast : Ends (.normal last)) :
    Ensures Kept Allowed Ends (Runner.sequence run last statements) := by
  induction statements generalizing last with
  | nil =>
      exact .pure isLast
  | cons first rest inductionHypothesis =>
      obtain ⟨runsFirst, runsRest⟩ := List.forall_mem_cons.mp runs
      refine runsFirst.bind ?_
      intro signal isEnd
      cases signal with
      | normal value => exact inductionHypothesis runsRest isEnd
      | broke => exact .pure isEnd
      | continued => exact .pure isEnd
      | returned value => exact .pure isEnd

/-- The statement that is chosen stands in one of the branches. -/
theorem firstTrue
    {test : Expression → Eval Bool}
    {branches : List (Expression × Statement)}
    (tests : ∀ branch ∈ branches,
      Ensures Kept Allowed (fun _ => True) (test branch.1)) :
    Ensures Kept Allowed
      (fun chosen => ∀ body, chosen = some body →
        ∃ branch ∈ branches, branch.2 = body)
      (Runner.firstTrue test branches) := by
  induction branches with
  | nil =>
      exact .pure nofun
  | cons branch rest inductionHypothesis =>
      obtain ⟨testsFirst, testsRest⟩ := List.forall_mem_cons.mp tests
      refine testsFirst.bind ?_
      intro truth _
      cases truth with
      | true =>
          refine .pure ?_
          rintro _ ⟨⟩
          exact ⟨branch, List.mem_cons_self, rfl⟩
      | false =>
          refine (inductionHypothesis testsRest).imp ?_
          intro chosen isBody body isChosen
          obtain ⟨branch, isBranch, rfl⟩ := isBody body isChosen
          exact ⟨branch, List.mem_cons_of_mem _ isBranch, rfl⟩

end Ensures

end Eval

end Scriptlet
