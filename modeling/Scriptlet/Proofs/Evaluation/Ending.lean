import Scriptlet.Proofs.Evaluation.Simulation

namespace Scriptlet

/-!
# How runs end

A run that comes to an end does so in the scope where it started, and it ends the
same way if it is allowed more steps.
-/

/-- Whether a run that is allowed more steps ends in the given scope like the first
one, if that one has come to an end at all. -/
inductive Outcome.SettledBy
    {α β : Type}
    (current : ScopeId)
    (Result : α → β → Prop) :
    Outcome α → Outcome β → Prop where
  | done
      (results : Result value found)
      (returned : machine.current = current) :
      SettledBy current Result (.done value machine) (.done found machine)
  | failed
      (returned : machine.current = current) :
      SettledBy current Result (.failed diagnostic machine)
        (.failed diagnostic machine)
  | exhausted :
      SettledBy current Result .exhausted outcome

namespace Outcome.SettledBy

variable {α β : Type} {current : ScopeId} {Result : α → β → Prop}

theorem imp
    {Other : α → β → Prop}
    {first : Outcome α}
    {second : Outcome β}
    (settled : first.SettledBy current Result second)
    (weaker : ∀ value found, Result value found → Other value found) :
    first.SettledBy current Other second := by
  cases settled with
  | done results returned => exact .done (weaker _ _ results) returned
  | failed returned => exact .failed returned
  | exhausted => exact .exhausted

theorem andThen
    {γ δ : Type}
    {Middle : γ → δ → Prop}
    {first : Outcome γ}
    {second : Outcome δ}
    {next : γ → Eval α}
    {following : δ → Eval β}
    (settled : first.SettledBy current Middle second)
    (goesOn : ∀ value found machine, machine.current = current →
      Middle value found →
      (next value machine).SettledBy current Result
        (following found machine)) :
    (first.andThen next).SettledBy current Result
      (second.andThen following) := by
  cases settled with
  | done results returned => exact goesOn _ _ _ returned results
  | failed returned => exact .failed returned
  | exhausted => exact .exhausted

/-- Going back to a scope settles a run there. -/
theorem mapMachine
    {change : Machine → Machine}
    {scope : ScopeId}
    {first : Outcome α}
    {second : Outcome β}
    (settled : first.SettledBy scope Result second)
    (goesBack : ∀ machine, (change machine).current = current) :
    (first.mapMachine change).SettledBy current Result
      (second.mapMachine change) := by
  cases settled with
  | done results _ => exact .done results (goesBack _)
  | failed _ => exact .failed (goesBack _)
  | exhausted => exact .exhausted

theorem declareIn
    {Result : Unit → Unit → Prop}
    (results : Result () ())
    (machine : Machine)
    (scope : ScopeId)
    (constant : Bool)
    (name : String)
    (value : Value)
    (span : Span) :
    (Eval.declareIn scope constant name value span machine).SettledBy
      machine.current Result
      (Eval.declareIn scope constant name value span machine) := by
  obtain ⟨store, current⟩ := machine
  simp only [Eval.declareIn]
  cases store.checkDeclare scope name span with
  | ok _ => exact .done results rfl
  | error diagnostic => exact .failed rfl

theorem lookUp
    {Result : Value → Value → Prop}
    (results : ∀ value, Result value value)
    (machine : Machine)
    (name : String)
    (span : Span) :
    (Eval.lookUp name span machine).SettledBy machine.current Result
      (Eval.lookUp name span machine) := by
  unfold Eval.lookUp
  cases machine.store.get machine.current name span with
  | ok value => exact .done (results value) rfl
  | error diagnostic => exact .failed rfl

theorem assign
    {Result : Value → Value → Prop}
    (results : ∀ value, Result value value)
    (machine : Machine)
    (name : String)
    (value : Value)
    (span : Span) :
    (Eval.assign name value span machine).SettledBy machine.current Result
      (Eval.assign name value span machine) := by
  obtain ⟨store, current⟩ := machine
  simp only [Eval.assign]
  cases store.assignee current name span with
  | ok owner => exact .done (results value) rfl
  | error diagnostic => exact .failed rfl

end Outcome.SettledBy

namespace Eval

/-- Runs and the same runs with more steps. -/
def settlement : Simulation Eval Eval where
  World := Unit
  Later _ _ := True
  change := id
  Same _ value mapped := value = mapped
  Known _ _ := True
  Related world Result first second :=
    ∀ machine, (first machine).SettledBy machine.current (Result world)
      (second machine)
  later_trans := fun _ _ => trivial
  same_later := fun _ same => same
  known_later := fun _ _ => trivial
  same_mappedTo := by
    rintro _ value _ rfl
    exact value.payload.mapSpans_id.symm
  same_withPayload := by
    rintro _ value _ payload _ rfl
    rfl
  known_closure := fun _ _ => trivial
  pure_related := fun results _ => .done results rfl
  bind_related := by
    intro _ _ _ _ _ Middle Result first second next following related goesOn
      machine
    refine (related machine).andThen ?_
    intro value found later returned results
    rw [← returned]
    exact goesOn () value found trivial results later
  within_related := fun _ related machine =>
    (related { machine with current := _ }).mapMachine fun _ => rfl
  exhausted_related := fun _ => .exhausted
  raise_related := fun _ _ _ => .failed rfl
  currentScope_related := fun _ _ => .done ⟨rfl, trivial⟩ rfl
  makeValue_related := fun _ _ _ _ => .done rfl rfl
  lookUp_related := by
    intro _ name span machine
    exact .lookUp (fun _ => rfl) machine name span
  assign_related := by
    rintro _ value _ name span rfl machine
    exact .assign (fun _ => rfl) machine name value span
  openBlock_related := fun _ _ _ => .done ⟨rfl, trivial⟩ rfl
  openCall_related := fun _ _ _ _ => .done ⟨rfl, trivial⟩ rfl
  declareIn_related := by
    rintro _ scope value _ constant name span _ rfl machine
    exact .declareIn trivial machine scope constant name value span
  declareFunction_related := by
    intro _ declaration machine
    rw [declaration.mapSpans_id]
    exact .declareIn trivial machine machine.current true declaration.name _
      declaration.span

/-- Fewer steps can be compared with more. -/
theorem settlement_comparable
    {steps more : Nat}
    (atMost : steps ≤ more) :
    settlement.Comparable steps more :=
  .inr ⟨atMost, fun _ _ _ _ => .exhausted⟩

theorem program_settledBy
    {steps more : Nat}
    (atMost : steps ≤ more)
    (statements : List Statement)
    (machine : Machine) :
    (program steps statements machine).SettledBy machine.current Eq
      (program more statements machine) := by
  have sameStatements :
      statements.map (Statement.mapSpans settlement.change) = statements :=
    Statement.map_mapSpans_id statements
  have related :=
    settlement.program_related (settlement_comparable atMost) statements ()
      machine
  rw [sameStatements] at related
  exact related.imp fun _ _ same => List.forall₂_eq_eq_eq ▸ same

/-- A program that ends with values does so with more steps too, in the scope where
it started. -/
theorem program_eq_done
    {steps more : Nat}
    {statements : List Statement}
    {values : List Value}
    {machine final : Machine}
    (atMost : steps ≤ more)
    (isDone : program steps statements machine = .done values final) :
    program more statements machine = .done values final ∧
      final.current = machine.current := by
  have settled := program_settledBy atMost statements machine
  rw [isDone] at settled
  generalize program more statements machine = outcome at settled ⊢
  cases settled with
  | done results returned =>
      subst results
      exact ⟨rfl, returned⟩

/-- A program that ends with a fault does so with more steps too. -/
theorem program_eq_failed
    {steps more : Nat}
    {statements : List Statement}
    {diagnostic : Diagnostic}
    {machine final : Machine}
    (atMost : steps ≤ more)
    (isFailed : program steps statements machine = .failed diagnostic final) :
    program more statements machine = .failed diagnostic final := by
  have settled := program_settledBy atMost statements machine
  rw [isFailed] at settled
  generalize program more statements machine = outcome at settled ⊢
  cases settled with
  | failed _ => rfl

end Eval

end Scriptlet
