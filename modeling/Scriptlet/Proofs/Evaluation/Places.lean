import Scriptlet.Proofs.Evaluation.Simulation
import Scriptlet.Proofs.Store.Bare

namespace Scriptlet

/-!
# Runs up to spans

Where the parts of a program stand makes no difference to what they do.  A program
without its spans ends like the program itself, with the same values, the same kind
of report and the same store, all of them without their spans.
-/

/-- Whether the second run ends like the first one does without spans. -/
inductive Outcome.BareTo
    {α β : Type}
    (Result : α → β → Prop) :
    Outcome α → Outcome β → Prop where
  | done
      (results : Result value found)
      (isBare : other = machine.bare) :
      BareTo Result (.done value machine) (.done found other)
  | failed
      (sameKind : report.kind = diagnostic.kind)
      (isBare : other = machine.bare) :
      BareTo Result (.failed diagnostic machine) (.failed report other)
  | exhausted :
      BareTo Result .exhausted .exhausted

namespace Outcome.BareTo

variable {α β : Type} {Result : α → β → Prop}

theorem imp
    {Other : α → β → Prop}
    {first : Outcome α}
    {second : Outcome β}
    (isBare : first.BareTo Result second)
    (weaker : ∀ value found, Result value found → Other value found) :
    first.BareTo Other second := by
  cases isBare with
  | done results isBare => exact .done (weaker _ _ results) isBare
  | failed sameKind isBare => exact .failed sameKind isBare
  | exhausted => exact .exhausted

theorem andThen
    {γ δ : Type}
    {Middle : γ → δ → Prop}
    {first : Outcome γ}
    {second : Outcome δ}
    {next : γ → Eval α}
    {following : δ → Eval β}
    (isBare : first.BareTo Middle second)
    (goesOn : ∀ value found machine, Middle value found →
      (next value machine).BareTo Result (following found machine.bare)) :
    (first.andThen next).BareTo Result (second.andThen following) := by
  cases isBare with
  | done results isBare =>
      subst isBare
      exact goesOn _ _ _ results
  | failed sameKind isBare =>
      exact .failed sameKind isBare
  | exhausted =>
      exact .exhausted

theorem mapMachine
    {change other : Machine → Machine}
    {first : Outcome α}
    {second : Outcome β}
    (isBare : first.BareTo Result second)
    (sameChange : ∀ machine, other machine.bare = (change machine).bare) :
    (first.mapMachine change).BareTo Result (second.mapMachine other) := by
  cases isBare with
  | done results isBare =>
      subst isBare
      exact .done results (sameChange _)
  | failed sameKind isBare =>
      subst isBare
      exact .failed sameKind (sameChange _)
  | exhausted =>
      exact .exhausted

theorem declareIn
    {Result : Unit → Unit → Prop}
    (results : Result () ())
    (machine : Machine)
    (scope : ScopeId)
    (constant : Bool)
    (name : String)
    (value : Value)
    (span : Span) :
    (Eval.declareIn scope constant name value span machine).BareTo Result
      (Eval.declareIn scope constant name value.bare Span.nowhere
        machine.bare) := by
  obtain ⟨store, current⟩ := machine
  simp only [Eval.declareIn, Machine.bare, Store.checkDeclare,
    Store.binding?_bare]
  cases store.binding? scope name with
  | some existing =>
      exact .failed rfl rfl
  | none =>
      have sameStore := store.bare_bindIn scope ⟨name, value, constant, span⟩
      exact .done results (congrArg (Machine.mk · current) sameStore.symm)

theorem lookUp
    {Result : Value → Value → Prop}
    (results : ∀ value : Value, Result value value.bare)
    (machine : Machine)
    (name : String)
    (span : Span) :
    (Eval.lookUp name span machine).BareTo Result
      (Eval.lookUp name Span.nowhere machine.bare) := by
  obtain ⟨store, current⟩ := machine
  simp only [Eval.lookUp, Machine.bare, Store.get, Store.resolve?_bare]
  cases store.resolve? current name with
  | some binding => exact .done (results binding.value) rfl
  | none => exact .failed rfl rfl

theorem assign
    {Result : Value → Value → Prop}
    {value : Value}
    (results : Result value value.bare)
    (machine : Machine)
    (name : String)
    (span : Span) :
    (Eval.assign name value span machine).BareTo Result
      (Eval.assign name value.bare Span.nowhere machine.bare) := by
  obtain ⟨store, current⟩ := machine
  simp only [Eval.assign, Machine.bare, Store.assignee, Store.owner?_bare]
  cases store.owner? current name with
  | none =>
      exact .failed rfl rfl
  | some owner =>
      have sameFlag :
          (store.bare.binding? owner name).any Binding.constant =
            (store.binding? owner name).any Binding.constant := by
        rw [Store.binding?_bare, Option.any_map]
        rfl
      simp only [sameFlag]
      cases (store.binding? owner name).any Binding.constant with
      | true =>
          exact .failed rfl rfl
      | false =>
          have sameStore := store.bare_assignIn owner name value
          exact .done results (congrArg (Machine.mk · current) sameStore.symm)

theorem openScope
    {Result : ScopeId → ScopeId → Prop}
    (results : ∀ scope, Result scope scope)
    (machine : Machine)
    (frame : Frame)
    (parent : ScopeId) :
    (Eval.openScope frame parent machine).BareTo Result
      (Eval.openScope frame.bare parent machine.bare) := by
  obtain ⟨store, current⟩ := machine
  simp only [Eval.openScope, Machine.bare, Store.nextId_bare]
  have sameStore := store.bare_openScope frame (some parent)
  exact .done (results store.nextId)
    (congrArg (Machine.mk · current) sameStore.symm)

end Outcome.BareTo

namespace Eval

/-- Runs and the same runs without spans. -/
def placement : Simulation Eval Eval where
  World := Unit
  Later _ _ := True
  change _ := Span.nowhere
  Same _ value mapped := value.bare = mapped
  Known _ _ := True
  Related world Result first second :=
    ∀ machine, (first machine).BareTo (Result world) (second machine.bare)
  later_trans := fun _ _ => trivial
  same_later := fun _ same => same
  known_later := fun _ _ => trivial
  same_mappedTo := by
    rintro _ value _ rfl
    rfl
  same_withPayload := by
    rintro _ value _ payload isPlain rfl
    exact congrArg (Value.mk · value.scope)
      (Payload.mapSpans_of_isPlain _ isPlain)
  known_closure := fun _ _ => trivial
  pure_related := fun results _ => .done results rfl
  bind_related := by
    intro _ _ _ _ _ Middle Result first second next following related goesOn
      machine
    refine (related machine).andThen ?_
    intro value found later results
    exact goesOn () value found trivial results later
  within_related := fun _ related machine =>
    (related { machine with current := _ }).mapMachine fun _ => rfl
  exhausted_related := fun _ => .exhausted
  raise_related := fun _ _ _ => .failed rfl rfl
  currentScope_related := fun _ _ => .done ⟨rfl, trivial⟩ rfl
  makeValue_related := by
    intro _ payload isPlain machine
    refine .done ?_ rfl
    exact congrArg (Value.mk · machine.current)
      (Payload.mapSpans_of_isPlain _ isPlain)
  lookUp_related := by
    intro _ name span machine
    exact .lookUp (fun _ => rfl) machine name span
  assign_related := by
    rintro _ value _ name span rfl machine
    exact .assign rfl machine name span
  openBlock_related := by
    intro _ parent span _ machine
    exact .openScope (fun _ => ⟨rfl, trivial⟩) machine _ parent
  openCall_related := by
    intro _ parent name span _ machine
    exact .openScope (fun _ => ⟨rfl, trivial⟩) machine _ parent
  declareIn_related := by
    rintro _ scope value _ constant name span _ rfl machine
    exact .declareIn trivial machine scope constant name value span
  declareFunction_related := by
    intro _ declaration machine
    exact .declareIn trivial machine machine.current true declaration.name _
      declaration.span

/-- A program without its spans ends like the program. -/
theorem program_bareTo
    (steps : Nat)
    (statements : List Statement)
    (machine : Machine) :
    (program steps statements machine).BareTo
      (fun values found => values.map Value.bare = found)
      (program steps (statements.map Statement.bare) machine.bare) := by
  have related :=
    placement.program_related (.inl rfl : placement.Comparable steps steps)
      statements () machine
  refine related.imp ?_
  intro values found same
  have equal : List.Forall₂ Eq (values.map Value.bare) found :=
    List.forall₂_map_left_iff.mpr same
  rw [List.forall₂_eq_eq_eq] at equal
  exact equal

end Eval

/-- Whether two runs end the same way up to spans. -/
inductive Outcome.Alike : Outcome (List Value) → Outcome (List Value) → Prop where
  | done
      (sameValues : others.map Value.bare = values.map Value.bare)
      (sameMachine : other.bare = machine.bare) :
      Alike (.done values machine) (.done others other)
  | failed
      (sameKind : report.kind = diagnostic.kind)
      (sameMachine : other.bare = machine.bare) :
      Alike (.failed diagnostic machine) (.failed report other)
  | exhausted :
      Alike .exhausted .exhausted

/-- Programs that agree up to spans end the same way up to spans. -/
theorem Eval.program_alike
    {statements others : List Statement}
    (alike : others.map Statement.bare = statements.map Statement.bare)
    (steps : Nat)
    (machine : Machine) :
    (program steps statements machine).Alike
      (program steps others machine) := by
  have isBare := program_bareTo steps statements machine
  have otherIsBare := program_bareTo steps others machine
  rw [alike] at otherIsBare
  generalize program steps (statements.map Statement.bare) machine.bare = bare
    at isBare otherIsBare
  generalize program steps statements machine = outcome at isBare ⊢
  generalize program steps others machine = other at otherIsBare ⊢
  cases isBare with
  | done values isBare =>
      cases otherIsBare with
      | done otherValues otherIsBare =>
          exact .done (otherValues.trans values.symm)
            (otherIsBare.symm.trans isBare)
  | failed sameKind isBare =>
      cases otherIsBare with
      | failed otherSameKind otherIsBare =>
          exact .failed (otherSameKind.symm.trans sameKind)
            (otherIsBare.symm.trans isBare)
  | exhausted =>
      cases otherIsBare with
      | exhausted => exact .exhausted

end Scriptlet
