import Scriptlet.Proofs.Evaluation.Confinement
import Scriptlet.Proofs.Evaluation.Matching

namespace Scriptlet

/-!
# The scopes that values remember

The scope that a value remembers decides nothing.  On two stores that agree up to these
scopes, the same is run with the same end: with the same signal, values that are the same
up to the scopes that they remember and stores that still agree, or with the same report.
-/

/-- Values that are the same up to the scopes that they remember. -/
def Value.SamePayload (value other : Value) : Prop :=
  other.payload = value.payload

theorem Value.SamePayload.refl (value : Value) : value.SamePayload value :=
  rfl

namespace Eval

/-- Runs on stores that agree up to the scopes that values remember. -/
def inertness
    (Reports : Diagnostic → Diagnostic → Prop)
    (locates : ∀ (fault : RuntimeFault) (span : Span) (frames : List Frame),
      Reports (fault.locate span frames) (fault.locate span frames)) :
    Simulation Eval Eval where
  World := Unit
  Later _ _ := True
  change := id
  Same _ := Value.SamePayload
  Known _ _ := True
  Related world Result first second :=
    ∀ machine other, machine.Matches Value.SamePayload other →
      (first machine).Matches Value.SamePayload Reports (Result world)
        (second other)
  later_trans := fun _ _ => trivial
  same_later := fun _ same => same
  known_later := fun _ _ => trivial
  same_mappedTo := by
    intro _ value mapped same
    exact same.trans value.payload.mapSpans_id.symm
  same_withPayload := fun _ _ _ => rfl
  known_closure := fun _ _ => trivial
  pure_related := fun results _ _ machines => .done results machines
  bind_related := by
    intro _ _ _ _ _ Middle Result first second next following related goesOn
      machine other machines
    apply (related machine other machines).andThen
    intro value found later otherLater results laterMachines
    exact goesOn () value found trivial results later otherLater laterMachines
  within_related := fun _ related _ _ machines =>
    .within related machines _
  exhausted_related := fun _ _ _ => .exhausted
  raise_related := fun fault span _ _ machines =>
    .raise machines (locates fault span)
  currentScope_related := fun _ _ _ machines =>
    .done ⟨machines.current_eq, trivial⟩ machines
  makeValue_related := fun _ _ _ _ _ machines => .done rfl machines
  lookUp_related := fun _ name span _ _ machines =>
    .lookUp machines locates (fun _ _ same => same) name span
  assign_related := fun name span same _ _ machines =>
    .assign machines locates same same name span
  openBlock_related := fun _ _ _ _ machines =>
    .openScope machines (fun _ => ⟨rfl, trivial⟩) _ _
  openCall_related := fun _ _ _ _ _ machines =>
    .openScope machines (fun _ => ⟨rfl, trivial⟩) _ _
  declareIn_related := fun constant name span _ same _ _ machines =>
    .declareIn machines locates trivial same _ constant name span
  declareFunction_related := by
    rintro _ declaration ⟨store, _⟩ ⟨other, current⟩ ⟨stores, rfl⟩
    rw [declaration.mapSpans_id]
    exact Outcome.Matches.declareIn ⟨stores, rfl⟩ locates trivial rfl current true
      declaration.name declaration.span

/-- A program that fails reports a runtime fault. -/
theorem locates_of_program_eq_failed
    {steps : Nat}
    {statements : List Statement}
    {diagnostic : Diagnostic}
    {machine final : Machine}
    (isFailed : program steps statements machine = .failed diagnostic final) :
    ∃ (fault : RuntimeFault) (span : Span) (frames : List Frame),
      diagnostic = fault.locate span frames := by
  let reports := inertness
    (fun diagnostic _ => ∃ (fault : RuntimeFault) (span : Span) (frames : List Frame),
      diagnostic = fault.locate span frames)
    (fun fault span frames => ⟨fault, span, frames, rfl⟩)
  have comparable : reports.Comparable steps steps := .inl rfl
  have sameStatements : statements.map (Statement.mapSpans reports.change) = statements :=
    Statement.map_mapSpans_id statements
  have outcomes := reports.program_related comparable statements () machine machine
    ⟨.refl .refl machine.store, rfl⟩
  rw [sameStatements] at outcomes
  change (program steps statements machine).Matches _ _ _
    (program steps statements machine) at outcomes
  rw [isFailed] at outcomes
  cases outcomes with
  | failed located _ => exact located

end Eval

/-- Requests that agree up to the scopes that the values given with a call remember. -/
inductive Request.Matches : Request → Request → Prop where
  | expression (inner : Expression) :
      Matches (.expression inner) (.expression inner)
  | statement (inner : Statement) :
      Matches (.statement inner) (.statement inner)
  | call
      {callee mapped : Value}
      {given mappedGiven : List Value}
      (callees : callee.SamePayload mapped)
      (arguments : List.Forall₂ Value.SamePayload given mappedGiven)
      (span : Span) :
      Matches (.call callee given span) (.call mapped mappedGiven span)

/-- On stores that agree up to the scopes that values remember, the same is run with the
same end.  The values of the signals, and of the bindings in every scope afterwards, are
the same up to the scopes that they remember, and reports are the same in everything. -/
theorem Request.run_matches
    {store other : Store}
    {request mapped : Request}
    (stores : store.Matches Value.SamePayload other)
    (requests : request.Matches mapped)
    (steps : Nat)
    (scope : ScopeId) :
    (request.run steps ⟨store, scope⟩).Matches Value.SamePayload Eq
      (Signal.Same Value.SamePayload) (mapped.run steps ⟨other, scope⟩) := by
  have machines : Machine.Matches Value.SamePayload ⟨store, scope⟩ ⟨other, scope⟩ :=
    ⟨stores, rfl⟩
  have runs : (Eval.inertness Eq fun _ _ _ => rfl).RunsRelated steps steps :=
    Simulation.runsRelated (.inl rfl)
  cases requests with
  | expression inner =>
      have outcomes := runs.evaluate inner () _ _ machines
      rw [show inner.mapSpans (Eval.inertness Eq fun _ _ _ => rfl).change = inner from
        inner.mapSpans_id] at outcomes
      apply outcomes.andThen
      intro value found machine otherMachine values machines
      exact .done (.normal values) machines
  | statement inner =>
      have outcomes := runs.execute inner () _ _ machines
      rw [show inner.mapSpans (Eval.inertness Eq fun _ _ _ => rfl).change = inner from
        inner.mapSpans_id] at outcomes
      exact outcomes
  | @call callee mappedCallee given mappedGiven callees arguments span =>
      have related : (Eval.inertness Eq fun _ _ _ => rfl).Related ()
          (Eval.inertness Eq fun _ _ _ => rfl).SameValue
          (Eval.call steps callee given span)
          (Eval.call steps mappedCallee mappedGiven span) :=
        Simulation.callWith_related runs.execute callees arguments span
      apply (related _ _ machines).andThen
      intro value found machine otherMachine values machines
      exact .done (.normal values) machines

/-- A store whose number remembers the given scope. -/
def rememberedIn (scope : ScopeId) : Store :=
  ⟨#[⟨.file "main", none, [⟨"x", ⟨.int 2, scope⟩, false, default⟩]⟩,
    ⟨.block 1 "main", some 0, []⟩]⟩

/-- A function that adds its argument to this number; all that is given remembers the given
scope. -/
def Request.addTo (scope : ScopeId) : Request :=
  let sum : Expression :=
    .binary (.reference "x" default) ⟨.plus, "+"⟩ (.reference "y" default) default
  .call ⟨.function ⟨"add", ["y"], [.expression sum], default⟩ 0, scope⟩
    [⟨.int 3, scope⟩] default

theorem Request.run_matches_addTo :
    (rememberedIn 0).Matches Value.SamePayload (rememberedIn 1) ∧
      (addTo 0).Matches (addTo 1) ∧
      (∃ machine, (addTo 0).run 5 ⟨rememberedIn 0, 0⟩ =
        .done (.normal (some ⟨.int 5, 0⟩)) machine) ∧
      ((addTo 0).run 5 ⟨rememberedIn 0, 0⟩).Matches Value.SamePayload Eq
        (Signal.Same Value.SamePayload)
        ((addTo 1).run 5 ⟨rememberedIn 1, 0⟩) := by
  have stores : (rememberedIn 0).Matches Value.SamePayload (rememberedIn 1) := by
    intro id
    match id with
    | 0 => exact .some ⟨rfl, rfl, .cons ⟨rfl, rfl, rfl, rfl⟩ .nil⟩
    | 1 => exact .some ⟨rfl, rfl, .nil⟩
    | _ + 2 => exact .none
  have requests : (addTo 0).Matches (addTo 1) := by
    refine .call ?_ ?_ default
    · rfl
    · exact .cons rfl .nil
  exact ⟨stores, requests, ⟨_, by cbv⟩, run_matches stores requests 5 0⟩

end Scriptlet
