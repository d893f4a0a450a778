import Scriptlet.Proofs.Store.Matching
import Scriptlet.Runner

namespace Scriptlet

/-!
# Ends of runs on matching stores

Two runs end alike if their results, or their reports, go with each other and the stores
that they leave still match.  Each action ends alike on machines that match.
-/

/-- Whether two runs end alike: with results, or with reports, that go with each other, on
machines that match. -/
inductive Outcome.Matches
    {α β : Type}
    (same : Value → Value → Prop)
    (Reports : Diagnostic → Diagnostic → Prop)
    (Result : α → β → Prop) :
    Outcome α → Outcome β → Prop where
  | done
      (results : Result value found)
      (machines : machine.Matches same other) :
      Matches same Reports Result (.done value machine) (.done found other)
  | failed
      (reports : Reports diagnostic report)
      (machines : machine.Matches same other) :
      Matches same Reports Result (.failed diagnostic machine)
        (.failed report other)
  | exhausted :
      Matches same Reports Result .exhausted .exhausted

namespace Outcome.Matches

variable {α β : Type} {same : Value → Value → Prop}
  {Reports : Diagnostic → Diagnostic → Prop} {Result : α → β → Prop}

theorem andThen
    {γ δ : Type}
    {Middle : γ → δ → Prop}
    {first : Outcome γ}
    {second : Outcome δ}
    {next : γ → Eval α}
    {following : δ → Eval β}
    (outcomes : first.Matches same Reports Middle second)
    (goesOn : ∀ value found machine other, Middle value found →
      machine.Matches same other →
      (next value machine).Matches same Reports Result
        (following found other)) :
    (first.andThen next).Matches same Reports Result
      (second.andThen following) := by
  cases outcomes with
  | done results machines => exact goesOn _ _ _ _ results machines
  | failed reports machines => exact .failed reports machines
  | exhausted => exact .exhausted

/-- Going back to the same scope on both sides. -/
theorem backIn
    {first : Outcome α}
    {second : Outcome β}
    (outcomes : first.Matches same Reports Result second)
    (current : ScopeId) :
    (first.mapMachine fun final => { final with current }).Matches same Reports Result
      (second.mapMachine fun final => { final with current }) := by
  cases outcomes with
  | done results finals => exact .done results ⟨finals.stores, rfl⟩
  | failed reports finals => exact .failed reports ⟨finals.stores, rfl⟩
  | exhausted => exact .exhausted

theorem within
    {body : Eval α}
    {inner : Eval β}
    {machine other : Machine}
    (bodies : ∀ machine other, machine.Matches same other →
      (body machine).Matches same Reports Result (inner other))
    (machines : machine.Matches same other)
    (scope : ScopeId) :
    (Runner.within scope body machine).Matches same Reports Result
      (Runner.within scope inner other) := by
  have outcomes := bodies ⟨machine.store, scope⟩ ⟨other.store, scope⟩
    ⟨machines.stores, rfl⟩
  simp only [Runner.within, Eval.within, machines.current_eq]
  exact outcomes.backIn machine.current

/-! ## The actions -/

section Actions

variable {machine other : Machine} (machines : machine.Matches same other)

include machines

theorem raise
    {fault : RuntimeFault}
    {span place : Span}
    (reports : ∀ frames,
      Reports (fault.locate span frames) (fault.locate place frames)) :
    (Eval.raise fault span machine).Matches same Reports Result
      (Eval.raise fault place other) := by
  have sameFrames : other.store.frames other.current =
      machine.store.frames machine.current := by
    rw [machines.current_eq, machines.stores.frames_eq]
  simp only [Eval.raise, Store.diagnose, sameFrames]
  exact .failed (reports _) machines

theorem openScope
    {Result : ScopeId → ScopeId → Prop}
    (results : ∀ scope, Result scope scope)
    (frame : Frame)
    (parent : ScopeId) :
    (Eval.openScope frame parent machine).Matches same Reports Result
      (Eval.openScope frame parent other) := by
  simp only [Eval.openScope, machines.stores.nextId_eq]
  exact .done (results _)
    ⟨machines.stores.openScope frame (some parent), machines.current_eq⟩

variable (locates : ∀ (fault : RuntimeFault) (span : Span) (frames : List Frame),
  Reports (fault.locate span frames) (fault.locate span frames))

include locates

theorem declareIn
    {Result : Unit → Unit → Prop}
    {value mapped : Value}
    (results : Result () ())
    (values : same value mapped)
    (scope : ScopeId)
    (constant : Bool)
    (name : String)
    (span : Span) :
    (Eval.declareIn scope constant name value span machine).Matches same Reports
      Result (Eval.declareIn scope constant name mapped span other) := by
  simp only [Eval.declareIn, machines.stores.checkDeclare_eq]
  simp only [Store.checkDeclare]
  cases machine.store.binding? scope name with
  | some existing =>
      exact .failed (locates _ span _) machines
  | none =>
      have isMatch : Binding.Matches same ⟨name, value, constant, span⟩
          ⟨name, mapped, constant, span⟩ :=
        ⟨rfl, values, rfl, rfl⟩
      exact .done results
        ⟨machines.stores.bindIn isMatch scope, machines.current_eq⟩

theorem lookUp
    {Result : Value → Value → Prop}
    (results : ∀ value found, same value found → Result value found)
    (name : String)
    (span : Span) :
    (Eval.lookUp name span machine).Matches same Reports Result
      (Eval.lookUp name span other) := by
  simp only [Eval.lookUp, Store.get, machines.current_eq,
    machines.stores.diagnose_eq]
  rcases eq_none_or_eq_some_of_rel
      (machines.stores.resolve? machine.current name) with
    ⟨isNone, otherNone⟩ | ⟨binding, found, isBound, isFound, bindings⟩
  · rw [isNone, otherNone]
    exact .failed (locates _ span _) machines
  · rw [isBound, isFound]
    exact .done (results _ _ bindings.values) machines

theorem assign
    {Result : Value → Value → Prop}
    {value mapped : Value}
    (results : Result value mapped)
    (values : same value mapped)
    (name : String)
    (span : Span) :
    (Eval.assign name value span machine).Matches same Reports Result
      (Eval.assign name mapped span other) := by
  simp only [Eval.assign, machines.current_eq, machines.stores.assignee_eq]
  simp only [Store.assignee]
  cases machine.store.owner? machine.current name with
  | none =>
      exact .failed (locates _ span _) ⟨machines.stores, rfl⟩
  | some owner =>
      simp only
      cases (machine.store.binding? owner name).any Binding.constant with
      | true =>
          exact .failed (locates _ span _) ⟨machines.stores, rfl⟩
      | false =>
          exact .done results ⟨machines.stores.assignIn values owner name, rfl⟩

end Actions

end Outcome.Matches

end Scriptlet
