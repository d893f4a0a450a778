import Scriptlet.Proofs.Evaluation.Matching
import Scriptlet.Proofs.Evaluation.Simulation
import Scriptlet.Proofs.Tree.Rephrased

namespace Scriptlet

/-!
# Runs that end alike with enough steps

A run of one program is followed by the runs of another if these, once they may use
enough steps, all end like it.  The values that they come across may be functions whose
bodies rephrase each other, and their reports may point at different texts.  Going on with
runs that are followed gives runs that are followed, and every action is followed by
itself.
-/

/-- Whether two reports differ at most in the text that they point at. -/
def Diagnostic.SameFault (diagnostic report : Diagnostic) : Prop :=
  report = { diagnostic with span := report.span }

theorem RuntimeFault.sameFault_locate
    (fault : RuntimeFault)
    (span place : Span)
    (frames : List Frame) :
    (fault.locate span frames).SameFault (fault.locate place frames) :=
  rfl

/-- Payloads that are the same but for the bodies of functions, which rephrase each
other. -/
inductive Payload.Rephrases : Payload → Payload → Prop where
  | plain (isPlain : payload.isPlain = true) :
      Rephrases payload payload
  | function
      (name : String)
      (parameters : List String)
      (bodies : Statement.RephrasesBody body other)
      (place : Span)
      (closure : ScopeId) :
      Rephrases (.function ⟨name, parameters, body, place⟩ closure)
        (.function ⟨name, parameters, other, place⟩ closure)

/-- Values that are the same but for the bodies of functions, which rephrase each
other. -/
def Value.Rephrases (value other : Value) : Prop :=
  value.payload.Rephrases other.payload

theorem Value.Rephrases.refl (value : Value) : value.Rephrases value := by
  rw [Value.Rephrases]
  cases value.payload with
  | function declaration closure =>
      exact .function declaration.name declaration.parameters (.refl declaration.body)
        declaration.span closure
  | _ => exact .plain rfl

theorem Value.Rephrases.resembles
    {value other : Value}
    (values : value.Rephrases other) :
    value.Resembles other := by
  rw [Value.Rephrases] at values
  rw [Value.Resembles]
  generalize value.payload = payload at values ⊢
  generalize other.payload = found at values ⊢
  cases values with
  | plain isPlain => exact .same _
  | function name parameters bodies place closure => exact .function (by rfl) closure

/-- Signals that give a call values that go with each other. -/
def Signal.SameCallValue (signal other : Signal) : Prop :=
  Option.Rel Value.Rephrases signal.callValue other.callValue

namespace Outcome

/-- Whether a run has the given end whenever it may use enough steps. -/
def SettlesOn (run : Nat → Outcome α) (outcome : Outcome α) : Prop :=
  ∃ enough, ∀ steps, enough ≤ steps → run steps = outcome

namespace SettlesOn

theorem const (outcome : Outcome α) : SettlesOn (fun _ => outcome) outcome :=
  ⟨0, fun _ _ => rfl⟩

/-- A step that is used up at the outset does not count. -/
theorem of_succ
    {run : Nat → Outcome α}
    (settles : SettlesOn (fun steps => run (steps + 1)) outcome) :
    SettlesOn run outcome := by
  obtain ⟨enough, ends⟩ := settles
  refine ⟨enough + 1, ?_⟩
  intro steps isEnough
  obtain ⟨fewer, rfl⟩ := Nat.exists_eq_add_of_le' isEnough
  exact ends (fewer + enough) (Nat.le_add_left enough fewer)

/-- More steps do no harm. -/
theorem succ
    {run : Nat → Outcome α}
    (settles : SettlesOn run outcome) :
    SettlesOn (fun steps => run (steps + 1)) outcome := by
  obtain ⟨enough, ends⟩ := settles
  exact ⟨enough, fun steps isEnough => ends (steps + 1) (Nat.le_succ_of_le isEnough)⟩

/-- Enough steps for both parts are enough for the whole. -/
theorem andThen
    {run : Nat → Outcome α}
    {next : Nat → α → Eval β}
    {outcome : Outcome α}
    {final : Outcome β}
    (first : SettlesOn run outcome)
    (second : SettlesOn (fun steps => outcome.andThen (next steps)) final) :
    SettlesOn (fun steps => (run steps).andThen (next steps)) final := by
  obtain ⟨enough, ends⟩ := first
  obtain ⟨more, nextEnds⟩ := second
  refine ⟨max enough more, ?_⟩
  intro steps isEnough
  show (run steps).andThen (next steps) = final
  rw [ends steps (Nat.le_trans (Nat.le_max_left _ _) isEnough)]
  exact nextEnds steps (Nat.le_trans (Nat.le_max_right _ _) isEnough)

theorem mapMachine
    {run : Nat → Outcome α}
    (settles : SettlesOn run outcome)
    (change : Machine → Machine) :
    SettlesOn (fun steps => (run steps).mapMachine change)
      (outcome.mapMachine change) := by
  obtain ⟨enough, ends⟩ := settles
  refine ⟨enough, ?_⟩
  intro steps isEnough
  exact congrArg (Outcome.mapMachine change) (ends steps isEnough)

end SettlesOn

/-- Whether a run ends, once it may use enough steps, like another one that may have run
out of steps. -/
inductive FollowedBy
    (Result : α → β → Prop)
    (run : Nat → Outcome β) :
    Outcome α → Prop where
  | settled
      (settles : SettlesOn run other)
      (outcomes : outcome.Matches Value.Rephrases Diagnostic.SameFault Result other) :
      FollowedBy Result run outcome
  | exhausted :
      FollowedBy Result run .exhausted

theorem FollowedBy.imp
    {Result : α → β → Prop}
    {run more : Nat → Outcome β}
    {outcome : Outcome α}
    (follows : outcome.FollowedBy Result run)
    (settles : ∀ other, SettlesOn run other → SettlesOn more other) :
    outcome.FollowedBy Result more := by
  cases follows with
  | settled settlesOn outcomes => exact .settled (settles _ settlesOn) outcomes
  | exhausted => exact .exhausted

end Outcome

open Outcome (SettlesOn)

namespace Eval

/-- Whether something is followed by something else on all machines that match. -/
def FollowedBy
    (Result : α → β → Prop)
    (action : Eval α)
    (run : Nat → Eval β) :
    Prop :=
  ∀ machine other, machine.Matches Value.Rephrases other →
    (action machine).FollowedBy Result fun steps => run steps other

namespace FollowedBy

variable {α β : Type} {Result : α → β → Prop} {action : Eval α} {run : Nat → Eval β}

theorem exhausted : FollowedBy Result Runner.exhausted run :=
  fun _ _ _ => .exhausted

/-- What ends alike at once is followed. -/
theorem of_matches
    {second : Eval β}
    (ends : ∀ machine other, machine.Matches Value.Rephrases other →
      (action machine).Matches Value.Rephrases Diagnostic.SameFault Result
        (second other)) :
    FollowedBy Result action fun _ => second :=
  fun machine other machines => .settled (.const _) (ends machine other machines)

theorem pure {value : α} {found : β} (results : Result value found) :
    FollowedBy Result (Pure.pure value) fun _ => Pure.pure found :=
  of_matches fun _ _ machines => .done results machines

theorem of_succ (follows : FollowedBy Result action fun steps => run (steps + 1)) :
    FollowedBy Result action run :=
  fun machine other machines =>
    (follows machine other machines).imp fun _ settles => .of_succ settles

theorem succ (follows : FollowedBy Result action run) :
    FollowedBy Result action fun steps => run (steps + 1) :=
  fun machine other machines =>
    (follows machine other machines).imp fun _ settles => settles.succ

theorem bind
    {γ δ : Type}
    {Middle : γ → δ → Prop}
    {first : Eval γ}
    {runFirst : Nat → Eval δ}
    {next : γ → Eval α}
    {following : δ → Nat → Eval β}
    (firsts : FollowedBy Middle first runFirst)
    (goesOn : ∀ value found, Middle value found →
      FollowedBy Result (next value) (following found)) :
    FollowedBy Result (first >>= next) fun steps =>
      runFirst steps >>= fun found => following found steps := by
  intro machine other machines
  have follows := firsts machine other machines
  simp only [bind_apply]
  generalize first machine = outcome at follows ⊢
  cases follows with
  | exhausted => exact .exhausted
  | settled settles outcomes =>
      cases outcomes with
      | done results machines =>
          -- The second part starts from the results that the first part settles on.
          apply (goesOn _ _ results _ _ machines).imp
          intro final settlesNext
          exact settles.andThen settlesNext
      | failed reports machines =>
          exact .settled (settles.andThen (.const _)) (.failed reports machines)
      | exhausted => exact .exhausted

/-- A value, as that of an expression. -/
theorem asValue
    {action : Eval Value}
    {run : Nat → Eval Value}
    (follows : FollowedBy Value.Rephrases action run) :
    FollowedBy (Option.Rel Value.Rephrases)
      (do
        let value ← action
        Pure.pure (some value))
      (fun steps => do
        let value ← run steps
        Pure.pure (some value)) := by
  refine bind follows ?_
  intro value found values
  exact pure (.some values)

theorem within (bodies : FollowedBy Result action run) (scope : ScopeId) :
    FollowedBy Result (Runner.within scope action) fun steps =>
      Runner.within scope (run steps) := by
  intro machine other machines
  have follows := bodies ⟨machine.store, scope⟩ ⟨other.store, scope⟩
    ⟨machines.stores, rfl⟩
  simp only [Runner.within, Eval.within, machines.current_eq]
  generalize action ⟨machine.store, scope⟩ = outcome at follows ⊢
  cases follows with
  | exhausted => exact .exhausted
  | settled settles outcomes =>
      exact .settled (settles.mapMachine _) (outcomes.backIn machine.current)

/-! ## The actions -/

theorem raise (fault : RuntimeFault) (span place : Span) :
    FollowedBy Result (Runner.raise fault span) fun _ => Runner.raise fault place :=
  of_matches fun _ _ machines => .raise machines (fault.sameFault_locate span place)

theorem currentScope :
    FollowedBy Eq (Runner.currentScope : Eval ScopeId) fun _ => Runner.currentScope :=
  of_matches fun _ _ machines => .done machines.current_eq.symm machines

theorem makeValue {payload other : Payload} (payloads : payload.Rephrases other) :
    FollowedBy Value.Rephrases (Runner.makeValue payload) fun _ =>
      Runner.makeValue other :=
  of_matches fun _ _ machines => .done payloads machines

theorem openScope (frame : Frame) (parent : ScopeId) :
    FollowedBy Eq (Runner.openScope frame parent : Eval ScopeId) fun _ =>
      Runner.openScope frame parent :=
  of_matches fun _ _ machines => .openScope machines (fun _ => rfl) frame parent

theorem declareIn
    {value other : Value}
    (values : value.Rephrases other)
    (scope : ScopeId)
    (constant : Bool)
    (name : String)
    (span : Span) :
    FollowedBy (fun _ _ => True) (Runner.declareIn scope constant name value span)
      fun _ => Runner.declareIn scope constant name other span :=
  of_matches fun _ _ machines =>
    .declareIn machines (fun fault span => fault.sameFault_locate span span)
      trivial values scope constant name span

theorem lookUp (name : String) (span : Span) :
    FollowedBy Value.Rephrases (Runner.lookUp name span) fun _ =>
      Runner.lookUp name span :=
  of_matches fun _ _ machines =>
    .lookUp machines (fun fault span => fault.sameFault_locate span span)
      (fun _ _ values => values) name span

theorem assign
    {value other : Value}
    (values : value.Rephrases other)
    (name : String)
    (span : Span) :
    FollowedBy Value.Rephrases (Runner.assign name value span) fun _ =>
      Runner.assign name other span :=
  of_matches fun _ _ machines =>
    .assign machines (fun fault span => fault.sameFault_locate span span)
      values values name span

/-! ## Parts that need no recursion -/

theorem located
    {value other : Value}
    {result following : Except RuntimeFault Value}
    (results : value.SameResult other result following)
    (span : Span) :
    FollowedBy Value.Rephrases (Runner.located span result) fun _ =>
      Runner.located span following := by
  cases results with
  | fault fault => exact raise fault span span
  | plain payload isPlain => exact pure (.plain isPlain)

theorem located_eq (result : Except RuntimeFault α) (span : Span) :
    FollowedBy Eq (Runner.located span result) fun _ =>
      Runner.located span result := by
  cases result with
  | ok value => exact pure rfl
  | error fault => exact raise fault span span

theorem required
    {value other : Option Value}
    (values : Option.Rel Value.Rephrases value other)
    (span place : Span) :
    FollowedBy Value.Rephrases (Runner.required span value) fun _ =>
      Runner.required place other := by
  cases values with
  | some values => exact pure values
  | none => exact raise .noValue span place

theorem forEach
    {run : Expression → Eval Value}
    {following : Nat → Expression → Eval Value}
    (runs : ∀ {expression other : Expression}, expression.Rephrases other →
      FollowedBy Value.Rephrases (run expression) fun steps => following steps other)
    {expressions others : List Expression}
    (rephrased : List.Forall₂ Expression.Rephrases expressions others) :
    FollowedBy (List.Forall₂ Value.Rephrases) (Runner.forEach run expressions)
      fun steps => Runner.forEach (following steps) others := by
  induction rephrased with
  | nil => exact pure .nil
  | cons firsts _ inductionHypothesis =>
      refine bind (runs firsts) ?_
      intro value found values
      refine bind inductionHypothesis ?_
      intro rest others rests
      exact pure (.cons values rests)

theorem bindParameters
    (scope : ScopeId)
    (span : Span)
    (names : List String)
    {values others : List Value}
    (rephrased : List.Forall₂ Value.Rephrases values others) :
    FollowedBy (fun _ _ => True)
      (Runner.bindParameters scope span (names.zip values))
      fun _ => Runner.bindParameters scope span (names.zip others) := by
  induction names generalizing values others with
  | nil => exact pure trivial
  | cons name rest inductionHypothesis =>
      cases rephrased with
      | nil => exact pure trivial
      | cons firsts rests =>
          refine bind (declareIn firsts scope false name span) ?_
          intro _ _ _
          exact inductionHypothesis rests

theorem declareFunction
    {body other : List Statement}
    (bodies : Statement.RephrasesBody body other)
    (name : String)
    (parameters : List String)
    (place : Span) :
    FollowedBy (fun _ _ => True)
      (Runner.declareFunction ⟨name, parameters, body, place⟩)
      fun _ => Runner.declareFunction ⟨name, parameters, other, place⟩ := by
  refine bind currentScope ?_
  rintro closure _ rfl
  refine bind (makeValue (.function name parameters bodies place closure)) ?_
  intro value found values
  exact declareIn values closure true name place

/-- Statements that start with statements that follow each other. -/
theorem sequence_cons
    {Result : Signal → Signal → Prop}
    {run : Statement → Eval Signal}
    {following : Nat → Statement → Eval Signal}
    {first other : Statement}
    {rest others : List Statement}
    (ends : ∀ signal found, Signal.Same Value.Rephrases signal found →
      Result signal found)
    (firsts : FollowedBy (Signal.Same Value.Rephrases) (run first) fun steps =>
      following steps other)
    (rests : ∀ {value found}, Option.Rel Value.Rephrases value found →
      FollowedBy Result (Runner.sequence run value rest) fun steps =>
        Runner.sequence (following steps) found others)
    (value found : Option Value) :
    FollowedBy Result (Runner.sequence run value (first :: rest)) fun steps =>
      Runner.sequence (following steps) found (other :: others) := by
  refine bind firsts ?_
  intro signal mapped signals
  cases signals with
  | normal values => exact rests values
  | broke => exact pure (ends _ _ .broke)
  | continued => exact pure (ends _ _ .continued)
  | returned values => exact pure (ends _ _ (.returned values))

theorem sequence
    {run : Statement → Eval Signal}
    {following : Nat → Statement → Eval Signal}
    (runs : ∀ {statement other : Statement}, statement.Rephrases other →
      FollowedBy (Signal.Same Value.Rephrases) (run statement) fun steps =>
        following steps other)
    {statements others : List Statement}
    (rephrased : List.Forall₂ Statement.Rephrases statements others)
    {value found : Option Value}
    (values : Option.Rel Value.Rephrases value found) :
    FollowedBy (Signal.Same Value.Rephrases) (Runner.sequence run value statements)
      fun steps => Runner.sequence (following steps) found others := by
  induction rephrased generalizing value found with
  | nil => exact pure (.normal values)
  | cons firsts _ inductionHypothesis =>
      exact sequence_cons (fun _ _ signals => signals) (runs firsts)
        inductionHypothesis value found

theorem callWith
    {run : Statement → Eval Signal}
    {following : Nat → Statement → Eval Signal}
    (runs : ∀ {body other : List Statement}, Statement.RephrasesBody body other →
      FollowedBy Signal.SameCallValue (Runner.sequence run none body) fun steps =>
        Runner.sequence (following steps) none other)
    {callee function : Value}
    {arguments others : List Value}
    (callees : callee.Rephrases function)
    (rephrased : List.Forall₂ Value.Rephrases arguments others)
    (span : Span) :
    FollowedBy (Option.Rel Value.Rephrases)
      (Runner.callWith run callee arguments span)
      fun steps => Runner.callWith (following steps) function others span := by
  unfold Runner.callWith
  rw [Value.Rephrases] at callees
  generalize callee.payload = payload at callees ⊢
  generalize function.payload = other at callees ⊢
  cases callees with
  | plain isPlain =>
      cases payload with
      | function declaration closure => cases isPlain
      | int number => exact raise _ span span
      | float number => exact raise _ span span
      | bool truth => exact raise _ span span
  | function name parameters bodies place closure =>
      simp only [rephrased.length_eq]
      split
      · exact raise _ span span
      · refine bind (openScope _ closure) ?_
        rintro scope _ rfl
        refine bind (bindParameters scope place parameters rephrased) ?_
        intro _ _ _
        refine bind (within (runs bodies) scope) ?_
        intro signal found signals
        exact pure signals

end FollowedBy

end Eval

end Scriptlet
