import Scriptlet.Proofs.Evaluation.Inertness
import Scriptlet.Proofs.Grammar.FirstFault
import Scriptlet.Proofs.Token.Placing
import Scriptlet.Session

namespace Scriptlet

/-!
# How runs of source units end

A run of a source unit ends without any fault or with faults of one stage.  Lexical faults
are reported together, in their order; the first syntax fault is reported alone, and so is
the first fault of a run.  Only the last of these has a stack, and only it can leave a
store that has changed.
-/

/-- Whether a run ended as runs do that end with faults of the given family, or without
any. -/
def Execution.EndsWith (before : Store) (execution : Execution) :
    Option ErrorFamily → Prop
  | none =>
      execution.diagnostics = []
  | some .lexical =>
      execution.diagnostics ≠ [] ∧
        (∀ diagnostic ∈ execution.diagnostics,
          diagnostic.kind.family = .lexical ∧ diagnostic.stack = none) ∧
        (execution.diagnostics.Pairwise fun first second =>
          first.span.start.precedes second.span.start = true) ∧
        execution.values = [] ∧
        execution.store = before
  | some .syntactic =>
      (∃ diagnostic, execution.diagnostics = [diagnostic] ∧
        diagnostic.kind.family = .syntactic ∧ diagnostic.stack = none) ∧
        execution.values = [] ∧
        execution.store = before
  | some .runtime =>
      (∃ diagnostic, execution.diagnostics = [diagnostic] ∧
        diagnostic.kind.family = .runtime ∧ diagnostic.stack.isSome = true) ∧
        execution.values = []

/-! ## The families of faults -/

theorem LexicalFault.family_kind (fault : LexicalFault) :
    fault.kind.family = .lexical := by
  cases fault <;> rfl

theorem SyntaxFault.family_kind (fault : SyntaxFault) :
    fault.kind.family = .syntactic := by
  cases fault <;> rfl

theorem RuntimeFault.family_kind (fault : RuntimeFault) :
    fault.kind.family = .runtime := by
  cases fault <;> rfl

/-- Every diagnostic of a scan is the report of a lexical fault. -/
theorem SourceUnit.exists_fault_of_scan
    {source : SourceUnit}
    {diagnostic : Diagnostic}
    (member : diagnostic ∈ source.scan.diagnostics) :
    ∃ (fault : LexicalFault) (span : Span), diagnostic = fault.locate span := by
  obtain ⟨⟨place, segment⟩, _, isDiagnostic⟩ := List.mem_filterMap.mp member
  cases segment with
  | fault cause lead marked trail =>
      cases isDiagnostic
      exact ⟨cause, _, rfl⟩
  | _ => cases isDiagnostic

/-- What the reading of tokens reports is a syntax fault. -/
theorem exists_fault_of_parse
    {tokens : List Token}
    {diagnostic : Diagnostic}
    (refused : parse tokens = .error diagnostic) :
    ∃ (fault : SyntaxFault) (span : Span), diagnostic = fault.locate span := by
  obtain ⟨fault, token, _, isReport⟩ := Parsed.of_result_eq_error refused
  exact ⟨fault, token.span, isReport⟩

namespace Execution.EndsWith

variable {before : Store} {execution : Execution} {ending other : Option ErrorFamily}

/-- The family of the faults is told by the diagnostics. -/
theorem head?_eq (endsWith : execution.EndsWith before ending) :
    (execution.diagnostics.head?.map fun diagnostic => diagnostic.kind.family) =
      ending := by
  match ending, endsWith with
  | none, isEmpty =>
      rw [show execution.diagnostics = [] from isEmpty]
      rfl
  | some .lexical, ⟨someReport, areLexical, _⟩ =>
      obtain ⟨first, others, areReports⟩ := List.exists_cons_of_ne_nil someReport
      rw [areReports] at areLexical ⊢
      exact congrArg some (areLexical first List.mem_cons_self).1
  | some .syntactic, ⟨⟨diagnostic, isReport, isSyntactic, _⟩, _⟩ =>
      rw [isReport]
      exact congrArg some isSyntactic
  | some .runtime, ⟨⟨diagnostic, isReport, isRuntime, _⟩, _⟩ =>
      rw [isReport]
      exact congrArg some isRuntime

theorem unique
    (endsWith : execution.EndsWith before ending)
    (endsOther : execution.EndsWith before other) :
    other = ending :=
  endsOther.head?_eq.symm.trans endsWith.head?_eq

end Execution.EndsWith

namespace Store

variable {store : Store} {source : SourceUnit}

/-- A scan with faults ends the run at once. -/
theorem run?_of_scan
    (someReport : source.scan.diagnostics ≠ [])
    (steps : Nat)
    (scope : ScopeId) :
    store.run? steps scope source = some ⟨[], source.scan.diagnostics, store⟩ := by
  have notEmpty : source.scan.diagnostics.isEmpty = false :=
    List.isEmpty_eq_false_iff.mpr someReport
  simp [run?, notEmpty]

theorem endsWith_of_scan (someReport : source.scan.diagnostics ≠ []) :
    (Execution.mk [] source.scan.diagnostics store).EndsWith store (some .lexical) := by
  refine ⟨someReport, ?_, segments_ordered source .origin _, rfl, rfl⟩
  intro diagnostic member
  obtain ⟨fault, span, rfl⟩ := SourceUnit.exists_fault_of_scan member
  exact ⟨fault.family_kind, rfl⟩

/-- Tokens that cannot be read end the run at once. -/
theorem run?_of_parse
    {diagnostic : Diagnostic}
    (noReport : source.scan.diagnostics = [])
    (refused : parse source.scan.tokens = .error diagnostic)
    (steps : Nat)
    (scope : ScopeId) :
    store.run? steps scope source = some ⟨[], [diagnostic], store⟩ := by
  simp [run?, noReport, refused]

theorem endsWith_of_parse
    {diagnostic : Diagnostic}
    (refused : parse source.scan.tokens = .error diagnostic) :
    (Execution.mk [] [diagnostic] store).EndsWith store (some .syntactic) := by
  obtain ⟨fault, span, rfl⟩ := exists_fault_of_parse refused
  exact ⟨⟨_, rfl, fault.family_kind, rfl⟩, rfl, rfl⟩

/-- A program ends without fault or with one of its run. -/
theorem endsWith_of_runProgram?
    {steps : Nat}
    {scope : ScopeId}
    {program : List Statement}
    {execution : Execution}
    (ran : store.runProgram? steps scope program = some execution) :
    execution.EndsWith store none ∨ execution.EndsWith store (some .runtime) := by
  unfold runProgram? at ran
  cases isOutcome : Eval.program steps program ⟨store, scope⟩ with
  | done values machine =>
      rw [isOutcome] at ran
      cases ran
      exact .inl rfl
  | failed diagnostic machine =>
      rw [isOutcome] at ran
      cases ran
      obtain ⟨fault, span, frames, rfl⟩ := Eval.locates_of_program_eq_failed isOutcome
      exact .inr ⟨⟨_, rfl, fault.family_kind, rfl⟩, rfl⟩
  | exhausted =>
      rw [isOutcome] at ran
      cases ran

/-- A run that comes to an end does so in exactly one of four ways: without any fault, or
with faults of exactly one family.  It ends with lexical faults whenever the scan has any,
whatever can be read from its tokens, and otherwise with a syntax fault whenever they
cannot be read. -/
theorem run?_endsWith
    (store : Store)
    (scope : ScopeId)
    (source : SourceUnit) :
    (∀ steps execution, store.run? steps scope source = some execution →
        ∃! ending, execution.EndsWith store ending) ∧
      (source.scan.diagnostics ≠ [] →
        ∀ steps, ∃ execution, store.run? steps scope source = some execution ∧
          execution.diagnostics = source.scan.diagnostics ∧
          execution.EndsWith store (some .lexical)) ∧
      ∀ diagnostic, source.scan.diagnostics = [] →
        parse source.scan.tokens = .error diagnostic →
        ∀ steps, ∃ execution, store.run? steps scope source = some execution ∧
          execution.diagnostics = [diagnostic] ∧
          execution.EndsWith store (some .syntactic) := by
  refine ⟨?_, ?_, ?_⟩
  · intro steps execution ran
    have ends : ∃ ending, execution.EndsWith store ending := by
      by_cases noReport : source.scan.diagnostics = []
      · cases isRead : parse source.scan.tokens with
        | error diagnostic =>
            rw [run?_of_parse noReport isRead] at ran
            cases ran
            exact ⟨_, endsWith_of_parse isRead⟩
        | ok program =>
            have ran : store.runProgram? steps scope program = some execution := by
              simpa [run?, noReport, isRead] using ran
            rcases endsWith_of_runProgram? ran with noFault | isRuntime
            · exact ⟨_, noFault⟩
            · exact ⟨_, isRuntime⟩
      · rw [run?_of_scan noReport] at ran
        cases ran
        exact ⟨_, endsWith_of_scan noReport⟩
    obtain ⟨ending, endsWith⟩ := ends
    exact ⟨ending, endsWith, fun _ endsOther => endsWith.unique endsOther⟩
  · intro someReport steps
    exact ⟨_, run?_of_scan someReport steps scope, rfl, endsWith_of_scan someReport⟩
  · intro diagnostic noReport refused steps
    exact ⟨_, run?_of_parse noReport refused steps scope, rfl,
      endsWith_of_parse refused⟩

/-- A text that is refused in both ways has its lexical faults reported only. -/
example :
    ((Store.empty.openFile "main").run? 9 0 ⟨"main", ") ? 1."⟩).map
        (fun execution => execution.diagnostics.map Diagnostic.kind) =
      some [.illegalCharacter, .trailingDot] := by
  decide +kernel

end Store

end Scriptlet
