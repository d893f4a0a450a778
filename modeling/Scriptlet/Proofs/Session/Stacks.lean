import Scriptlet.Proofs.Evaluation.UpheldRuns
import Scriptlet.Proofs.Session.Contained
import Scriptlet.Proofs.Session.Points

namespace Scriptlet

/-!
# The stacks of a session

All functions that are bound in a session were declared in one of its programs, and the
scope around a function has the frames that are around its declaration there.  So the
stack of a report shows how the code that it is about is nested in its program, whatever
has called it.
-/

/-- The phrases of the programs that source units are read as, each with the frame of the
file and the frames of the blocks and functions around it. -/
def Nesting.ofUnits (fileName : String) (units : List SourceUnit) : Nesting where
  Holds frames phrase :=
    ∃ source ∈ units, ∃ program inner, source.ReadAs program ∧
      Occurs program inner phrase ∧ frames = .file fileName :: inner
  holds_part := by
    rintro _ phrase part ⟨source, isUnit, program, inner, reads, occurs, rfl⟩ isPart
    exact ⟨source, isUnit, program, inner, reads, .part occurs isPart, rfl⟩
  holds_inBlock := by
    rintro _ body span statement ⟨source, isUnit, program, inner, reads, occurs, rfl⟩
      isInside
    exact ⟨source, isUnit, program, _, reads, .inBlock occurs isInside, rfl⟩
  holds_inFunction := by
    rintro _ name parameters body span statement
      ⟨source, isUnit, program, inner, reads, occurs, rfl⟩ isInside
    exact ⟨source, isUnit, program, _, reads, .inFunction occurs isInside, rfl⟩

namespace Store

variable {nesting : Nesting} {fileName : String}

theorem placed_openFile (nesting : Nesting) (fileName : String) :
    (Store.empty.openFile fileName).Placed nesting ∧
      (Store.empty.openFile fileName).Framed [.file fileName] 0 := by
  have placed : Store.empty.Placed nesting := by
    refine ⟨.empty, ?_⟩
    intro _ _ _ isScope
    cases isScope
  have noParent : ∀ id, (none : Option ScopeId) = some id → id < Store.empty.nextId :=
    nofun
  have isFrames : (Store.empty.openFile fileName).frames 0 = [.file fileName] := by
    rw [frames, path_of_parent?_eq_none rfl]
    rfl
  exact ⟨placed.openScope noParent _, Nat.zero_lt_one, isFrames⟩

/-- A source unit runs the program that it is read as, or it leaves the store alone. -/
theorem runs_of_run?
    {store : Store}
    {steps : Nat}
    {scope : ScopeId}
    {source : SourceUnit}
    {execution : Execution}
    (isRun : store.run? steps scope source = some execution) :
    (∃ program, source.ReadAs program ∧
      store.runProgram? steps scope program = some execution) ∨
      execution.store = store := by
  simp only [run?] at isRun
  split at isRun
  case isTrue scanned =>
    split at isRun
    case h_1 program accepted =>
      exact .inl ⟨program, ⟨List.isEmpty_iff.mp scanned, accepted⟩, isRun⟩
    case h_2 =>
      cases isRun
      exact .inr rfl
  case isFalse =>
    cases isRun
    exact .inr rfl

/-- What a program leaves behind, and what it reports. -/
theorem upheld_of_runProgram?
    {store : Store}
    {steps : Nat}
    {frames : List Frame}
    {scope : ScopeId}
    {program : List Statement}
    {execution : Execution}
    (placed : store.Placed nesting)
    (framed : store.Framed frames scope)
    (holds : ∀ statement ∈ program, nesting.Holds frames (.statement statement))
    (isExecution : store.runProgram? steps scope program = some execution) :
    store.Evolves execution.store ∧ execution.store.Placed nesting ∧
      ∀ diagnostic ∈ execution.diagnostics, nesting.Reports diagnostic := by
  have upheld : Outcome.UpheldFrom nesting (PlacedValues nesting) store scope
      (Eval.program steps program ⟨store, scope⟩) :=
    (upholds_program (m := Eval) holds steps store placed scope framed).ends
  unfold runProgram? at isExecution
  generalize Eval.program steps program ⟨store, scope⟩ = outcome at upheld isExecution
  cases upheld with
  | done evolves laterPlaced isResult =>
      cases isExecution
      exact ⟨evolves, laterPlaced, List.forall_mem_nil _⟩
  | failed evolves laterPlaced reports =>
      cases isExecution
      exact ⟨evolves, laterPlaced, List.forall_mem_singleton.mpr reports⟩
  | exhausted => cases isExecution

/-- All stores of a session keep functions in the places that they have in its
programs. -/
theorem ReachedBy.placed
    {units : List SourceUnit}
    {store : Store}
    (reached : ReachedBy fileName units store)
    (holds : ∀ source ∈ units, ∀ program, source.ReadAs program →
      ∀ statement ∈ program, nesting.Holds [.file fileName] (.statement statement)) :
    store.Placed nesting ∧ store.Framed [.file fileName] 0 := by
  induction reached with
  | start => exact placed_openFile nesting fileName
  | @run units store steps source execution _ isRun inductionHypothesis =>
      obtain ⟨unitsHold, sourceHolds⟩ := List.forall_mem_append.mp holds
      obtain ⟨placed, framed⟩ := inductionHypothesis unitsHold
      have sourceHolds := List.forall_mem_singleton.mp sourceHolds
      rcases runs_of_run? isRun with ⟨program, reads, isProgram⟩ | isSame
      · obtain ⟨evolves, laterPlaced, _⟩ :=
          upheld_of_runProgram? placed framed (sourceHolds program reads) isProgram
        exact ⟨laterPlaced, framed.evolves evolves⟩
      · rw [isSame]
        exact ⟨placed, framed⟩

/-- The stack of a report that a source unit gives when it is run, whatever was run before
in the session, shows how the phrase that the report is about is nested in its program: the
frame of the file comes first, and then the frames of the blocks and functions around the
phrase, outermost first, and no others.  The one exception is a report of a parameter that
is repeated, which is about its function and shows the frame of the function, too. -/
theorem session_stacks
    {units : List SourceUnit}
    {store : Store}
    {source : SourceUnit}
    {program : List Statement}
    {steps : Nat}
    {execution : Execution}
    (reached : ReachedBy fileName units store)
    (reads : source.ReadAs program)
    (isRun : store.run? steps 0 source = some execution) :
    ∀ diagnostic ∈ execution.diagnostics,
      (Nesting.ofUnits fileName (units ++ [source])).Reports diagnostic := by
  have holds : ∀ unit ∈ units ++ [source], ∀ program, unit.ReadAs program →
      ∀ statement ∈ program,
        (Nesting.ofUnits fileName (units ++ [source])).Holds [.file fileName]
          (.statement statement) :=
    fun unit isUnit program reads statement isStatement =>
      ⟨unit, isUnit, program, [], reads, .top isStatement, rfl⟩
  obtain ⟨unitsHold, sourceHolds⟩ := List.forall_mem_append.mp holds
  obtain ⟨placed, framed⟩ := reached.placed unitsHold
  have isProgram : store.runProgram? steps 0 program = some execution := by
    simpa [run?, reads.scanned, reads.parsed] using isRun
  have sourceHolds := List.forall_mem_singleton.mp sourceHolds program reads
  exact (upheld_of_runProgram? placed framed sourceHolds isProgram).2.2

/-- A block calls a function of an earlier source unit, which fails in the body: the stack
shows the function and not the block. -/
theorem session_stacks_call :
    ∃ store program execution diagnostic,
      ReachedBy "main" [⟨"main", "function f() { 1() }"⟩] store ∧
      (SourceUnit.mk "main" "{ f() }").ReadAs program ∧
      store.run? 9 0 ⟨"main", "{ f() }"⟩ = some execution ∧
      diagnostic ∈ execution.diagnostics ∧
      diagnostic.stack = some [.file "main", .call "f" 1 "main"] ∧
      (Nesting.ofUnits "main"
        [⟨"main", "function f() { 1() }"⟩, ⟨"main", "{ f() }"⟩]).Reports
        diagnostic := by
  have isStack :
      (((Store.empty.openFile "main").run? 9 0 ⟨"main", "function f() { 1() }"⟩).bind
        fun first => (first.store.run? 9 0 ⟨"main", "{ f() }"⟩).map fun second =>
          second.diagnostics.map Diagnostic.stack) =
        some [some [.file "main", .call "f" 1 "main"]] := by
    decide +kernel
  obtain ⟨first, isFirst, isSecond⟩ := Option.bind_eq_some_iff.mp isStack
  obtain ⟨execution, isRun, areStacks⟩ := Option.map_eq_some_iff.mp isSecond
  obtain ⟨diagnostic, areDiagnostics, isStack⟩ := List.map_eq_singleton_iff.mp areStacks
  obtain ⟨program, reads, _⟩ :=
    SourceUnit.exists_readAs ⟨"main", "{ f() }"⟩ (fun _ => true) (by decide +kernel)
      (by decide +kernel)
  have reached := ReachedBy.start.run isFirst
  have isReported : diagnostic ∈ execution.diagnostics := by
    rw [areDiagnostics]
    exact List.mem_singleton_self diagnostic
  exact ⟨first.store, program, execution, diagnostic, reached, reads, isRun, isReported,
    isStack, session_stacks reached reads isRun diagnostic isReported⟩

end Store

end Scriptlet
