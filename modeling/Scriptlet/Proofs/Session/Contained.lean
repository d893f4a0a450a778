import Scriptlet.Proofs.Evaluation.Activities
import Scriptlet.Proofs.Grammar.JoinedTexts
import Scriptlet.Session

namespace Scriptlet

/-!
# Sessions without lost jumps

All programs of a session are read from source units, and so are the bodies of all
functions that its stores ever bind.  Therefore nothing that runs in a session meets an
operator that it cannot apply, and no jump leaves the body that it stands in: it is
taken by the innermost loop around it there.
-/

/-- What is never seen of an activity from outside: a fault of an operator that cannot
be applied, and a jump for a loop that no loop takes. -/
structure Activity.Contained (activity : Activity) : Prop where
  /-- Its operators can be applied. -/
  applied : ∀ diagnostic final, activity.outcome = .failed diagnostic final →
    diagnostic.kind ≠ .invalidOpToken
  /-- Its jump is taken by the innermost loop around it in the same body. -/
  taken : ∀ signal final, activity.outcome = .done signal final →
    signal.isForLoop = true →
    ∃ round, activity.place.round? = some round ∧ round.Takes signal final.store
  /-- A loop as a whole has no such jump. -/
  looped : ∀ condition body, activity.task = .loop condition body →
    ∀ signal final, activity.outcome = .done signal final →
      signal.isForLoop = false
  /-- The body of a function that is called has no such jump. -/
  called : ∀ body, activity.task = .body body →
    ∀ signal final, activity.outcome = .done signal final →
      signal.isForLoop = false

theorem Activity.Sound.contained
    {activity : Activity}
    (sound : activity.Sound) :
    activity.Contained := by
  obtain ⟨place, steps, task, machine⟩ := activity
  obtain ⟨storeProper, taskProper, taken⟩ := sound
  refine ⟨?_, taken, ?_, ?_⟩
  · intro diagnostic final isFailed
    have ended := taskProper.safe steps machine storeProper
    rw [show task.run steps machine = .failed diagnostic final from isFailed]
      at ended
    exact ended.2
  · rintro condition body rfl signal final isDone
    have safe := (runsSafely steps).loop taskProper.1 taskProper.2
    exact (safe.ends storeProper isDone).2.isForLoop_eq_false
  · rintro body rfl signal final isDone
    have isCall : place = .ofCall := taskProper.1
    subst isCall
    exact ((taskProper.safe steps).ends storeProper isDone).2.isForLoop_eq_false

/-- The statements of a program that are run, each on the machine that those before it
have left. -/
inductive StartedBy
    (steps : Nat)
    (program : List Statement)
    (machine : Machine) :
    Activity → Prop where
  | statement
      (isProgram : program = before ++ statement :: behind)
      (isDone : Eval.program steps before machine = .done values later) :
      StartedBy steps program machine
        ⟨.ofProgram, steps, .statement statement, later⟩

theorem StartedBy.sound
    {steps : Nat}
    {program : List Statement}
    {machine : Machine}
    {activity : Activity}
    (isStarted : StartedBy steps program machine activity)
    (storeProper : machine.store.Proper)
    (programProper : Statement.BodyProper false false program) :
    activity.Sound := by
  obtain ⟨rfl, isDone⟩ := isStarted
  obtain ⟨beforeProper, restProper⟩ := List.forall_mem_append.mp programProper
  have ended := (Eval.safe_program beforeProper steps).ends storeProper isDone
  exact .ofProgram ended.1 (List.forall_mem_cons.mp restProper).1

/-- A statement of a program ends normally if it ends. -/
theorem StartedBy.endsNormally
    {steps : Nat}
    {program : List Statement}
    {machine final : Machine}
    {activity : Activity}
    {signal : Signal}
    (isStarted : StartedBy steps program machine activity)
    (sound : activity.Sound)
    (isDone : activity.outcome = .done signal final) :
    ∃ value, signal = .normal value := by
  obtain ⟨_, fits⟩ :=
    (sound.task_proper.safe activity.steps).ends sound.store_proper isDone
  obtain ⟨rfl, _⟩ := isStarted
  cases signal with
  | normal value => exact ⟨value, rfl⟩
  | broke => cases fits
  | continued => cases fits
  | returned value => cases fits.1

namespace Store

/-- The stores that source units lead to when they are run one after the other in the
outermost scope of a file. -/
inductive ReachedBy (fileName : String) : List SourceUnit → Store → Prop where
  | start :
      ReachedBy fileName [] (Store.empty.openFile fileName)
  | run
      (reached : ReachedBy fileName units store)
      (isRun : store.run? steps 0 source = some execution) :
      ReachedBy fileName (units ++ [source]) execution.store

/-- Running a proper program leaves a proper store. -/
theorem proper_of_runProgram?
    {store : Store}
    {program : List Statement}
    {steps : Nat}
    {execution : Execution}
    (proper : store.Proper)
    (programProper : Statement.BodyProper false false program)
    (isExecution : store.runProgram? steps 0 program = some execution) :
    execution.store.Proper ∧
      ∀ diagnostic ∈ execution.diagnostics,
        diagnostic.kind ≠ .invalidOpToken := by
  have ended := Eval.safe_program programProper steps ⟨store, 0⟩ proper
  unfold runProgram? at isExecution
  split at isExecution
  case h_1 isDone =>
    cases isExecution
    rw [isDone] at ended
    exact ⟨ended.1, List.forall_mem_nil _⟩
  case h_2 isFailed =>
    cases isExecution
    rw [isFailed] at ended
    exact ⟨ended.1, List.forall_mem_singleton.mpr ended.2⟩
  case h_3 =>
    cases isExecution

/-- All stores of a session are proper. -/
theorem ReachedBy.proper
    {fileName : String}
    {units : List SourceUnit}
    {store : Store}
    (reached : ReachedBy fileName units store) :
    store.Proper := by
  induction reached with
  | start =>
      exact Proper.empty.openScope (.file fileName) none
  | run _ isRun inductionHypothesis =>
      simp only [run?] at isRun
      split at isRun
      case isTrue =>
        split at isRun
        case h_1 accepted =>
          exact (proper_of_runProgram? inductionHypothesis
            (bodyProper_of_parse accepted) isRun).1
        case h_2 =>
          cases isRun
          exact inductionHypothesis
      case isFalse =>
        cases isRun
        exact inductionHypothesis

/-- Whatever was run before in a session, a source unit that is read as a program never
reports an operator that cannot be applied, however far its run gets.  Its statements
end normally if they end, without a jump or a return.  All activities that they start
keep their jumps in the body that they belong to, where the innermost loop takes
them. -/
theorem session_contained
    {fileName : String}
    {units : List SourceUnit}
    {store : Store}
    {source : SourceUnit}
    {program : List Statement}
    (reached : ReachedBy fileName units store)
    (reads : source.ReadAs program)
    (steps : Nat) :
    (∀ execution, store.run? steps 0 source = some execution →
      ∀ diagnostic ∈ execution.diagnostics,
        diagnostic.kind ≠ .invalidOpToken) ∧
      ∀ first, StartedBy steps program ⟨store, 0⟩ first →
        (∀ signal final, first.outcome = .done signal final →
          ∃ value, signal = .normal value) ∧
        ∀ last, Relation.ReflTransGen Starts first last → last.Contained := by
  have programProper := bodyProper_of_parse reads.parsed
  constructor
  · intro execution isExecution
    have isProgram : store.runProgram? steps 0 program = some execution := by
      simpa [run?, reads.scanned, reads.parsed] using isExecution
    exact (proper_of_runProgram? reached.proper programProper isProgram).2
  · intro first isStarted
    have sound := isStarted.sound reached.proper programProper
    refine ⟨?_, ?_⟩
    · intro signal final isDone
      exact isStarted.endsNormally sound isDone
    · intro last areStarted
      exact (sound.startsAll areStarted).contained

theorem readAs_breakingLoop :
    ∃ program, (SourceUnit.mk "main" "while true break").ReadAs program ∧
      (match program with
      | [.whileLoop (.literal (.bool value) _) (.breakLoop _) _] => value
      | _ => false) = true :=
  SourceUnit.exists_readAs _ _ (by decide +kernel) (by decide +kernel)

/-- A loop, run behind a declaration, takes the jump in it. -/
theorem session_contained_break :
    ∃ store program first last final round,
      ReachedBy "main" [⟨"main", "var x = 1"⟩] store ∧
      (SourceUnit.mk "main" "while true break").ReadAs program ∧
      StartedBy 9 program ⟨store, 0⟩ first ∧
      Relation.ReflTransGen Starts first last ∧
      last.outcome = .done .broke final ∧
      last.place.round? = some round ∧
      round.Takes .broke final.store := by
  obtain ⟨execution, isRun⟩ : ∃ execution,
      (Store.empty.openFile "main").run? 9 0 ⟨"main", "var x = 1"⟩ = some execution :=
    Option.isSome_iff_exists.mp (by decide +kernel)
  obtain ⟨program, reads, isShape⟩ := readAs_breakingLoop
  split at isShape
  case h_2 => cases isShape
  case h_1 value truthSpan jumpSpan span =>
    obtain rfl := isShape
    have reached := ReachedBy.start.run isRun
    have isStarted (statement : Statement) :
        StartedBy 9 [statement] ⟨execution.store, 0⟩
          ⟨.ofProgram, 9, .statement statement, ⟨execution.store, 0⟩⟩ :=
      .statement (List.nil_append _).symm rfl
    have areStarted (condition : Expression) (body : Statement)
        (isTrue : Eval.valueOf 7 condition ⟨execution.store, 0⟩ =
          .done ⟨.bool true, 0⟩ ⟨execution.store, 0⟩) :
        Relation.ReflTransGen Starts
          ⟨.ofProgram, 9, .statement (.whileLoop condition body span),
            ⟨execution.store, 0⟩⟩
          ⟨⟨false, some ⟨7, condition, body, ⟨execution.store, 0⟩⟩⟩, 7,
            .statement body, ⟨execution.store, 0⟩⟩ :=
      (Relation.ReflTransGen.single .loop).tail (.round isTrue rfl)
    obtain ⟨_, contained⟩ := session_contained reached reads 9
    obtain ⟨round, isRound, takes⟩ :=
      ((contained _ (isStarted _)).2 _ (areStarted _ _ rfl)).taken .broke _ rfl rfl
    exact ⟨_, _, _, _, _, round, reached, reads, isStarted _, areStarted _ _ rfl,
      rfl, isRound, takes⟩

end Store

end Scriptlet
