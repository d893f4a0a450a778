import Scriptlet.Proofs.Evaluation.Watched
import Scriptlet.Session

namespace Scriptlet

/-!
# The stores of a session

A session runs source units one after the other in the outermost scope of a file.
Each unit is run with some number of steps; if they are used up, the session ends
there.  All the stores that a session passes through, inside of runs as well as
between them, evolve, and from every scope the way outwards ends.
-/

namespace Store

/-- The stores after the actions of a source unit, whether it comes to its end or
not. -/
def points
    (store : Store)
    (steps : Nat)
    (scope : ScopeId)
    (source : SourceUnit) :
    List Store :=
  let scan := source.scan
  if scan.diagnostics.isEmpty then
    match parse scan.tokens with
    | .ok program =>
        ((Runner.program steps program : Watched (List Value))
          ⟨store, scope⟩).2
    | .error _ => []
  else
    []

/-- The stores of a session from a store on, in the order of time. -/
def sessionPoints (store : Store) (scope : ScopeId) :
    List (Nat × SourceUnit) →
    List Store
  | [] => [store]
  | (steps, source) :: rest =>
      store :: store.points steps scope source ++
        match store.run? steps scope source with
        | some execution => execution.store.sessionPoints scope rest
        | none => []

theorem store?_of_runProgram?
    {store : Store}
    {steps : Nat}
    {scope : ScopeId}
    {program : List Statement}
    {execution : Execution}
    (isExecution : store.runProgram? steps scope program = some execution) :
    (Eval.program steps program ⟨store, scope⟩).store? =
      some execution.store := by
  unfold runProgram? at isExecution
  split at isExecution
  case h_1 isDone =>
    cases isExecution
    rw [isDone]
    rfl
  case h_2 isFailed =>
    cases isExecution
    rw [isFailed]
    rfl
  case h_3 =>
    cases isExecution

/-- The stores of one source unit. -/
theorem points_evolve
    {store : Store}
    {scope : ScopeId}
    (wellFormed : store.WellFormed)
    (isKnown : scope < store.nextId)
    (steps : Nat)
    (source : SourceUnit) :
    (store :: store.points steps scope source).Pairwise Store.Evolves ∧
      (∀ point ∈ store.points steps scope source, point.WellFormed) ∧
      ∀ execution, store.run? steps scope source = some execution →
        execution.store.WellFormed ∧
          ∀ point ∈ store :: store.points steps scope source,
            point.Evolves execution.store := by
  simp only [points, run?]
  cases source.scan.diagnostics.isEmpty with
  | false =>
      refine ⟨List.pairwise_singleton _ _, List.forall_mem_nil _, ?_⟩
      rintro _ ⟨⟩
      exact ⟨wellFormed, List.forall_mem_singleton.mpr (.refl store)⟩
  | true =>
      cases parse source.scan.tokens with
      | error diagnostic =>
          refine ⟨List.pairwise_singleton _ _, List.forall_mem_nil _, ?_⟩
          rintro _ ⟨⟩
          exact ⟨wellFormed, List.forall_mem_singleton.mpr (.refl store)⟩
      | ok program =>
          have follows :=
            Watched.follows_program wellFormed isKnown steps program
          refine ⟨follows.evolve, follows.wellFormed, ?_⟩
          intro execution isExecution
          exact follows.ends.leadsTo (store?_of_runProgram? isExecution)

/-- The stores of a session, from any well-formed store on. -/
theorem sessionPoints_evolve
    {store : Store}
    {scope : ScopeId}
    (wellFormed : store.WellFormed)
    (isKnown : scope < store.nextId)
    (units : List (Nat × SourceUnit)) :
    (∀ point ∈ store.sessionPoints scope units, store.Evolves point) ∧
      (store.sessionPoints scope units).Pairwise Store.Evolves ∧
      ∀ point ∈ store.sessionPoints scope units, point.WellFormed := by
  induction units generalizing store with
  | nil =>
      exact ⟨List.forall_mem_singleton.mpr (.refl store),
        List.pairwise_singleton _ _, List.forall_mem_singleton.mpr wellFormed⟩
  | cons unit rest inductionHypothesis =>
      obtain ⟨steps, source⟩ := unit
      obtain ⟨evolve, allWellFormed, leadsTo⟩ :=
        points_evolve wellFormed isKnown steps source
      have allWellFormed := List.forall_mem_cons.mpr
        ⟨wellFormed, allWellFormed⟩
      have fromStore : ∀ point ∈ store :: store.points steps scope source,
          store.Evolves point :=
        List.forall_mem_cons.mpr
          ⟨.refl store, (List.pairwise_cons.mp evolve).1⟩
      rw [sessionPoints]
      cases isExecution : store.run? steps scope source with
      | none =>
          rw [List.append_nil]
          exact ⟨fromStore, evolve, allWellFormed⟩
      | some execution =>
          obtain ⟨lastWellFormed, toLast⟩ := leadsTo execution isExecution
          have known := (toLast store List.mem_cons_self).lt_nextId isKnown
          obtain ⟨fromLast, evolveLater, laterWellFormed⟩ :=
            inductionHypothesis lastWellFormed known
          have toLater : ∀ point ∈ store :: store.points steps scope source,
              ∀ later ∈ execution.store.sessionPoints scope rest,
                point.Evolves later :=
            fun point isPoint later isLater =>
              (toLast point isPoint).trans (fromLast later isLater)
          exact
            ⟨List.forall_mem_append.mpr
                ⟨fromStore, toLater store List.mem_cons_self⟩,
              List.pairwise_append.mpr ⟨evolve, evolveLater, toLater⟩,
              List.forall_mem_append.mpr ⟨allWellFormed, laterWellFormed⟩⟩

/-- In every session, and at every point of every run in it, all scopes that exist
keep their frame and the scope around them, all bindings keep their flag and the
place of their declaration, and constants keep their value.  The way outwards from a
scope, along which names are looked up and frames are collected, always ends in a
scope that nothing is around. -/
theorem session_evolves (fileName : String) (units : List (Nat × SourceUnit)) :
    let points := (Store.empty.openFile fileName).sessionPoints 0 units
    points.Pairwise Store.Evolves ∧
      ∀ point ∈ points, ∀ id < point.nextId, point.Chain id (point.path id) := by
  intro points
  have noParent : ∀ id, (none : Option ScopeId) = some id →
      id < Store.empty.nextId :=
    nofun
  have wellFormed : (Store.empty.openFile fileName).WellFormed :=
    WellFormed.empty.openScope noParent (.file fileName)
  obtain ⟨_, evolve, allWellFormed⟩ :=
    sessionPoints_evolve wellFormed (Nat.zero_lt_one) units
  refine ⟨evolve, ?_⟩
  intro point isPoint id isKnown
  exact (allWellFormed point isPoint).chain_path isKnown

end Store

end Scriptlet
