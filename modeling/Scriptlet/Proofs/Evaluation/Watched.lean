import Scriptlet.Proofs.Evaluation.Simulation
import Scriptlet.Proofs.Store.Evolution

namespace Scriptlet

/-!
# Watching a run

A watched run also collects the stores it passes through, one after every action,
and does so even if its steps are used up.  It ends exactly as the run on a machine
alone does, and every store it passes through has evolved from all those before.
-/

/-- A run on a machine, with the stores after its actions. -/
def Watched (α : Type) : Type :=
  Machine → Outcome α × List Store

/-- The store that a run leaves behind. -/
def Outcome.store? : Outcome α → Option Store
  | .done _ machine => some machine.store
  | .failed _ machine => some machine.store
  | .exhausted => none

namespace Watched

instance : Monad Watched where
  pure value := fun machine => (.done value machine, [])
  bind first next := fun machine =>
    match first machine with
    | (.done value reached, points) =>
        let (outcome, later) := next value reached
        (outcome, points ++ later)
    | (.failed diagnostic reached, points) =>
        (.failed diagnostic reached, points)
    | (.exhausted, points) => (.exhausted, points)

instance : Runner Watched where
  perform action := fun machine =>
    (action machine, (action machine).store?.toList)
  within scope body := fun machine =>
    let (outcome, points) := body { machine with current := scope }
    (outcome.mapMachine fun final => { final with current := machine.current },
      points)

/-! ## What is known where a run has got -/

/-- That a machine is reached through stores: it still runs the same scope, and its
store has evolved from all of them. -/
structure Reached
    (points : List Store)
    (current : ScopeId)
    (machine : Machine) :
    Prop where
  current_eq : machine.current = current
  wellFormed : machine.store.WellFormed
  evolves : ∀ point ∈ points, point.Evolves machine.store

/-- That a watched run and the run alone end alike. -/
inductive EndsAlike
    (points : List Store)
    (current : ScopeId)
    (Result : Store → α → β → Prop) :
    Outcome α → Outcome β → Prop where
  | done
      (reached : Reached points current machine)
      (results : Result machine.store value result) :
      EndsAlike points current Result (.done value machine)
        (.done result machine)
  | failed
      (reached : Reached points current machine) :
      EndsAlike points current Result (.failed diagnostic machine)
        (.failed diagnostic machine)
  | exhausted :
      EndsAlike points current Result .exhausted .exhausted

theorem Reached.earlier
    {points others : List Store}
    {current : ScopeId}
    {machine : Machine}
    (reached : Reached points current machine)
    (evolve : ∀ other ∈ others, ∃ point ∈ points, other.Evolves point) :
    Reached others current machine where
  current_eq := reached.current_eq
  wellFormed := reached.wellFormed
  evolves := by
    intro other isOther
    obtain ⟨point, isPoint, toPoint⟩ := evolve other isOther
    exact toPoint.trans (reached.evolves point isPoint)

theorem EndsAlike.earlier
    {points others : List Store}
    {current : ScopeId}
    {Result : Store → α → β → Prop}
    {watched : Outcome α}
    {alone : Outcome β}
    (ends : EndsAlike points current Result watched alone)
    (evolve : ∀ other ∈ others, ∃ point ∈ points, other.Evolves point) :
    EndsAlike others current Result watched alone := by
  cases ends with
  | done reached results => exact .done (reached.earlier evolve) results
  | failed reached => exact .failed (reached.earlier evolve)
  | exhausted => exact .exhausted

theorem EndsAlike.imp
    {points : List Store}
    {current : ScopeId}
    {Result Weaker : Store → α → β → Prop}
    {watched : Outcome α}
    {alone : Outcome β}
    (ends : EndsAlike points current Result watched alone)
    (implies : ∀ store value result, Result store value result →
      Weaker store value result) :
    EndsAlike points current Weaker watched alone := by
  cases ends with
  | done reached results => exact .done reached (implies _ _ _ results)
  | failed reached => exact .failed reached
  | exhausted => exact .exhausted

/-- The store that is left behind has evolved from all stores on the way. -/
theorem EndsAlike.leadsTo
    {points : List Store}
    {current : ScopeId}
    {Result : Store → α → β → Prop}
    {watched : Outcome α}
    {alone : Outcome β}
    {last : Store}
    (ends : EndsAlike points current Result watched alone)
    (isLast : alone.store? = some last) :
    last.WellFormed ∧ ∀ point ∈ points, point.Evolves last := by
  cases ends with
  | done reached results =>
      cases isLast
      exact ⟨reached.wellFormed, reached.evolves⟩
  | failed reached =>
      cases isLast
      exact ⟨reached.wellFormed, reached.evolves⟩
  | exhausted =>
      cases isLast

/-- That a watched run from a store ends like the run alone, and that the stores it
passes through evolve. -/
structure Follows
    (before : Store)
    (current : ScopeId)
    (Result : Store → α → β → Prop)
    (watched : Outcome α × List Store)
    (alone : Outcome β) :
    Prop where
  evolve : (before :: watched.2).Pairwise Store.Evolves
  wellFormed : ∀ point ∈ watched.2, point.WellFormed
  ends : EndsAlike (before :: watched.2) current Result watched.1 alone

namespace Follows

variable {before : Store} {current : ScopeId}
variable {Result : Store → α → β → Prop}

theorem pure
    {value : α}
    {result : β}
    (wellFormed : before.WellFormed)
    (results : Result before value result) :
    Follows before current Result (.done value ⟨before, current⟩, [])
      (.done result ⟨before, current⟩) where
  evolve := List.pairwise_singleton _ _
  wellFormed := List.forall_mem_nil _
  ends :=
    .done ⟨rfl, wellFormed, List.forall_mem_singleton.mpr (.refl before)⟩
      results

/-- An action that comes to its end. -/
theorem performed
    {after : Store}
    {value : α}
    {result : β}
    (evolves : before.Evolves after)
    (wellFormed : after.WellFormed)
    (results : Result after value result) :
    Follows before current Result (.done value ⟨after, current⟩, [after])
      (.done result ⟨after, current⟩) where
  evolve := List.pairwise_pair.mpr evolves
  wellFormed := List.forall_mem_singleton.mpr wellFormed
  ends :=
    .done
      ⟨rfl, wellFormed, List.forall_mem_cons.mpr
        ⟨evolves, List.forall_mem_singleton.mpr (.refl after)⟩⟩
      results

/-- An action that is refused. -/
theorem refused
    {diagnostic : Diagnostic}
    (wellFormed : before.WellFormed) :
    Follows before current Result
      (.failed diagnostic ⟨before, current⟩, [before])
      (.failed diagnostic ⟨before, current⟩) where
  evolve := List.pairwise_pair.mpr (.refl before)
  wellFormed := List.forall_mem_singleton.mpr wellFormed
  ends :=
    .failed
      ⟨rfl, wellFormed, List.forall_mem_cons.mpr
        ⟨.refl before, List.forall_mem_singleton.mpr (.refl before)⟩⟩

theorem exhausted :
    Follows before current Result (.exhausted, []) .exhausted where
  evolve := List.pairwise_singleton _ _
  wellFormed := List.forall_mem_nil _
  ends := .exhausted

/-- The stores of a run that goes on from where another has got. -/
theorem append
    {points later : List Store}
    {middle : Machine}
    (evolve : (before :: points).Pairwise Store.Evolves)
    (reached : Reached (before :: points) current middle)
    (further : (middle.store :: later).Pairwise Store.Evolves) :
    (before :: (points ++ later)).Pairwise Store.Evolves := by
  obtain ⟨fromMiddle, evolveLater⟩ := List.pairwise_cons.mp further
  rw [← List.cons_append]
  refine List.pairwise_append.mpr ⟨evolve, evolveLater, ?_⟩
  intro point isPoint last isLast
  exact (reached.evolves point isPoint).trans (fromMiddle last isLast)

theorem bind
    {γ δ : Type}
    {Middle : Store → γ → δ → Prop}
    {first : Watched γ}
    {second : Eval δ}
    {next : γ → Watched α}
    {following : δ → Eval β}
    (follows : Follows before current Middle (first ⟨before, current⟩)
      (second ⟨before, current⟩))
    (goesOn : ∀ later value result, before.Evolves later →
      later.WellFormed → Middle later value result →
      Follows later current Result (next value ⟨later, current⟩)
        (following result ⟨later, current⟩)) :
    Follows before current Result ((first >>= next) ⟨before, current⟩)
      ((second >>= following) ⟨before, current⟩) := by
  simp only [Bind.bind]
  obtain ⟨evolve, wellFormed, ends⟩ := follows
  generalize first ⟨before, current⟩ = watched at evolve wellFormed ends
  generalize second ⟨before, current⟩ = alone at ends
  obtain ⟨outcome, points⟩ := watched
  cases ends with
  | @done machine value result reached results =>
      obtain ⟨store, scope⟩ := machine
      obtain rfl : scope = current := reached.current_eq
      obtain ⟨evolveLater, wellFormedLater, endsLater⟩ :=
        goesOn store value result (reached.evolves before List.mem_cons_self)
          reached.wellFormed results
      refine ⟨append evolve reached evolveLater, ?_, ?_⟩
      · exact List.forall_mem_append.mpr ⟨wellFormed, wellFormedLater⟩
      · refine endsLater.earlier ?_
        intro point isPoint
        rw [← List.cons_append] at isPoint
        rcases List.mem_append.mp isPoint with isEarlier | isLater
        · exact ⟨store, List.mem_cons_self, reached.evolves point isEarlier⟩
        · exact ⟨point, List.mem_cons_of_mem _ isLater, .refl point⟩
  | failed reached =>
      exact ⟨evolve, wellFormed, .failed reached⟩
  | exhausted =>
      exact ⟨evolve, wellFormed, .exhausted⟩

theorem within
    {scope : ScopeId}
    {first : Watched α}
    {second : Eval β}
    (follows : Follows before scope Result (first ⟨before, scope⟩)
      (second ⟨before, scope⟩)) :
    Follows before current Result
      (Runner.within scope first ⟨before, current⟩)
      (Runner.within scope second ⟨before, current⟩) := by
  simp only [Runner.within, Eval.within]
  obtain ⟨evolve, wellFormed, ends⟩ := follows
  generalize first ⟨before, scope⟩ = watched at evolve wellFormed ends
  generalize second ⟨before, scope⟩ = alone at ends
  obtain ⟨outcome, points⟩ := watched
  refine ⟨evolve, wellFormed, ?_⟩
  cases ends with
  | done reached results =>
      exact .done ⟨rfl, reached.wellFormed, reached.evolves⟩ results
  | failed reached =>
      exact .failed ⟨rfl, reached.wellFormed, reached.evolves⟩
  | exhausted =>
      exact .exhausted

end Follows

/-! ## The actions -/

section Actions

variable {before : Store} {current : ScopeId}

theorem follows_declareIn
    {scope : ScopeId}
    {value : Value}
    (wellFormed : before.WellFormed)
    (isKnown : value.KnownIn before)
    (constant : Bool)
    (name : String)
    (span : Span) :
    Follows before current (fun _ (_ _ : Unit) => True)
      ((Runner.declareIn scope constant name value span : Watched Unit)
        ⟨before, current⟩)
      (Eval.declareIn scope constant name value span ⟨before, current⟩) := by
  simp only [Runner.declareIn, Runner.perform, Eval.declareIn]
  cases isChecked : before.checkDeclare scope name span with
  | error diagnostic =>
      exact .refused wellFormed
  | ok _ =>
      have isNew := Store.binding?_of_checkDeclare isChecked
      exact .performed (.bindIn isNew) (wellFormed.bindIn isNew isKnown) trivial

theorem follows_assign
    {value : Value}
    (wellFormed : before.WellFormed)
    (isKnown : value.KnownIn before)
    (name : String)
    (span : Span) :
    Follows before current
      (fun later value result => result = value ∧ value.KnownIn later)
      ((Runner.assign name value span : Watched Value) ⟨before, current⟩)
      (Eval.assign name value span ⟨before, current⟩) := by
  simp only [Runner.assign, Runner.perform, Eval.assign]
  cases isAssignee : before.assignee current name span with
  | error diagnostic =>
      exact .refused wellFormed
  | ok owner =>
      have notConstant := Store.constant_of_assignee isAssignee
      have evolves := Store.Evolves.assignIn notConstant value
      exact .performed evolves (wellFormed.assignIn notConstant isKnown)
        ⟨rfl, isKnown.evolves evolves⟩

theorem follows_lookUp
    (wellFormed : before.WellFormed)
    (name : String)
    (span : Span) :
    Follows before current
      (fun later value result => result = value ∧ value.KnownIn later)
      ((Runner.lookUp name span : Watched Value) ⟨before, current⟩)
      (Eval.lookUp name span ⟨before, current⟩) := by
  simp only [Runner.lookUp, Runner.perform, Eval.lookUp, Store.get]
  cases isResolved : before.resolve? current name with
  | none =>
      exact .refused wellFormed
  | some binding =>
      exact .performed (.refl before) wellFormed
        ⟨rfl, wellFormed.resolve_known isResolved⟩

theorem follows_openScope
    {parent : ScopeId}
    (wellFormed : before.WellFormed)
    (isKnown : parent < before.nextId)
    (frame : Frame) :
    Follows before current
      (fun later scope found => found = scope ∧ scope < later.nextId)
      ((Runner.openScope frame parent : Watched ScopeId) ⟨before, current⟩)
      (Eval.openScope frame parent ⟨before, current⟩) := by
  have parentKnown : ∀ id, some parent = some id → id < before.nextId := by
    rintro _ ⟨⟩
    exact isKnown
  have opened : before.nextId <
      (before.openScope frame (some parent)).nextId := by
    rw [Store.nextId_openScope]
    exact Nat.lt_succ_self _
  exact .performed (.openScope before frame (some parent))
    (wellFormed.openScope parentKnown frame) ⟨rfl, opened⟩

theorem follows_declareFunction
    (wellFormed : before.WellFormed)
    (isKnown : current < before.nextId)
    (declaration : FunctionDeclaration) :
    Follows before current (fun _ (_ _ : Unit) => True)
      ((Runner.declareFunction declaration : Watched Unit) ⟨before, current⟩)
      ((Runner.declareFunction declaration : Eval Unit)
        ⟨before, current⟩) := by
  have scopeFound : Follows before current
      (fun store scope found => found = scope ∧ scope < store.nextId)
      ((Runner.currentScope : Watched ScopeId) ⟨before, current⟩)
      (Eval.currentScope ⟨before, current⟩) :=
    .performed (.refl before) wellFormed ⟨rfl, isKnown⟩
  refine scopeFound.bind ?_
  rintro store _ closure _ wellFormed ⟨rfl, closureKnown⟩
  have made : Follows store current
      (fun later value result => result = value ∧ value.KnownIn later)
      ((Runner.makeValue (.function declaration closure) : Watched Value)
        ⟨store, current⟩)
      (Eval.makeValue (.function declaration closure) ⟨store, current⟩) := by
    refine .performed (.refl store) wellFormed ⟨rfl, ?_⟩
    rintro _ _ ⟨⟩
    exact closureKnown
  refine made.bind ?_
  rintro later _ value _ wellFormed ⟨rfl, valueKnown⟩
  exact follows_declareIn wellFormed valueKnown true _ _

end Actions

/-- Watched runs and runs alone. -/
def evolution : Simulation Watched Eval where
  World := Store
  Later := Store.Evolves
  change := id
  Same store value mapped := mapped = value ∧ value.KnownIn store
  Known store scope := scope < store.nextId
  Related store Result watched alone :=
    store.WellFormed → ∀ current, current < store.nextId →
      Follows store current Result (watched ⟨store, current⟩)
        (alone ⟨store, current⟩)
  later_trans := Store.Evolves.trans
  same_later := fun evolves same => ⟨same.1, same.2.evolves evolves⟩
  known_later := fun evolves isKnown => evolves.lt_nextId isKnown
  same_mappedTo := by
    intro store value mapped same
    exact (congrArg Value.payload same.1).trans value.payload.mapSpans_id.symm
  same_withPayload := by
    rintro store value _ payload isPlain ⟨rfl, _⟩
    exact ⟨rfl, Value.knownIn_of_isPlain isPlain store⟩
  known_closure := fun same isFunction => same.2 _ _ isFunction
  pure_related := fun results wellFormed _ _ => .pure wellFormed results
  bind_related := by
    intro _ _ _ _ store Middle Result first second next following related goesOn
      wellFormed current isKnown
    refine (related wellFormed current isKnown).bind ?_
    intro later value result evolves wellFormedLater results
    exact goesOn later value result evolves results wellFormedLater current
      (evolves.lt_nextId isKnown)
  within_related := by
    intro _ _ store Result first second scope isKnown related wellFormed current _
    exact (related wellFormed scope isKnown).within
  exhausted_related := fun _ _ _ => .exhausted
  raise_related := fun _ _ wellFormed _ _ => .refused wellFormed
  currentScope_related := fun store wellFormed _ isKnown =>
    .performed (.refl store) wellFormed ⟨rfl, isKnown⟩
  makeValue_related := fun store _ isPlain wellFormed _ _ =>
    .performed (.refl store) wellFormed
      ⟨rfl, Value.knownIn_of_isPlain isPlain store⟩
  lookUp_related := fun _ name span wellFormed _ _ =>
    follows_lookUp wellFormed name span
  assign_related := by
    rintro store value _ name span ⟨rfl, isKnown⟩ wellFormed _ _
    exact follows_assign wellFormed isKnown name span
  openBlock_related := fun _ isKnown wellFormed _ _ =>
    follows_openScope wellFormed isKnown _
  openCall_related := fun _ _ isKnown wellFormed _ _ =>
    follows_openScope wellFormed isKnown _
  declareIn_related := by
    rintro store scope value _ constant name span _ ⟨rfl, isKnown⟩ wellFormed _ _
    exact follows_declareIn wellFormed isKnown constant name span
  declareFunction_related := by
    intro store declaration wellFormed current isKnown
    rw [declaration.mapSpans_id]
    exact follows_declareFunction wellFormed isKnown declaration

/-- A watched program ends like the program alone, and the stores it passes through
evolve. -/
theorem follows_program
    {before : Store}
    {current : ScopeId}
    (wellFormed : before.WellFormed)
    (isKnown : current < before.nextId)
    (steps : Nat)
    (statements : List Statement) :
    Follows before current (fun _ values results => results = values)
      ((Runner.program steps statements : Watched (List Value))
        ⟨before, current⟩)
      (Eval.program steps statements ⟨before, current⟩) := by
  have sameStatements :
      statements.map (Statement.mapSpans evolution.change) = statements :=
    Statement.map_mapSpans_id statements
  have related := evolution.program_related (.inl rfl : evolution.Comparable
    steps steps) statements before wellFormed current isKnown
  rw [sameStatements] at related
  refine ⟨related.evolve, related.wellFormed, related.ends.imp ?_⟩
  intro store values results same
  have equal : List.Forall₂ (fun value result : Value => value = result)
      values results :=
    List.Forall₂.imp (fun _ _ same => same.1.symm) same
  rw [List.forall₂_eq_eq_eq] at equal
  exact equal.symm

end Watched

end Scriptlet
