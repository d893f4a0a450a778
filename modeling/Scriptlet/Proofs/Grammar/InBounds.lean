import Scriptlet.Proofs.Grammar.Mirrored

namespace Scriptlet

/-!
# Reading a program stays in bounds

When a program is read by places, the first end-of-input token is never passed, no place
behind it is ever looked at, and reading comes to an end with the program or the report that
the tokens in front of it tell.  Declarations, statements and expressions consume at least
one token each.
-/

namespace TokenStream

/-- With more steps than are needed a stream is read as with just enough. -/
theorem parsed_eq_of_le
    {stream : TokenStream}
    {steps : Nat}
    (enough : stream.steps ≤ steps) :
    Parser.statements steps .outermost stream.stop stream.body = stream.parsed := by
  have finished : Parser.statements steps .outermost stream.stop stream.body ≠ .exhausted :=
    ((Parser.statementsEnd stream.isStop steps).statements .outermost stream.body
      (by unfold TokenStream.steps at enough; omega)).ne_exhausted
  have settles := Parser.Settles.of_ne_exhausted stream.isStop
    (Parser.reader_statements .outermost) (fun _ => rfl)
    ((Parser.statementsPrompt stream.isStop steps).statements .outermost stream.body)
    finished
  exact settles.unique stream.settles

/-- Tokens are read up to the first one that marks the end of the input. -/
theorem begins_marked (tokens : List Token) :
    (ofTokens tokens).Begins (marked tokens) :=
  ⟨fun _ => kind_ne_endOfInput, marked_eq tokens⟩

theorem eq_of_body_eq
    {stream other : TokenStream}
    (sameBody : stream.body = other.body)
    (sameStop : stream.stop = other.stop) :
    stream = other := by
  cases stream
  cases other
  cases sameBody
  cases sameStop
  rfl

/-- Only the tokens up to the first one that marks the end of the input count. -/
theorem ofTokens_congr
    {tokens others : List Token}
    (same : (marked others).take ((ofTokens tokens).body.length + 1) =
      (marked tokens).take ((ofTokens tokens).body.length + 1)) :
    ofTokens others = ofTokens tokens := by
  obtain ⟨later, isMarked⟩ := marked_eq tokens
  rw [isMarked, List.take_length_add_append] at same
  have isOther : marked others =
      (ofTokens tokens).body ++ (ofTokens tokens).stop ::
        (marked others).drop ((ofTokens tokens).body.length + 1) :=
    calc
      marked others =
          (marked others).take ((ofTokens tokens).body.length + 1) ++
            (marked others).drop ((ofTokens tokens).body.length + 1) :=
        (List.take_append_drop _ _).symm
      _ = _ := by
        rw [same, List.append_assoc]
        rfl
  obtain ⟨rest, isBody, isStop⟩ := exists_of_marked isOther fun _ => kind_ne_endOfInput
  -- The token behind the others marks the end, so it is not one of those that are read.
  have noRest : rest = [] := by
    cases rest with
    | nil => rfl
    | cons first rest =>
        have isInside : first ∈ (ofTokens others).body := by
          rw [isBody]
          exact List.mem_append_right _ List.mem_cons_self
        have isEnd := (ofTokens tokens).isStop
        rw [← isStop] at isEnd
        exact (kind_ne_endOfInput isInside isEnd).elim
  rw [noRest, List.append_nil] at isBody
  rw [noRest, List.headD_nil] at isStop
  exact eq_of_body_eq isBody isStop

end TokenStream

namespace Cursor

/-- A program, read by places from tokens of which one marks the end of the input; the last
one is added if there is none there. -/
def program (steps : Nat) (tokens : List Token) : Reading (List Statement) :=
  statements steps .outermost (TokenStream.marked tokens) 0

/-- What reading gives when it comes to its end: what was read, or the report of the
fault. -/
def Ending.result? : Ending α → Option (Except Diagnostic α)
  | .done value _ => some (.ok value)
  | .refused fault token => some (.error (fault.locate token.span))
  | .exhausted => none
  | .outOfBounds => none

/-- That a place holds the first end-of-input token of a list. -/
structure IsFirstEnd (tokens : List Token) (last : Nat) : Prop where
  atEnd : ∃ stop, tokens[last]? = some stop ∧ stop.kind = .endOfInput
  notBefore : ∀ token ∈ tokens.take last, token.kind ≠ .endOfInput

/-- That reading never gets behind a place and never looks up a token out of bounds. -/
structure Reading.InBounds (reading : Reading α) (last : Nat) : Prop where
  places_le : ∀ place ∈ reading.places, place ≤ last
  ne_outOfBounds : reading.ending ≠ .outOfBounds

/-- That a way of reading stays in bounds wherever it starts, and has consumed at least one
token whenever it succeeds. -/
def Consumes (tokens : List Token) (last : Nat) (reader : Cursor α) : Prop :=
  ∀ current ≤ last, (reader tokens current).InBounds last ∧
    ∀ value reached, (reader tokens current).ending = .done value reached →
      current < reached ∧ reached ≤ last

namespace Ending.Agrees

variable {stream : TokenStream} {ending other : Ending α} {parsed : Parsed α}

/-- There is just one way to end like reading from the front of a list. -/
theorem unique
    (agrees : ending.Agrees stream parsed)
    (otherAgrees : other.Agrees stream parsed) :
    ending = other := by
  cases agrees with
  | @done current value inside =>
      generalize isRest : stream.body.drop current = rest at otherAgrees
      cases otherAgrees with
      | @done reached _ reachedInside =>
          have sameLength := congrArg List.length isRest
          rw [List.length_drop, List.length_drop] at sameLength
          have sameReached : current = reached := by omega
          rw [sameReached]
  | refused =>
      cases otherAgrees
      rfl
  | exhausted =>
      cases otherAgrees
      rfl

theorem result?_eq
    (agrees : ending.Agrees stream parsed)
    (finished : parsed ≠ .exhausted) :
    ending.result? = some (parsed.result finished) := by
  cases agrees with
  | done => rfl
  | refused => rfl
  | exhausted => exact (finished rfl).elim

theorem ne_outOfBounds (agrees : ending.Agrees stream parsed) : ending ≠ .outOfBounds := by
  cases agrees <;> nofun

end Ending.Agrees

theorem Reading.Follows.inBounds
    {stream : TokenStream}
    {reading : Reading α}
    {parsed : Parsed α}
    (follows : reading.Follows stream parsed) :
    reading.InBounds stream.body.length :=
  ⟨follows.inside, follows.agrees.ne_outOfBounds⟩

/-- What mirrors a way of reading that leaves fewer tokens consumes at least one. -/
theorem Mirrors.consumes
    {stream : TokenStream}
    {tokens : List Token}
    {reader : Cursor α}
    {parser : Parser α}
    (mirrors : Mirrors stream tokens reader parser)
    (shortens : ∀ {value tokens rest},
      parser stream.stop tokens = .done value rest → rest.length < tokens.length) :
    Consumes tokens stream.body.length reader := by
  intro current inside
  have follows := mirrors current inside
  refine ⟨follows.inBounds, ?_⟩
  intro value reached isDone
  have agrees := follows.agrees
  rw [isDone] at agrees
  generalize isParsed : parser stream.stop (stream.body.drop current) = parsed at agrees
  cases agrees with
  | done isInside =>
      have shorter := shortens isParsed
      rw [List.length_drop, List.length_drop] at shorter
      exact ⟨by omega, isInside⟩

/-- The first end-of-input token of a list is where its stream ends. -/
theorem isFirstEnd_of_begins
    {stream : TokenStream}
    {tokens : List Token}
    (begins : stream.Begins tokens) :
    IsFirstEnd tokens stream.body.length := by
  obtain ⟨noEnd, later, rfl⟩ := begins
  refine ⟨⟨stream.stop, ?_, stream.isStop⟩, ?_⟩
  · rw [List.getElem?_append_right (Nat.le_refl _), Nat.sub_self]
    rfl
  · rw [List.take_left]
    exact noEnd

/-- A program is read by places as it is read from the front of the list. -/
theorem program_follows (steps : Nat) (tokens : List Token) :
    (program steps tokens).Follows (.ofTokens tokens)
      (Parser.statements steps .outermost (TokenStream.ofTokens tokens).stop
        (TokenStream.ofTokens tokens).body) :=
  (statementsMirrored (TokenStream.begins_marked tokens) steps).statements .outermost 0
    (Nat.zero_le _)

/-- With enough steps reading by places gives the program or the report. -/
theorem program_result
    {steps : Nat}
    {tokens : List Token}
    (enough : (TokenStream.ofTokens tokens).steps ≤ steps) :
    (program steps tokens).ending.result? = some (parse tokens) := by
  have agrees := (program_follows steps tokens).agrees
  rw [TokenStream.parsed_eq_of_le enough] at agrees
  exact agrees.result?_eq _

/-- Declarations, statements and expressions have tokens of their own. -/
theorem consumes_parts
    {stream : TokenStream}
    {tokens : List Token}
    (begins : stream.Begins tokens)
    (steps : Nat)
    (around : Surroundings) :
    Consumes tokens stream.body.length (declaration steps around) ∧
      Consumes tokens stream.body.length (statement steps around) ∧
      Consumes tokens stream.body.length (expression steps) := by
  have mirrored := statementsMirrored begins steps
  refine ⟨(mirrored.declaration around).consumes ?_, (mirrored.statement around).consumes ?_,
    (expressionsMirrored begins steps).expression.consumes ?_⟩
  · intro result front rest parsed
    exact (StatementPart.readFrom_of_parsedBy stream.isStop (.declaration around result)
      parsed).length_lt rfl
  · intro result front rest parsed
    exact (StatementPart.readFrom_of_parsedBy stream.isStop (.statement around result)
      parsed).length_lt rfl
  · intro result front rest parsed
    exact (ExpressionPart.readFrom_of_parsedBy stream.isStop (.expression result)
      parsed).length_lt rfl

/-- Tokens of the same stream are read the same. -/
theorem program_congr
    {tokens others : List Token}
    (sameStream : TokenStream.ofTokens others = .ofTokens tokens) :
    parse others = parse tokens ∧
      ∀ steps, (program steps others).ending = (program steps tokens).ending := by
  constructor
  · exact congrArg (fun stream => stream.parsed.result stream.parsed_ne_exhausted) sameStream
  · intro steps
    have otherFollows := program_follows steps others
    rw [sameStream] at otherFollows
    exact otherFollows.agrees.unique (program_follows steps tokens).agrees

/-- Reading any tokens as a program comes to an end, within the first end-of-input token.
However many steps are allowed, no place behind it is looked at or moved to, and no token is
looked up out of bounds; with enough steps the result is the program or the report of these
tokens.  Wherever a declaration, a statement or an expression is read on the way, at least
one token is consumed.  Other tokens that are the same up to the first end-of-input token
are read the same. -/
theorem program_inBounds (tokens : List Token) :
    ∃ last, IsFirstEnd (TokenStream.marked tokens) last ∧
      (∀ steps, (program steps tokens).InBounds last) ∧
      (∀ steps, 13 * (last + 1) ≤ steps →
        (program steps tokens).ending.result? = some (parse tokens)) ∧
      (∀ steps around,
        Consumes (TokenStream.marked tokens) last (declaration steps around) ∧
        Consumes (TokenStream.marked tokens) last (statement steps around) ∧
        Consumes (TokenStream.marked tokens) last (expression steps)) ∧
      ∀ others,
        (TokenStream.marked others).take (last + 1) =
          (TokenStream.marked tokens).take (last + 1) →
        parse others = parse tokens ∧
          ∀ steps, (program steps others).ending = (program steps tokens).ending := by
  have begins := TokenStream.begins_marked tokens
  refine ⟨(TokenStream.ofTokens tokens).body.length, isFirstEnd_of_begins begins, ?_, ?_, ?_, ?_⟩
  · intro steps
    exact (program_follows steps tokens).inBounds
  · intro steps enough
    exact program_result enough
  · exact consumes_parts begins
  · intro others same
    exact program_congr (TokenStream.ofTokens_congr same)

/-- What stands behind the first end-of-input token is never looked at. -/
example :
    (program 26 [⟨.identifier, "a", default⟩, ⟨.endOfInput, "", default⟩,
      ⟨.leftBrace, "\x7b", default⟩]).places.max? = some 1 := by
  decide

end Cursor

end Scriptlet
