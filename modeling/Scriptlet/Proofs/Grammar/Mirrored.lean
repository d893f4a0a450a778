import Scriptlet.Proofs.Grammar.Cursor
import Scriptlet.Proofs.Grammar.FirstFault

namespace Scriptlet

/-!
# Reading by places stays in front of the end of the input

Reading by places and reading from the front of a list do the same, as long as the place of
the next token is not behind the first end-of-input token: the tokens in front of this one
that are not yet passed are the list that is left.  This module says so of every function of
the grammar, and that none of them ever looks at or moves to a place behind that token.
-/

/-- That a list of tokens begins with those of a stream and the one that ends it. -/
structure TokenStream.Begins (stream : TokenStream) (tokens : List Token) : Prop where
  noEnd : ∀ token ∈ stream.body, token.kind ≠ .endOfInput
  begins : ∃ later, tokens = stream.body ++ stream.stop :: later

namespace Parser

variable {stop : Token} (isStop : stop.kind = .endOfInput)

include isStop

/-- Line breaks are skipped one after the other. -/
theorem skipNewlines_eq_accept (tokens : List Token) :
    skipNewlines stop tokens =
      (accept .newline stop tokens).andThen fun accepted later =>
        if accepted then skipNewlines stop later else .done () later := by
  rcases accept_cases isStop .newline nofun tokens with
    ⟨token, later, rfl, isBreak, isAccepted⟩ | ⟨notBreak, isAccepted⟩
  · rw [isAccepted, skipNewlines_eq, skipBreaks_cons_of_eq isBreak]
    rfl
  · rw [isAccepted, skipNewlines_eq, skipBreaks_of_ne notBreak]
    rfl

/-- A line break in front of a branch is skipped. -/
theorem skipNewlineBeforeBranch_eq_peek (tokens : List Token) :
    skipNewlineBeforeBranch stop tokens =
      (peekKind stop tokens).andThen fun kind rest =>
        if kind = .newline then
          (Parsed.done (rest.tail.headD stop) rest).andThen fun next rest =>
            if next.kind = .elifKeyword ∨ next.kind = .elseKeyword then
              (advance stop rest).andThen fun _ final => .done () final
            else
              .done () rest
        else
          .done () rest := by
  cases tokens with
  | nil => simp [skipNewlineBeforeBranch, isStop]
  | cons first later =>
      cases later with
      | nil => simp [skipNewlineBeforeBranch, isStop]
      | cons second rest =>
          by_cases isBreak : first.kind = .newline
          · simp [skipNewlineBeforeBranch, isBreak]
          · simp [skipNewlineBeforeBranch, isBreak]

/-- Names are read one after the other. -/
theorem parameterNames_eq_expect (tokens : List Token) :
    parameterNames stop tokens =
      (expect .identifier stop tokens).andThen fun name later =>
        (accept .comma stop later).andThen fun accepted rest =>
          if accepted then
            (parameterNames stop rest).andThen fun names final =>
              .done (name.lexeme :: names) final
          else
            .done [name.lexeme] rest := by
  cases tokens with
  | nil => simp [parameterNames, expect, isStop]
  | cons name later =>
      by_cases isName : name.kind = .identifier
      · rw [expect_cons isName]
        cases later with
        | nil => simp [parameterNames, accept, isName, isStop]
        | cons separator rest =>
            by_cases isComma : separator.kind = .comma
            · simp [parameterNames, accept, isName, isComma]
            · simp [parameterNames, accept, isName, isComma]
      · unfold parameterNames
        simp [expect, isName]

end Parser

namespace Cursor

/-! ## What is mirrored -/

/-- That reading by places ends like reading from the front of a list. -/
inductive Ending.Agrees (stream : TokenStream) : Ending α → Parsed α → Prop where
  | done
      (inside : current ≤ stream.body.length) :
      Agrees stream (.done value current) (.done value (stream.body.drop current))
  | refused :
      Agrees stream (.refused fault token) (.refused fault token)
  | exhausted :
      Agrees stream .exhausted .exhausted

/-- That reading by places ends like reading from the front of a list, without any place
behind the first end-of-input token. -/
structure Reading.Follows
    (stream : TokenStream)
    (reading : Reading α)
    (parsed : Parsed α) :
    Prop where
  agrees : reading.ending.Agrees stream parsed
  inside : ∀ place ∈ reading.places, place ≤ stream.body.length

/-- That a way of reading by places mirrors a way of reading from the front of a list,
wherever it starts up to the first end-of-input token. -/
def Mirrors
    (stream : TokenStream)
    (tokens : List Token)
    (reader : Cursor α)
    (parser : Parser α) :
    Prop :=
  ∀ current ≤ stream.body.length,
    (reader tokens current).Follows stream
      (parser stream.stop (stream.body.drop current))

/-- Going on behind what was read, from where that has left off. -/
theorem Reading.Follows.andThen
    {stream : TokenStream}
    {reading : Reading α}
    {parsed : Parsed α}
    {next : α → Nat → Reading β}
    {continue' : α → List Token → Parsed β}
    (first : reading.Follows stream parsed)
    (goesOn : ∀ value current, current ≤ stream.body.length →
      parsed = .done value (stream.body.drop current) →
      (next value current).Follows stream (continue' value (stream.body.drop current))) :
    (reading.andThen next).Follows stream (parsed.andThen continue') := by
  obtain ⟨ending, places⟩ := reading
  obtain ⟨agrees, inside⟩ := first
  cases agrees with
  | done isInside =>
      have later := goesOn _ _ isInside rfl
      exact ⟨later.agrees, List.forall_mem_append.mpr ⟨inside, later.inside⟩⟩
  | refused => exact ⟨.refused, inside⟩
  | exhausted => exact ⟨.exhausted, inside⟩

namespace Mirrors

variable {stream : TokenStream} {tokens : List Token}

theorem pure (value : α) :
    Mirrors stream tokens (pure value) (pure value) :=
  fun _ inside => ⟨.done inside, List.forall_mem_nil _⟩

theorem exhausted : Mirrors stream tokens (exhausted : Cursor α) Parser.exhausted :=
  fun _ _ => ⟨.exhausted, List.forall_mem_nil _⟩

theorem refuse (fault : SyntaxFault) (token : Token) :
    Mirrors stream tokens (refuse fault token : Cursor α) (Parser.refuse fault token) :=
  fun _ _ => ⟨.refused, List.forall_mem_nil _⟩

theorem bind
    {reader : Cursor α}
    {parser : Parser α}
    {next : α → Cursor β}
    {continue' : α → Parser β}
    (first : Mirrors stream tokens reader parser)
    (goesOn : ∀ value, Mirrors stream tokens (next value) (continue' value)) :
    Mirrors stream tokens (reader >>= next) (parser >>= continue') := by
  intro current inside
  apply (first current inside).andThen
  intro value reached isInside _
  exact goesOn value reached isInside

theorem ite
    {condition : Prop}
    [Decidable condition]
    {reader otherwise : Cursor α}
    {parser alternative : Parser α}
    (holds : Mirrors stream tokens reader parser)
    (fails : Mirrors stream tokens otherwise alternative) :
    Mirrors stream tokens (if condition then reader else otherwise)
      (if condition then parser else alternative) := by
  split
  · exact holds
  · exact fails

theorem foundAt (token : Token) (found : Except SyntaxFault α) :
    Mirrors stream tokens (foundAt token found) (Parser.foundAt token found) := by
  cases found with
  | ok value => exact .pure value
  | error fault => exact .refuse fault token

theorem allowed (condition : Bool) (fault : SyntaxFault) (token : Token) :
    Mirrors stream tokens (allowed condition fault token)
      (Parser.allowed condition fault token) :=
  .ite (.pure ()) (.refuse fault token)

end Mirrors

/-! ## Single tokens -/

/-- Reading that leaves fewer tokens has moved on. -/
theorem lt_of_within
    {stream : TokenStream}
    {parsed : Parsed α}
    {value : α}
    {current reached : Nat}
    (within : parsed.Within (stream.body.drop current).length)
    (isDone : parsed = .done value (stream.body.drop reached)) :
    current < reached := by
  rw [isDone, Parsed.within_done, List.length_drop, List.length_drop] at within
  omega

/-- Reading that accepts a token has moved on. -/
theorem lt_of_accept
    {stream : TokenStream}
    {kind : TokenKind}
    {current reached : Nat}
    (notEnd : kind ≠ .endOfInput)
    (isAccepted : Parser.accept kind stream.stop (stream.body.drop current) =
      .done true (stream.body.drop reached)) :
    current < reached := by
  apply lt_of_within _ isAccepted
  rcases Parser.accept_cases stream.isStop kind notEnd (stream.body.drop current) with
    ⟨token, rest, isRest, _, accepted⟩ | ⟨_, refused⟩
  · rw [accepted, isRest]
    exact Nat.lt_succ_self _
  · rw [isAccepted] at refused
    cases refused

section

variable {stream : TokenStream} {tokens : List Token} (begins : stream.Begins tokens)

include begins

/-- The token at a place is the one at the front of what is left. -/
theorem getElem?_of_begins
    {current : Nat}
    (inside : current ≤ stream.body.length) :
    tokens[current]? = some ((stream.body.drop current).headD stream.stop) := by
  obtain ⟨later, isTokens⟩ := begins.begins
  rw [List.headD_eq_head?_getD, List.head?_drop]
  rcases Nat.lt_or_eq_of_le inside with isBefore | rfl
  · rw [isTokens, List.getElem?_append_left isBefore, List.getElem?_eq_getElem isBefore]
    rfl
  · rw [isTokens, List.getElem?_append_right (Nat.le_refl _), Nat.sub_self,
      List.getElem?_eq_none (Nat.le_refl _)]
    rfl

namespace Mirrors

theorem peek : Mirrors stream tokens peek Parser.peek := by
  intro current inside
  rw [Cursor.peek, getElem?_of_begins begins inside]
  exact ⟨.done inside, List.forall_mem_singleton.mpr inside⟩

theorem peekKind : Mirrors stream tokens peekKind Parser.peekKind := by
  have isPeek : Parser.peekKind = Parser.peek >>= fun token => Pure.pure token.kind :=
    rfl
  rw [isPeek]
  exact (peek begins).bind fun token => .pure token.kind

/-- The token that ends the input is never passed. -/
theorem advance : Mirrors stream tokens advance Parser.advance := by
  intro current inside
  have isNext := getElem?_of_begins begins inside
  rcases Nat.lt_or_eq_of_le inside with isBefore | rfl
  · rw [List.drop_eq_getElem_cons isBefore, List.headD_cons] at isNext
    have notEnd := begins.noEnd _ (List.getElem_mem isBefore)
    have isReading : Cursor.advance tokens current =
        ⟨.done stream.body[current] (current + 1), [current, current + 1]⟩ := by
      simp [Cursor.advance, Cursor.peek, Cursor.move, isNext, notEnd]
    rw [isReading, List.drop_eq_getElem_cons isBefore]
    refine ⟨.done isBefore, ?_⟩
    simpa using ⟨inside, isBefore⟩
  · rw [List.drop_length, List.headD_nil] at isNext
    have isReading : Cursor.advance tokens stream.body.length =
        ⟨.done stream.stop stream.body.length, [stream.body.length]⟩ := by
      simp [Cursor.advance, Cursor.peek, isNext, stream.isStop]
    have isParsed : Parser.advance stream.stop (stream.body.drop stream.body.length) =
        .done stream.stop (stream.body.drop stream.body.length) := by
      rw [List.drop_length]
      rfl
    rw [isReading, isParsed]
    exact ⟨.done inside, List.forall_mem_singleton.mpr inside⟩

theorem expect (expected : TokenKind) :
    Mirrors stream tokens (expect expected) (Parser.expect expected) := by
  have isExpect : Parser.expect expected = (do
      let found ← Parser.peek
      if found.kind = expected then
        Parser.advance
      else
        Parser.refuse (.expectedToken expected found.kind) found) := by
    funext stop rest
    simp only [Parser.expect, Parser.bind_apply, Parser.peek_apply, Parsed.done_andThen]
    split <;> rfl
  rw [isExpect]
  exact (peek begins).bind fun found => .ite (advance begins) (.refuse _ found)

theorem accept (expected : TokenKind) :
    Mirrors stream tokens (accept expected) (Parser.accept expected) := by
  have isAccept : Parser.accept expected = (do
      if (← Parser.peekKind) = expected then
        let _ ← Parser.advance
        Pure.pure true
      else
        Pure.pure false) := by
    funext stop rest
    simp only [Parser.accept, Parser.bind_apply, Parser.peekKind_apply, Parsed.done_andThen]
    split <;> rfl
  rw [isAccept]
  exact (peekKind begins).bind fun kind =>
    .ite ((advance begins).bind fun _ => .pure true) (.pure false)

end Mirrors

/-! ## Runs of tokens -/

/-- With a round for every token that is left, all line breaks are skipped. -/
theorem follows_skipNewlinesUpTo
    {rounds current : Nat}
    (inside : current ≤ stream.body.length)
    (enough : stream.body.length - current < rounds) :
    (skipNewlinesUpTo rounds tokens current).Follows stream
      (Parser.skipNewlines stream.stop (stream.body.drop current)) := by
  induction rounds generalizing current with
  | zero => cases enough
  | succ rounds inductionHypothesis =>
      rw [Parser.skipNewlines_eq_accept stream.isStop]
      apply (Mirrors.accept begins .newline current inside).andThen
      intro accepted reached isInside isAccepted
      cases accepted with
      | false => exact ⟨.done isInside, List.forall_mem_nil _⟩
      | true =>
          have isBehind := lt_of_accept (by decide) isAccepted
          exact inductionHypothesis isInside (by omega)

/-- With a round for every token that is left, all names are read. -/
theorem follows_parameterNamesUpTo
    {rounds current : Nat}
    (inside : current ≤ stream.body.length)
    (enough : stream.body.length - current < rounds) :
    (parameterNamesUpTo rounds tokens current).Follows stream
      (Parser.parameterNames stream.stop (stream.body.drop current)) := by
  induction rounds generalizing current with
  | zero => cases enough
  | succ rounds inductionHypothesis =>
      rw [Parser.parameterNames_eq_expect stream.isStop]
      apply (Mirrors.expect begins .identifier current inside).andThen
      intro name behindName nameInside isName
      apply (Mirrors.accept begins .comma behindName nameInside).andThen
      intro accepted reached isInside isAccepted
      cases accepted with
      | false => exact ⟨.done isInside, List.forall_mem_nil _⟩
      | true =>
          have nameBehind := lt_of_within
            (Parser.expect_within stream.isStop (by decide)) isName
          have isBehind := lt_of_accept (by decide) isAccepted
          have others := inductionHypothesis isInside (by omega)
          exact others.andThen fun names final finalInside _ =>
            ⟨.done finalInside, List.forall_mem_nil _⟩

/-- There is a round for every token in front of the first end-of-input token. -/
theorem length_lt_of_begins : stream.body.length < tokens.length := by
  obtain ⟨later, isTokens⟩ := begins.begins
  rw [isTokens, List.length_append, List.length_cons]
  omega

/-- In front of the token that ends the input there is another one behind the next one. -/
theorem follows_peekNext
    {current : Nat}
    (isBefore : current < stream.body.length) :
    (peekNext tokens current).Follows stream
      (.done ((stream.body.drop current).tail.headD stream.stop)
        (stream.body.drop current)) := by
  rw [List.tail_drop, peekNext, getElem?_of_begins begins isBefore]
  exact ⟨.done (Nat.le_of_lt isBefore), List.forall_mem_singleton.mpr isBefore⟩

namespace Mirrors

theorem skipNewlines : Mirrors stream tokens skipNewlines Parser.skipNewlines := by
  intro current inside
  have enough := length_lt_of_begins begins
  exact follows_skipNewlinesUpTo begins inside (by omega)

theorem parameterNames : Mirrors stream tokens parameterNames Parser.parameterNames := by
  intro current inside
  have enough := length_lt_of_begins begins
  exact follows_parameterNamesUpTo begins inside (by omega)

/-- The token behind the next one is looked at only if the next one is a line break, which
does not end the input. -/
theorem skipNewlineBeforeBranch :
    Mirrors stream tokens skipNewlineBeforeBranch Parser.skipNewlineBeforeBranch := by
  intro current inside
  rw [Parser.skipNewlineBeforeBranch_eq_peek stream.isStop]
  apply (peekKind begins current inside).andThen
  intro kind reached isInside isKind
  by_cases isBreak : kind = .newline
  · have isBefore : reached < stream.body.length := by
      rw [Parser.peekKind_apply] at isKind
      obtain ⟨isHead, isRest⟩ := Parsed.done_eq_done isKind
      apply Nat.lt_of_le_of_ne isInside
      rintro rfl
      rw [isRest, List.drop_length, List.headD_nil, stream.isStop, isBreak] at isHead
      cases isHead
    simp only [if_pos isBreak, bind_apply]
    apply (follows_peekNext begins isBefore).andThen
    intro next place isPlace _
    by_cases isBranch : next.kind = .elifKeyword ∨ next.kind = .elseKeyword
    · simp only [if_pos isBranch, bind_apply]
      exact (advance begins place isPlace).andThen fun _ _ finalInside _ =>
        ⟨.done finalInside, List.forall_mem_nil _⟩
    · simp only [if_neg isBranch]
      exact ⟨.done isPlace, List.forall_mem_nil _⟩
  · simp only [if_neg isBreak]
    exact ⟨.done isInside, List.forall_mem_nil _⟩

/-! ## Parts that need no recursion -/

theorem terminate (surroundings : Surroundings) :
    Mirrors stream tokens (terminate surroundings) (Parser.terminate surroundings) :=
  (peek begins).bind fun token =>
    .ite ((advance begins).bind fun _ => .pure ())
      (.ite (.pure ()) (.refuse _ token))

theorem parameters : Mirrors stream tokens parameters Parser.parameters := by
  apply (expect begins .leftParen).bind
  intro _
  apply (peekKind begins).bind
  intro kind
  apply ite
  · exact (advance begins).bind fun _ => .pure []
  · apply (parameterNames begins).bind
    intro names
    exact (expect begins .rightParen).bind fun _ => .pure names

end Mirrors

end

/-! ## Expressions -/

/-- That all functions for expressions are mirrored, with some number of steps. -/
structure ExpressionsMirrored (stream : TokenStream) (tokens : List Token) (fuel : Nat) :
    Prop where
  expression : Mirrors stream tokens (expression fuel) (Parser.expression fuel)
  operation : ∀ level,
    Mirrors stream tokens (operation fuel level) (Parser.operation fuel level)
  operationTail : ∀ level left,
    Mirrors stream tokens (operationTail fuel level left)
      (Parser.operationTail fuel level left)
  unary : Mirrors stream tokens (unary fuel) (Parser.unary fuel)
  callTail : ∀ callee,
    Mirrors stream tokens (callTail fuel callee) (Parser.callTail fuel callee)
  arguments : Mirrors stream tokens (arguments fuel) (Parser.arguments fuel)
  argumentList : Mirrors stream tokens (argumentList fuel) (Parser.argumentList fuel)
  primary : Mirrors stream tokens (primary fuel) (Parser.primary fuel)

namespace ExpressionsMirrored

variable {stream : TokenStream} {tokens : List Token} {fuel : Nat}

theorem expression_succ
    (below : ExpressionsMirrored stream tokens fuel)
    (begins : stream.Begins tokens) :
    Mirrors stream tokens (Cursor.expression (fuel + 1))
      (Parser.expression (fuel + 1)) := by
  rw [Cursor.expression, Parser.expression]
  apply (below.operation 1).bind
  intro target
  apply (Mirrors.peekKind begins).bind
  intro kind
  apply Mirrors.ite
  · cases target with
    | reference name span =>
        apply (Mirrors.advance begins).bind
        intro _
        exact below.expression.bind fun value => .pure _
    | getAttribute object name span =>
        apply (Mirrors.advance begins).bind
        intro _
        exact below.expression.bind fun value => .pure _
    | _ => exact .pure _
  · exact .pure target

theorem operation_succ
    (below : ExpressionsMirrored stream tokens fuel)
    (level : Nat) :
    Mirrors stream tokens (Cursor.operation (fuel + 1) level)
      (Parser.operation (fuel + 1) level) := by
  rw [Cursor.operation, Parser.operation]
  apply Mirrors.ite
  · apply (below.operation (level + 1)).bind
    intro first
    exact below.operationTail level first
  · exact below.unary

theorem operationTail_succ
    (below : ExpressionsMirrored stream tokens fuel)
    (begins : stream.Begins tokens)
    (level : Nat)
    (left : Expression) :
    Mirrors stream tokens (Cursor.operationTail (fuel + 1) level left)
      (Parser.operationTail (fuel + 1) level left) := by
  rw [Cursor.operationTail, Parser.operationTail]
  apply (Mirrors.peekKind begins).bind
  intro kind
  apply Mirrors.ite
  · apply (Mirrors.advance begins).bind
    intro operator
    apply (below.operation (level + 1)).bind
    intro right
    exact below.operationTail level (left.combine operator right)
  · exact .pure left

theorem unary_succ
    (below : ExpressionsMirrored stream tokens fuel)
    (begins : stream.Begins tokens) :
    Mirrors stream tokens (Cursor.unary (fuel + 1)) (Parser.unary (fuel + 1)) := by
  rw [Cursor.unary, Parser.unary]
  apply (Mirrors.peekKind begins).bind
  intro kind
  apply Mirrors.ite
  · apply (Mirrors.advance begins).bind
    intro operator
    exact below.unary.bind fun operand => .pure _
  · exact below.primary.bind fun callee => below.callTail callee

theorem callTail_succ
    (below : ExpressionsMirrored stream tokens fuel)
    (begins : stream.Begins tokens)
    (callee : Expression) :
    Mirrors stream tokens (Cursor.callTail (fuel + 1) callee)
      (Parser.callTail (fuel + 1) callee) := by
  rw [Cursor.callTail, Parser.callTail]
  apply (Mirrors.accept begins .dot).bind
  intro isDot
  apply Mirrors.ite
  · apply (Mirrors.expect begins .identifier).bind
    intro name
    exact below.callTail _
  · apply (Mirrors.accept begins .leftParen).bind
    intro isCall
    apply Mirrors.ite
    · apply below.arguments.bind
      intro given
      apply (Mirrors.expect begins .rightParen).bind
      intro closing
      exact below.callTail _
    · exact .pure callee

theorem arguments_succ
    (below : ExpressionsMirrored stream tokens fuel)
    (begins : stream.Begins tokens) :
    Mirrors stream tokens (Cursor.arguments (fuel + 1)) (Parser.arguments (fuel + 1)) := by
  rw [Cursor.arguments, Parser.arguments]
  apply (Mirrors.peekKind begins).bind
  intro kind
  exact .ite (.pure []) below.argumentList

theorem argumentList_succ
    (below : ExpressionsMirrored stream tokens fuel)
    (begins : stream.Begins tokens) :
    Mirrors stream tokens (Cursor.argumentList (fuel + 1))
      (Parser.argumentList (fuel + 1)) := by
  rw [Cursor.argumentList, Parser.argumentList]
  apply below.expression.bind
  intro first
  apply (Mirrors.accept begins .comma).bind
  intro isFurther
  apply Mirrors.ite
  · exact below.argumentList.bind fun rest => .pure (first :: rest)
  · exact .pure [first]

theorem primary_succ
    (below : ExpressionsMirrored stream tokens fuel)
    (begins : stream.Begins tokens) :
    Mirrors stream tokens (Cursor.primary (fuel + 1)) (Parser.primary (fuel + 1)) := by
  rw [Cursor.primary, Parser.primary]
  apply (Mirrors.advance begins).bind
  intro token
  apply Mirrors.ite
  · apply below.expression.bind
    intro inner
    exact (Mirrors.expect begins .rightParen).bind fun closing => .pure _
  · exact .foundAt token (Parser.atom token)

end ExpressionsMirrored

/-- All functions for expressions are mirrored. -/
theorem expressionsMirrored
    {stream : TokenStream}
    {tokens : List Token}
    (begins : stream.Begins tokens)
    (fuel : Nat) :
    ExpressionsMirrored stream tokens fuel := by
  induction fuel with
  | zero =>
      exact ⟨.exhausted, fun _ => .exhausted, fun _ _ => .exhausted, .exhausted,
        fun _ => .exhausted, .exhausted, .exhausted, .exhausted⟩
  | succ fuel below =>
      exact
        { expression := below.expression_succ begins
          operation := below.operation_succ
          operationTail := below.operationTail_succ begins
          unary := below.unary_succ begins
          callTail := below.callTail_succ begins
          arguments := below.arguments_succ begins
          argumentList := below.argumentList_succ begins
          primary := below.primary_succ begins }

/-! ## Statements -/

section

variable {stream : TokenStream} {tokens : List Token} (begins : stream.Begins tokens)

include begins

namespace Mirrors

theorem variableDeclaration (fuel : Nat) :
    Mirrors stream tokens (variableDeclaration fuel) (Parser.variableDeclaration fuel) := by
  apply (advance begins).bind
  intro keyword
  apply (expect begins .identifier).bind
  intro name
  apply (expect begins .equal).bind
  intro _
  exact (expressionsMirrored begins fuel).expression.bind fun initializer => .pure _

theorem returnStatement (fuel : Nat) (surroundings : Surroundings) :
    Mirrors stream tokens (returnStatement fuel surroundings)
      (Parser.returnStatement fuel surroundings) := by
  apply (advance begins).bind
  intro keyword
  apply (allowed surroundings.inFunction .returnOutsideFunction keyword).bind
  intro _
  apply (peekKind begins).bind
  intro kind
  apply ite
  · exact .pure _
  · exact (expressionsMirrored begins fuel).expression.bind fun value => .pure _

/-- A jump, which stands alone. -/
theorem jump (condition : Bool) (fault : SyntaxFault) (result : Token → Statement) :
    Mirrors stream tokens
      (do
        let keyword ← Cursor.advance
        Cursor.allowed condition fault keyword
        Pure.pure (result keyword))
      (do
        let keyword ← Parser.advance
        Parser.allowed condition fault keyword
        Pure.pure (result keyword)) := by
  apply (advance begins).bind
  intro keyword
  exact (allowed condition fault keyword).bind fun _ => .pure _

end Mirrors

end

/-- That all functions for statements are mirrored, with some number of steps. -/
structure StatementsMirrored (stream : TokenStream) (tokens : List Token) (fuel : Nat) :
    Prop where
  declaration : ∀ around,
    Mirrors stream tokens (declaration fuel around) (Parser.declaration fuel around)
  statement : ∀ around,
    Mirrors stream tokens (statement fuel around) (Parser.statement fuel around)
  branches : ∀ around,
    Mirrors stream tokens (branches fuel around) (Parser.branches fuel around)
  block : ∀ around,
    Mirrors stream tokens (block fuel around) (Parser.block fuel around)
  statements : ∀ around,
    Mirrors stream tokens (statements fuel around) (Parser.statements fuel around)

namespace StatementsMirrored

variable {stream : TokenStream} {tokens : List Token} {fuel : Nat}

theorem declaration_succ
    (below : StatementsMirrored stream tokens fuel)
    (begins : stream.Begins tokens)
    (around : Surroundings) :
    Mirrors stream tokens (Cursor.declaration (fuel + 1) around)
      (Parser.declaration (fuel + 1) around) := by
  rw [Cursor.declaration, Parser.declaration]
  apply (Mirrors.peekKind begins).bind
  intro kind
  apply Mirrors.ite
  · exact .variableDeclaration begins fuel
  apply Mirrors.ite
  · apply (Mirrors.advance begins).bind
    intro keyword
    apply (Mirrors.expect begins .identifier).bind
    intro name
    apply (Mirrors.parameters begins).bind
    intro names
    exact (below.block around.insideFunction).bind fun body => .pure _
  · exact below.statement around

theorem statement_succ
    (below : StatementsMirrored stream tokens fuel)
    (begins : stream.Begins tokens)
    (around : Surroundings) :
    Mirrors stream tokens (Cursor.statement (fuel + 1) around)
      (Parser.statement (fuel + 1) around) := by
  have expressionMirrored := (expressionsMirrored begins fuel).expression
  rw [Cursor.statement, Parser.statement]
  apply (Mirrors.peekKind begins).bind
  intro kind
  apply Mirrors.ite
  · exact (below.block around).bind fun body => .pure _
  apply Mirrors.ite
  · apply (Mirrors.advance begins).bind
    intro keyword
    apply expressionMirrored.bind
    intro condition
    exact (below.statement around.insideLoop).bind fun body => .pure _
  apply Mirrors.ite
  · apply (Mirrors.advance begins).bind
    intro keyword
    apply expressionMirrored.bind
    intro condition
    apply (below.statement around).bind
    intro body
    exact (below.branches around).bind fun more => .pure _
  apply Mirrors.ite
  · exact .jump begins around.inLoop .breakOutsideLoop fun keyword =>
      .breakLoop keyword.span
  apply Mirrors.ite
  · exact .jump begins around.inLoop .continueOutsideLoop fun keyword =>
      .continueLoop keyword.span
  apply Mirrors.ite
  · exact .returnStatement begins fuel around
  · exact expressionMirrored.bind fun inner => .pure _

theorem branches_succ
    (below : StatementsMirrored stream tokens fuel)
    (begins : stream.Begins tokens)
    (around : Surroundings) :
    Mirrors stream tokens (Cursor.branches (fuel + 1) around)
      (Parser.branches (fuel + 1) around) := by
  rw [Cursor.branches, Parser.branches]
  apply (Mirrors.skipNewlineBeforeBranch begins).bind
  intro _
  apply (Mirrors.accept begins .elifKeyword).bind
  intro isElif
  apply Mirrors.ite
  · apply (expressionsMirrored begins fuel).expression.bind
    intro condition
    apply (below.statement around).bind
    intro body
    exact (below.branches around).bind fun more => .pure _
  · apply (Mirrors.accept begins .elseKeyword).bind
    intro isElse
    apply Mirrors.ite
    · exact (below.statement around).bind fun body => .pure _
    · exact .pure _

theorem block_succ
    (below : StatementsMirrored stream tokens fuel)
    (begins : stream.Begins tokens)
    (around : Surroundings) :
    Mirrors stream tokens (Cursor.block (fuel + 1) around)
      (Parser.block (fuel + 1) around) := by
  rw [Cursor.block, Parser.block]
  apply (Mirrors.expect begins .leftBrace).bind
  intro opening
  apply (below.statements around.insideBlock).bind
  intro body
  exact (Mirrors.expect begins .rightBrace).bind fun closing => .pure _

theorem statements_succ
    (below : StatementsMirrored stream tokens fuel)
    (begins : stream.Begins tokens)
    (around : Surroundings) :
    Mirrors stream tokens (Cursor.statements (fuel + 1) around)
      (Parser.statements (fuel + 1) around) := by
  rw [Cursor.statements, Parser.statements]
  apply (Mirrors.skipNewlines begins).bind
  intro _
  apply (Mirrors.peekKind begins).bind
  intro kind
  apply Mirrors.ite
  · exact .pure []
  · apply (below.declaration around).bind
    intro first
    apply (Mirrors.terminate begins around).bind
    intro _
    exact (below.statements around).bind fun rest => .pure (first :: rest)

end StatementsMirrored

/-- All functions for statements are mirrored. -/
theorem statementsMirrored
    {stream : TokenStream}
    {tokens : List Token}
    (begins : stream.Begins tokens)
    (fuel : Nat) :
    StatementsMirrored stream tokens fuel := by
  induction fuel with
  | zero =>
      exact ⟨fun _ => .exhausted, fun _ => .exhausted, fun _ => .exhausted,
        fun _ => .exhausted, fun _ => .exhausted⟩
  | succ fuel below =>
      exact
        { declaration := below.declaration_succ begins
          statement := below.statement_succ begins
          branches := below.branches_succ begins
          block := below.block_succ begins
          statements := below.statements_succ begins }

end Cursor

end Scriptlet
