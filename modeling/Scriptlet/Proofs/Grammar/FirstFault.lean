import Mathlib.Data.List.TakeWhile
import Scriptlet.Proofs.Grammar.PromptPrograms
import Scriptlet.Proofs.Grammar.Soundness

namespace Scriptlet

/-!
# Faults are reported at the first token that does not fit

Main statement: if tokens are refused as a program, then at a token such that all
tokens with the same beginning up to it are refused alike, and some tokens with the
same beginning before it are accepted.
-/

namespace TokenStream

/-- Tokens together with the one that marks the end of the input, which is added unless
the last token marks it already. -/
def marked (tokens : List Token) : List Token :=
  if tokens.getLast?.any fun last => last.kind = .endOfInput then
    tokens
  else
    tokens ++ [impliedStop tokens]

/-- The tokens that are read and the one that ends them stand at the front. -/
theorem marked_eq (tokens : List Token) :
    ∃ later, marked tokens =
      (ofTokens tokens).body ++ (ofTokens tokens).stop :: later := by
  cases found : tokens.find? fun token => token.kind = .endOfInput with
  | some stop =>
      obtain ⟨isStop, before, after, rfl, noneBefore⟩ :=
        List.find?_eq_some_iff_append.mp found
      have body : (ofTokens (before ++ stop :: after)).body = before := by
        simp only [ofTokens]
        rw [List.takeWhile_append_of_pos (by simpa using noneBefore),
          List.takeWhile_cons_of_neg (by simpa using isStop), List.append_nil]
      have isFound : (ofTokens (before ++ stop :: after)).stop = stop := by
        simp only [ofTokens, found, Option.getD_some]
      rw [body, isFound, marked]
      split
      · exact ⟨after, rfl⟩
      · exact ⟨after ++ [_], List.append_assoc _ _ _⟩
  | none =>
      have noneFound := List.find?_eq_none.mp found
      have body : (ofTokens tokens).body = tokens :=
        List.takeWhile_eq_self_iff.mpr (by simpa using noneFound)
      have implied : (ofTokens tokens).stop = impliedStop tokens := by
        simp only [ofTokens, found, Option.getD_none]
      have notMarked :
          ¬ tokens.getLast?.any fun last => last.kind = .endOfInput := by
        cases isLast : tokens.getLast? with
        | none => exact Bool.false_ne_true
        | some last => exact noneFound last (List.mem_of_getLast? isLast)
      rw [body, implied, marked, if_neg notMarked]
      exact ⟨[], rfl⟩

theorem marked_eq_append
    {tokens used rest : List Token}
    {token : Token}
    (isBody : (ofTokens tokens).body = used ++ rest)
    (isToken : rest.headD (ofTokens tokens).stop = token) :
    ∃ later, marked tokens = used ++ token :: later := by
  obtain ⟨after, isMarked⟩ := marked_eq tokens
  rw [isMarked, isBody, List.append_assoc]
  subst isToken
  cases rest with
  | nil => exact ⟨after, rfl⟩
  | cons first rest => exact ⟨_, rfl⟩

theorem take_marked
    {tokens : List Token}
    {count : Nat}
    (inside : count ≤ tokens.length) :
    (marked tokens).take count = tokens.take count := by
  unfold marked
  split
  · rfl
  · exact List.take_append_of_le_length inside

/-- Tokens at the front of which none marks the end of the input are the first ones of
those that are read. -/
theorem exists_of_marked
    {tokens used later : List Token}
    {token : Token}
    (isMarked : marked tokens = used ++ token :: later)
    (noEnd : ∀ earlier ∈ used, earlier.kind ≠ .endOfInput) :
    ∃ rest, (ofTokens tokens).body = used ++ rest ∧
      rest.headD (ofTokens tokens).stop = token := by
  obtain ⟨after, isStream⟩ := marked_eq tokens
  rw [isMarked] at isStream
  rcases List.append_eq_append_iff.mp isStream with
    ⟨rest, isBody, isRest⟩ | ⟨rest, isUsed, isRest⟩
  · refine ⟨rest, isBody, ?_⟩
    cases rest with
    | nil => exact (List.cons.inj isRest).1.symm
    | cons first rest => exact (List.cons.inj isRest).1.symm
  · cases rest with
    | nil =>
        rw [List.append_nil] at isUsed
        exact ⟨[], by rw [isUsed, List.append_nil], (List.cons.inj isRest).1⟩
    | cons first rest =>
        have isStop := (ofTokens tokens).isStop
        rw [(List.cons.inj isRest).1] at isStop
        exact (noEnd first (by simp [isUsed]) isStop).elim

end TokenStream

/-- A program that can be read has no token that marks the end of the input. -/
theorem StatementPart.ReadFrom.kind_ne_endOfInput
    {program : List Statement}
    {tokens : List Token}
    (reads : (StatementPart.statements .outermost program).ReadFrom tokens []) :
    ∀ token ∈ tokens, token.kind ≠ .endOfInput := by
  obtain ⟨used, isUsed, spells⟩ := reads.spelledBy
  rw [List.append_nil] at isUsed
  subst isUsed
  have noEnd := (Statement.noEnd_bodyWords .nil program reads.levelled).kind_ne_of_spells
    spells
  intro token member
  by_cases isBreak : token.kind = .newline
  · rw [isBreak]
    decide
  · exact noEnd token (List.mem_filter.mpr ⟨member, by simpa using isBreak⟩)

/-- Tokens that can be completed to a program are completed to one that is accepted. -/
theorem exists_parse_eq_ok
    {used : List Token}
    (begun : StatementPart.Begun (.statements .outermost) used) :
    ∃ added program, parse (used ++ added) = .ok program := by
  obtain ⟨added, reads⟩ := begun
  obtain ⟨program, read⟩ := reads []
  rw [List.append_nil] at read
  have noEnd := (read rfl).kind_ne_endOfInput
  have body : (TokenStream.ofTokens (used ++ added)).body = used ++ added :=
    List.takeWhile_eq_self_iff.mpr (by simpa using noEnd)
  exact ⟨added, program, parse_eq_ok_iff.mpr (body.symm ▸ read rfl)⟩

theorem Parsed.of_result_eq_error
    {parsed : Parsed α}
    {finished : parsed ≠ .exhausted}
    {diagnostic : Diagnostic}
    (isError : parsed.result finished = .error diagnostic) :
    ∃ fault token, parsed = .refused fault token ∧
      diagnostic = fault.locate token.span := by
  cases parsed with
  | done value rest => cases isError
  | exhausted => exact (finished rfl).elim
  | refused fault token =>
      cases isError
      exact ⟨fault, token, rfl, rfl⟩

theorem Parsed.result_eq_error
    {parsed : Parsed α}
    {fault : SyntaxFault}
    {token : Token}
    (isRefused : parsed = .refused fault token)
    (finished : parsed ≠ .exhausted) :
    parsed.result finished = .error (fault.locate token.span) := by
  subst isRefused
  rfl

/-- What a stream is read as is what reading comes to. -/
theorem TokenStream.settles (stream : TokenStream) :
    Parser.Settles (fun fuel => Parser.statements fuel .outermost) stream.stop
      stream.body stream.parsed :=
  .of_ne_exhausted stream.isStop (Parser.reader_statements .outermost)
    (fun _ => rfl)
    ((Parser.statementsPrompt stream.isStop stream.steps).statements .outermost
      stream.body)
    stream.parsed_ne_exhausted

/-- Tokens with the same beginning up to a token that reading is refused at are refused
there. -/
theorem parse_eq_error_of_refuses
    {used others : List Token}
    {fault : SyntaxFault}
    {token : Token}
    (refuses : Parser.Refuses (fun fuel => Parser.statements fuel .outermost) used fault
      token)
    (noEnd : ∀ earlier ∈ used, earlier.kind ≠ .endOfInput)
    (same : (TokenStream.marked others).take (used.length + 1) = used ++ [token]) :
    parse others = .error (fault.locate token.span) := by
  have isMarked : TokenStream.marked others =
      used ++ token :: (TokenStream.marked others).drop (used.length + 1) :=
    calc
      TokenStream.marked others =
          (TokenStream.marked others).take (used.length + 1) ++
            (TokenStream.marked others).drop (used.length + 1) :=
        (List.take_append_drop _ _).symm
      _ = used ++ token :: (TokenStream.marked others).drop (used.length + 1) := by
        rw [same, List.append_assoc]
        rfl
  obtain ⟨rest, isBody, isToken⟩ := TokenStream.exists_of_marked isMarked noEnd
  have settles := refuses _ rest (TokenStream.ofTokens others).isStop isToken
  rw [← isBody] at settles
  exact Parsed.result_eq_error ((TokenStream.ofTokens others).settles.unique settles) _

/-- If tokens are refused as a program, then at the first token that cannot be gone on
with.  The report is about that token; all tokens that have the same beginning up to it
are refused with the same report; and some tokens that have the same beginning before it
are accepted.  The token that marks the end of the input counts. -/
theorem parse_fails_promptly
    {tokens : List Token}
    {diagnostic : Diagnostic}
    (refused : parse tokens = .error diagnostic) :
    ∃ index token,
      (TokenStream.marked tokens)[index]? = some token ∧
      diagnostic.span = token.span ∧
      (∀ others,
        (TokenStream.marked others).take (index + 1) =
          (TokenStream.marked tokens).take (index + 1) →
        parse others = .error diagnostic) ∧
      ∃ others program,
        (TokenStream.marked others).take index =
          (TokenStream.marked tokens).take index ∧
        parse others = .ok program := by
  obtain ⟨fault, token, isRefused, rfl⟩ := Parsed.of_result_eq_error refused
  have isStop := (TokenStream.ofTokens tokens).isStop
  obtain ⟨used, rest, isBody, isToken, begun, refuses⟩ :=
    (Parser.statementsPrompt isStop _).statements .outermost _ fault token isRefused
  obtain ⟨later, isMarked⟩ := TokenStream.marked_eq_append isBody isToken
  have atToken : (TokenStream.marked tokens).take (used.length + 1) = used ++ [token] := by
    rw [isMarked, List.take_length_add_append]
    rfl
  refine ⟨used.length, token, ?_, rfl, ?_, ?_⟩
  · rw [isMarked, List.getElem?_append_right (Nat.le_refl _), Nat.sub_self]
    rfl
  · intro others same
    apply parse_eq_error_of_refuses refuses _ (same.trans atToken)
    intro earlier member
    have inBody : earlier ∈ (TokenStream.ofTokens tokens).body := by
      rw [isBody]
      exact List.mem_append_left rest member
    exact TokenStream.kind_ne_endOfInput inBody
  · obtain ⟨added, program, accepted⟩ := exists_parse_eq_ok begun
    refine ⟨used ++ added, program, ?_, accepted⟩
    rw [TokenStream.take_marked (by simp), isMarked, List.take_left, List.take_left]

/-- The conditional `if a b`, line break, `else )`: the parenthesis is refused, whatever
follows it, and not before the keyword behind the line break was seen. -/
theorem parse_fails_promptly_branch :
    let place (line column index : Nat) : Span :=
      Span.emptyAt ⟨line, column, index⟩ ⟨"", ""⟩
    let tokens : List Token :=
      [⟨.ifKeyword, "if", place 1 0 0⟩, ⟨.identifier, "a", place 1 3 3⟩,
        ⟨.identifier, "b", place 1 5 5⟩, ⟨.newline, "\n", place 1 6 6⟩,
        ⟨.elseKeyword, "else", place 2 0 7⟩, ⟨.rightParen, ")", place 2 5 12⟩]
    let diagnostic := (SyntaxFault.invalidToken .rightParen).locate (place 2 5 12)
    parse tokens = .error diagnostic ∧
      ∃ index token,
        (TokenStream.marked tokens)[index]? = some token ∧
        diagnostic.span = token.span ∧
        (∀ others,
          (TokenStream.marked others).take (index + 1) =
            (TokenStream.marked tokens).take (index + 1) →
          parse others = .error diagnostic) ∧
        ∃ others program,
          (TokenStream.marked others).take index =
            (TokenStream.marked tokens).take index ∧
          parse others = .ok program :=
  ⟨rfl, parse_fails_promptly rfl⟩

end Scriptlet
