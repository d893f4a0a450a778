import Scriptlet.Proofs.Grammar.AcceptedPrograms
import Scriptlet.Proofs.Tree.Bare
import Scriptlet.Proofs.Tree.Words

namespace Scriptlet

/-!
# Reading the same tokens elsewhere

Rules look at the kinds and the spellings of tokens only, and no further than to
the line break behind a statement.  So if the tokens of a program are repeated at
other places, with a further line of tokens behind them, the same program is read
from them, up to spans.
-/

/-- Whether two tokens have the same kind and spelling. -/
structure Token.SameText (token other : Token) : Prop where
  kind_eq : other.kind = token.kind
  lexeme_eq : other.lexeme = token.lexeme

/-- Whether the second list repeats the first one, and then comes to an end or goes
on with the given tokens on a new line. -/
inductive RepeatedBefore (more : List Token) : List Token → List Token → Prop where
  | nil
      (ends : more = [] ∨ EndsLine more) :
      RepeatedBefore more [] more
  | cons
      (first : token.SameText other)
      (later : RepeatedBefore more tokens others) :
      RepeatedBefore more (token :: tokens) (other :: others)

namespace RepeatedBefore

variable {more tokens others : List Token}

/-- Where the repeated tokens end, a line break can stand. -/
theorem nextKind_eq_or (same : RepeatedBefore more tokens others) :
    nextKind others = nextKind tokens ∨
      nextKind tokens = .endOfInput ∧ nextKind others = .newline := by
  cases same with
  | nil ends =>
      rcases ends with rfl | ends
      · exact .inl rfl
      · exact .inr ⟨rfl, ends.nextKind_eq⟩
  | cons first _ =>
      exact .inl first.kind_eq

theorem nextKind_eq_iff
    (same : RepeatedBefore more tokens others)
    (kind : TokenKind)
    (notClosing : Surroundings.outermost.closedBy kind = false) :
    nextKind others = kind ↔ nextKind tokens = kind := by
  rcases same.nextKind_eq_or with sameKind | ⟨atEnd, atBreak⟩
  · rw [sameKind]
  · rw [atEnd, atBreak]
    constructor
    · rintro rfl
      cases notClosing
    · rintro rfl
      cases notClosing

theorem level?_eq (same : RepeatedBefore more tokens others) :
    (nextKind others).level? = (nextKind tokens).level? := by
  rcases same.nextKind_eq_or with sameKind | ⟨atEnd, atBreak⟩
  · rw [sameKind]
  · rw [atEnd, atBreak]
    rfl

theorem isUnary_eq (same : RepeatedBefore more tokens others) :
    (nextKind others).isUnary = (nextKind tokens).isUnary := by
  rcases same.nextKind_eq_or with sameKind | ⟨atEnd, atBreak⟩
  · rw [sameKind]
  · rw [atEnd, atBreak]
    rfl

theorem closedBy_eq
    (around : Surroundings)
    (same : RepeatedBefore more tokens others) :
    around.closedBy (nextKind others) = around.closedBy (nextKind tokens) := by
  rcases same.nextKind_eq_or with sameKind | ⟨atEnd, atBreak⟩
  · rw [sameKind]
  · rw [atEnd, atBreak]
    rfl

/-- Line breaks are skipped as long as a token behind them belongs to the repeated
ones. -/
theorem skipBreaks
    (same : RepeatedBefore more tokens others)
    (stays : Scriptlet.skipBreaks tokens = [] → more = []) :
    RepeatedBefore more (Scriptlet.skipBreaks tokens)
      (Scriptlet.skipBreaks others) := by
  induction same with
  | nil ends =>
      obtain rfl := stays rfl
      exact .nil ends
  | @cons rest rests token other first same inductionHypothesis =>
      by_cases isBreak : token.kind = .newline
      · rw [skipBreaks_cons_of_eq isBreak] at stays ⊢
        rw [skipBreaks_cons_of_eq (first.kind_eq.trans isBreak)]
        exact inductionHypothesis stays
      · have otherNoBreak : other.kind ≠ .newline := by
          rw [first.kind_eq]
          exact isBreak
        rw [skipBreaks_cons_of_ne isBreak, skipBreaks_cons_of_ne otherNoBreak]
        exact .cons first same

/-- If only line breaks are repeated, they are skipped together with those before
the further tokens. -/
theorem skipBreaks_eq
    (same : RepeatedBefore more tokens others)
    (onlyBreaks : Scriptlet.skipBreaks tokens = []) :
    Scriptlet.skipBreaks others = Scriptlet.skipBreaks more := by
  induction same with
  | nil => rfl
  | @cons rest rests token other first _ inductionHypothesis =>
      by_cases isBreak : token.kind = .newline
      · rw [skipBreaks_cons_of_eq isBreak] at onlyBreaks
        rw [skipBreaks_cons_of_eq (first.kind_eq.trans isBreak)]
        exact inductionHypothesis onlyBreaks
      · rw [skipBreaks_cons_of_ne isBreak] at onlyBreaks
        cases onlyBreaks

/-- The line break before the further tokens is none before a branch. -/
theorem skipBranchBreak (same : RepeatedBefore more tokens others) :
    RepeatedBefore more (Scriptlet.skipBranchBreak tokens)
      (Scriptlet.skipBranchBreak others) := by
  cases same with
  | nil ends =>
      have kept : Scriptlet.skipBranchBreak more = more := by
        rcases ends with rfl | ends
        · rfl
        · exact ends.skipBranchBreak_eq
      rw [kept]
      exact .nil ends
  | cons first same =>
      cases same with
      | nil ends =>
          rcases ends with rfl | ends
          · exact .cons first (.nil (.inl rfl))
          · cases more with
            | nil => exact ends.elim
            | cons token later =>
                have kept : ∀ front : Token,
                    Scriptlet.skipBranchBreak (front :: token :: later) =
                      front :: token :: later := by
                  intro front
                  simp [Scriptlet.skipBranchBreak, ends.1]
                rw [kept]
                exact .cons first (.nil (.inr ends))
      | cons second same =>
          simp only [Scriptlet.skipBranchBreak, first.kind_eq, second.kind_eq]
          split
          · exact .cons second same
          · exact .cons first (.cons second same)

end RepeatedBefore

/-! ## Expressions -/

/-- What a single token is on its own, elsewhere. -/
theorem Token.SameText.atom
    {token other : Token}
    {result : Expression}
    (same : token.SameText other)
    (isAtom : Parser.atom token = .ok result) :
    ∃ found : Expression, found.bare = result.bare ∧
      Parser.atom other = .ok found := by
  have sameLiteral : other.literal? = token.literal? := by
    rw [Token.literal?, same.kind_eq, same.lexeme_eq, Token.literal?]
  rcases Parser.atom_eq_ok_iff.mp isAtom with
    ⟨value, isLiteral, rfl⟩ | ⟨isName, rfl⟩
  · exact ⟨.literal value other.span, rfl,
      Parser.atom_eq_ok_iff.mpr
        (.inl ⟨value, sameLiteral.trans isLiteral, rfl⟩)⟩
  · refine ⟨.reference other.lexeme other.span, ?_,
      Parser.atom_eq_ok_iff.mpr (.inr ⟨same.kind_eq.trans isName, rfl⟩)⟩
    rw [same.lexeme_eq]
    rfl

namespace Expression

variable {left right leftFound rightFound : Expression}

theorem bare_combine
    {operator other : Token}
    (same : operator.SameText other)
    (leftAlike : leftFound.bare = left.bare)
    (rightAlike : rightFound.bare = right.bare) :
    (leftFound.combine other rightFound).bare =
      (left.combine operator right).bare := by
  unfold combine
  rw [same.kind_eq]
  split <;>
    simpa [bare, ofLogical, ofBinary, mapSpans, Token.operator, same.kind_eq,
      same.lexeme_eq] using And.intro leftAlike rightAlike

theorem isTarget_of_bare (alike : leftFound.bare = left.bare) :
    leftFound.isTarget = left.isTarget := by
  have kept : ∀ expression : Expression,
      expression.bare.isTarget = expression.isTarget := by
    intro expression
    cases expression <;> rfl
  rw [← kept leftFound, alike, kept]

/-- A name agrees with names only. -/
theorem exists_of_bare_reference
    {name : String}
    {span : Span}
    (alike : leftFound.bare = (Expression.reference name span).bare) :
    ∃ place, leftFound = .reference name place := by
  cases leftFound <;> cases alike
  exact ⟨_, rfl⟩

/-- An attribute agrees with attributes only. -/
theorem exists_of_bare_getAttribute
    {object : Expression}
    {name : String}
    {span : Span}
    (alike : leftFound.bare = (Expression.getAttribute object name span).bare) :
    ∃ found place, leftFound = .getAttribute found name place ∧
      found.bare = object.bare := by
  cases leftFound with
  | getAttribute found other place =>
      obtain ⟨sameObject, rfl, _⟩ := Expression.getAttribute.inj alike
      exact ⟨found, place, rfl, sameObject⟩
  | _ => cases alike

end Expression

namespace ExpressionPart

/-- That a part is read, up to spans, from the given tokens too.  A tail can be
read behind anything that agrees with what it extends. -/
def ReadElsewhere (more tokens rest : List Token) : ExpressionPart → Prop
  | .expression result =>
      ∃ found left, found.bare = result.bare ∧ RepeatedBefore more rest left ∧
        (expression found).ReadFrom tokens left
  | .operation level result =>
      ∃ found left, found.bare = result.bare ∧ RepeatedBefore more rest left ∧
        (operation level found).ReadFrom tokens left
  | .operationTail level first result =>
      ∀ firstFound : Expression, firstFound.bare = first.bare →
        ∃ found left, found.bare = result.bare ∧ RepeatedBefore more rest left ∧
          (operationTail level firstFound found).ReadFrom tokens left
  | .unary result =>
      ∃ found left, found.bare = result.bare ∧ RepeatedBefore more rest left ∧
        (unary found).ReadFrom tokens left
  | .callTail callee result =>
      ∀ calleeFound : Expression, calleeFound.bare = callee.bare →
        ∃ found left, found.bare = result.bare ∧ RepeatedBefore more rest left ∧
          (callTail calleeFound found).ReadFrom tokens left
  | .arguments results =>
      ∃ (found : List Expression) (left : List Token),
        found.map Expression.bare = results.map Expression.bare ∧
        RepeatedBefore more rest left ∧ (arguments found).ReadFrom tokens left
  | .argumentList results =>
      ∃ (found : List Expression) (left : List Token),
        found.map Expression.bare = results.map Expression.bare ∧
        RepeatedBefore more rest left ∧ (argumentList found).ReadFrom tokens left
  | .primary result =>
      ∃ found left, found.bare = result.bare ∧ RepeatedBefore more rest left ∧
        (primary found).ReadFrom tokens left

/-- Expressions are read wherever their tokens stand. -/
theorem ReadFrom.readElsewhere
    {part : ExpressionPart}
    {tokens rest : List Token}
    (reads : part.ReadFrom tokens rest)
    {more others : List Token}
    (same : RepeatedBefore more tokens others) :
    part.ReadElsewhere more others rest := by
  induction reads generalizing others with
  | plain _ notAssigned target =>
      obtain ⟨found, left, alike, sameRest, read⟩ := target same
      refine ⟨found, left, alike, sameRest, .plain read ?_⟩
      rw [sameRest.nextKind_eq_iff .equal rfl,
        Expression.isTarget_of_bare alike]
      exact notAssigned
  | assign _ isEqual _ target assigned =>
      obtain ⟨_, _, alike, sameEqual, read⟩ := target same
      obtain ⟨place, rfl⟩ := Expression.exists_of_bare_reference alike
      cases sameEqual with
      | cons equal sameLater =>
          obtain ⟨found, left, valueAlike, sameRest, readValue⟩ :=
            assigned sameLater
          exact ⟨_, left,
            by simpa [Expression.bare, Expression.ofAssign,
              Expression.mapSpans] using valueAlike,
            sameRest, .assign read (equal.kind_eq.trans isEqual) readValue⟩
  | setAttribute _ isEqual _ target assigned =>
      obtain ⟨_, _, alike, sameEqual, read⟩ := target same
      obtain ⟨object, place, rfl, objectAlike⟩ :=
        Expression.exists_of_bare_getAttribute alike
      cases sameEqual with
      | cons equal sameLater =>
          obtain ⟨found, left, valueAlike, sameRest, readValue⟩ :=
            assigned sameLater
          exact ⟨_, left,
            by simpa [Expression.bare, Expression.ofSetAttribute,
              Expression.mapSpans] using And.intro objectAlike valueAlike,
            sameRest,
            .setAttribute read (equal.kind_eq.trans isEqual) readValue⟩
  | operands isBinary _ _ first tail =>
      obtain ⟨firstFound, later, firstAlike, sameLater, readFirst⟩ := first same
      obtain ⟨found, left, alike, sameRest, readTail⟩ :=
        tail sameLater firstFound firstAlike
      exact ⟨found, left, alike, sameRest,
        .operands isBinary readFirst readTail⟩
  | operand notBinary _ operand =>
      obtain ⟨found, left, alike, sameRest, read⟩ := operand same
      exact ⟨found, left, alike, sameRest, .operand notBinary read⟩
  | noOperator otherLevel =>
      intro firstFound firstAlike
      refine ⟨firstFound, others, firstAlike, same, .noOperator ?_⟩
      rw [same.level?_eq]
      exact otherLevel
  | operator hasLevel _ _ second tail =>
      intro firstFound firstAlike
      cases same with
      | cons operator same =>
          obtain ⟨rightFound, later, rightAlike, sameLater, readRight⟩ :=
            second same
          obtain ⟨found, left, alike, sameRest, readTail⟩ :=
            tail sameLater _
              (Expression.bare_combine operator firstAlike rightAlike)
          exact ⟨found, left, alike, sameRest,
            .operator (operator.kind_eq ▸ hasLevel) readRight readTail⟩
  | sign isUnary _ operand =>
      cases same with
      | cons operator same =>
          obtain ⟨found, left, alike, sameRest, read⟩ := operand same
          exact ⟨_, left,
            by simpa [Expression.bare, Expression.ofUnary, Expression.mapSpans,
              Token.operator, operator.kind_eq, operator.lexeme_eq] using alike,
            sameRest, .sign (operator.kind_eq ▸ isUnary) read⟩
  | noSign notUnary _ _ first tail =>
      obtain ⟨calleeFound, later, calleeAlike, sameLater, readFirst⟩ :=
        first same
      obtain ⟨found, left, alike, sameRest, readTail⟩ :=
        tail sameLater calleeFound calleeAlike
      refine ⟨found, left, alike, sameRest, .noSign ?_ readFirst readTail⟩
      rw [same.isUnary_eq]
      exact notUnary
  | noCall notDot notParen =>
      intro calleeFound calleeAlike
      refine ⟨calleeFound, others, calleeAlike, same, .noCall ?_ ?_⟩
      · rwa [Ne, same.nextKind_eq_iff .dot rfl]
      · rwa [Ne, same.nextKind_eq_iff .leftParen rfl]
  | getAttribute isDot isName _ tail =>
      intro calleeFound calleeAlike
      cases same with
      | cons dot same =>
          cases same with
          | @cons _ _ _ other name same =>
              obtain ⟨found, left, alike, sameRest, readTail⟩ :=
                tail same
                  (.ofGetAttribute calleeFound other.lexeme other.span)
                  (by simpa [Expression.bare, Expression.ofGetAttribute,
                    Expression.mapSpans, name.lexeme_eq] using calleeAlike)
              exact ⟨found, left, alike, sameRest,
                .getAttribute (dot.kind_eq.trans isDot)
                  (name.kind_eq.trans isName) readTail⟩
  | call isOpening _ isClosing _ arguments tail =>
      intro calleeFound calleeAlike
      cases same with
      | cons opening same =>
          obtain ⟨given, _, givenAlike, sameClosing, readGiven⟩ := arguments same
          cases sameClosing with
          | @cons _ _ _ other closing sameLater =>
              obtain ⟨found, left, alike, sameRest, readTail⟩ :=
                tail sameLater (.ofCall calleeFound given other.span)
                  (by simpa [Expression.bare, Expression.ofCall,
                    Expression.mapSpans] using
                      And.intro calleeAlike givenAlike)
              exact ⟨found, left, alike, sameRest,
                .call (opening.kind_eq.trans isOpening) readGiven
                  (closing.kind_eq.trans isClosing) readTail⟩
  | noArguments atClosing =>
      rw [← same.nextKind_eq_iff .rightParen rfl] at atClosing
      exact ⟨[], others, rfl, same, .noArguments atClosing⟩
  | someArguments _ given =>
      obtain ⟨found, left, alike, sameRest, read⟩ := given same
      exact ⟨found, left, alike, sameRest, .someArguments read⟩
  | lastArgument _ notComma last =>
      obtain ⟨found, left, alike, sameRest, read⟩ := last same
      rw [Ne, ← sameRest.nextKind_eq_iff .comma rfl] at notComma
      exact ⟨[found], left, by simp [alike], sameRest,
        .lastArgument read notComma⟩
  | moreArguments _ isComma _ first later =>
      obtain ⟨found, _, alike, sameComma, read⟩ := first same
      cases sameComma with
      | cons comma sameLater =>
          obtain ⟨foundOthers, left, othersAlike, sameRest, readOthers⟩ :=
            later sameLater
          exact ⟨found :: foundOthers, left, by simp [alike, othersAlike],
            sameRest,
            .moreArguments read (comma.kind_eq.trans isComma) readOthers⟩
  | grouping isOpening _ isClosing content =>
      cases same with
      | cons opening same =>
          obtain ⟨found, _, alike, sameClosing, read⟩ := content same
          cases sameClosing with
          | cons closing sameRest =>
              exact ⟨_, _,
                by simpa [Expression.bare, Expression.ofGrouping,
                  Expression.mapSpans] using alike,
                sameRest,
                .grouping (opening.kind_eq.trans isOpening) read
                  (closing.kind_eq.trans isClosing)⟩
  | atom isAtom =>
      cases same with
      | cons token sameRest =>
          obtain ⟨found, alike, isFound⟩ := token.atom isAtom
          exact ⟨found, _, alike, sameRest, .atom isFound⟩

end ExpressionPart

/-! ## Statements -/

theorem NamesReadFrom.readElsewhere
    {names : List String}
    {tokens rest : List Token}
    (reads : NamesReadFrom names tokens rest)
    {more others : List Token}
    (same : RepeatedBefore more tokens others) :
    ∃ left, RepeatedBefore more rest left ∧ NamesReadFrom names others left := by
  induction reads generalizing others with
  | last isName notComma =>
      cases same with
      | cons name sameRest =>
          rw [Ne, ← sameRest.nextKind_eq_iff .comma rfl] at notComma
          rw [← name.lexeme_eq]
          exact ⟨_, sameRest, .last (name.kind_eq.trans isName) notComma⟩
  | more isName isComma _ inductionHypothesis =>
      cases same with
      | cons name same =>
          cases same with
          | cons comma same =>
              obtain ⟨left, sameRest, read⟩ := inductionHypothesis same
              rw [← name.lexeme_eq]
              exact ⟨left, sameRest,
                .more (name.kind_eq.trans isName) (comma.kind_eq.trans isComma)
                  read⟩

theorem ParametersReadFrom.readElsewhere
    {names : List String}
    {tokens rest : List Token}
    (reads : ParametersReadFrom names tokens rest)
    {more others : List Token}
    (same : RepeatedBefore more tokens others) :
    ∃ left, RepeatedBefore more rest left ∧
      ParametersReadFrom names others left := by
  cases reads with
  | none isOpening isClosing =>
      cases same with
      | cons opening same =>
          cases same with
          | cons closing sameRest =>
              exact ⟨_, sameRest,
                .none (opening.kind_eq.trans isOpening)
                  (closing.kind_eq.trans isClosing)⟩
  | some isOpening given isClosing =>
      cases same with
      | cons opening same =>
          obtain ⟨_, sameClosing, read⟩ := given.readElsewhere same
          cases sameClosing with
          | cons closing sameRest =>
              exact ⟨_, sameRest,
                .some (opening.kind_eq.trans isOpening) read
                  (closing.kind_eq.trans isClosing)⟩

/-- Where tokens are left, a statement ends the way it does elsewhere. -/
theorem EndsStatement.readElsewhere
    {around : Surroundings}
    {tokens rest : List Token}
    (ends : EndsStatement around tokens rest)
    {more others : List Token}
    (same : RepeatedBefore more tokens others)
    (stays : rest = [] → more = []) :
    ∃ left, RepeatedBefore more rest left ∧ EndsStatement around others left := by
  cases ends with
  | newline isBreak =>
      cases same with
      | cons first sameRest =>
          exact ⟨_, sameRest, .newline (first.kind_eq.trans isBreak)⟩
  | closed notBreak isClosed =>
      refine ⟨others, same, .closed ?_ ?_⟩
      · cases same with
        | nil => simp [stays rfl]
        | cons first _ =>
            rw [nextKind_cons, first.kind_eq]
            exact notBreak
      · rw [same.closedBy_eq]
        exact isClosed

namespace StatementPart

/-- That a part is read, up to spans, from the given tokens too.  Statements must
not reach up to the end of the repeated tokens if further ones follow, as they would
go on there. -/
def ReadElsewhere (more tokens rest : List Token) : StatementPart → Prop
  | .declaration around result =>
      ∃ (found : Statement) (left : List Token),
        found.bare = result.bare ∧ RepeatedBefore more rest left ∧
        (declaration around found).ReadFrom tokens left
  | .statement around result =>
      ∃ (found : Statement) (left : List Token),
        found.bare = result.bare ∧ RepeatedBefore more rest left ∧
        (statement around found).ReadFrom tokens left
  | .branches around others otherwise =>
      ∃ (found : List (Expression × Statement)) (last : Option Statement)
          (left : List Token),
        found.map Statement.bareBranch = others.map Statement.bareBranch ∧
        last.map Statement.bare = otherwise.map Statement.bare ∧
        RepeatedBefore more rest left ∧
        (branches around found last).ReadFrom tokens left
  | .block around body _ =>
      ∃ (found : List Statement) (span : Span) (left : List Token),
        found.map Statement.bare = body.map Statement.bare ∧
        RepeatedBefore more rest left ∧
        (block around found span).ReadFrom tokens left
  | .statements around body =>
      (rest = [] → more = []) →
        ∃ (found : List Statement) (left : List Token),
          found.map Statement.bare = body.map Statement.bare ∧
          RepeatedBefore more rest left ∧
          (statements around found).ReadFrom tokens left

/-- Statements are read wherever their tokens stand. -/
theorem ReadFrom.readElsewhere
    {part : StatementPart}
    {tokens rest : List Token}
    (reads : part.ReadFrom tokens rest)
    {more others : List Token}
    (same : RepeatedBefore more tokens others) :
    part.ReadElsewhere more others rest := by
  induction reads generalizing others with
  | variableDeclaration isVariable isName isEqual value =>
      cases same with
      | cons keyword same =>
          cases same with
          | cons name same =>
              cases same with
              | cons equals same =>
                  obtain ⟨found, left, alike, sameRest, read⟩ :=
                    value.readElsewhere same
                  exact ⟨_, left,
                    by simpa [Statement.bare, Statement.mapSpans, Expression.bare,
                      keyword.kind_eq, name.lexeme_eq] using alike,
                    sameRest,
                    .variableDeclaration (keyword.kind_eq ▸ isVariable)
                      (name.kind_eq.trans isName) (equals.kind_eq.trans isEqual)
                      read⟩
  | functionDeclaration isFunction isName parameters _ body =>
      cases same with
      | cons keyword same =>
          cases same with
          | cons name same =>
              obtain ⟨_, sameLater, readParameters⟩ :=
                parameters.readElsewhere same
              obtain ⟨found, span, left, alike, sameRest, read⟩ :=
                body sameLater
              exact ⟨_, left,
                by simpa [Statement.bare, Statement.mapSpans,
                  name.lexeme_eq] using alike,
                sameRest,
                .functionDeclaration (keyword.kind_eq.trans isFunction)
                  (name.kind_eq.trans isName) readParameters read⟩
  | simple _ statement =>
      obtain ⟨found, left, alike, sameRest, read⟩ := statement same
      exact ⟨found, left, alike, sameRest, .simple read⟩
  | block _ block =>
      obtain ⟨found, span, left, alike, sameRest, read⟩ := block same
      exact ⟨.block found span, left,
        by simpa [Statement.bare, Statement.mapSpans] using alike,
        sameRest, .block read⟩
  | whileLoop isWhile test _ repeated =>
      cases same with
      | cons keyword same =>
          obtain ⟨condition, _, conditionAlike, sameLater, readTest⟩ :=
            test.readElsewhere same
          obtain ⟨body, left, bodyAlike, sameRest, readBody⟩ :=
            repeated sameLater
          exact ⟨_, left,
            by simpa [Statement.bare, Statement.mapSpans, Expression.bare] using
              And.intro conditionAlike bodyAlike,
            sameRest,
            .whileLoop (keyword.kind_eq.trans isWhile) readTest readBody⟩
  | conditional isIf test _ _ chosen further =>
      cases same with
      | cons keyword same =>
          obtain ⟨condition, _, conditionAlike, sameTest, readTest⟩ :=
            test.readElsewhere same
          obtain ⟨body, _, bodyAlike, sameBody, readBody⟩ := chosen sameTest
          obtain ⟨found, last, left, foundAlike, lastAlike, sameRest, read⟩ :=
            further sameBody
          refine ⟨_, left, ?_, sameRest,
            .conditional (keyword.kind_eq.trans isIf) readTest readBody read⟩
          rw [Statement.bare_conditional, Statement.bare_conditional, lastAlike,
            List.map_cons, List.map_cons, foundAlike, Statement.bareBranch,
            Statement.bareBranch, conditionAlike, bodyAlike]
  | breakLoop isBreak inLoop =>
      cases same with
      | cons keyword sameRest =>
          refine ⟨_, _, ?_, sameRest,
            .breakLoop (keyword.kind_eq.trans isBreak) inLoop⟩
          rfl
  | continueLoop isContinue inLoop =>
      cases same with
      | cons keyword sameRest =>
          refine ⟨_, _, ?_, sameRest,
            .continueLoop (keyword.kind_eq.trans isContinue) inLoop⟩
          rfl
  | returnNothing isReturn inFunction isClosed =>
      cases same with
      | cons keyword sameRest =>
          rw [← sameRest.closedBy_eq] at isClosed
          refine ⟨_, _, ?_, sameRest,
            .returnNothing (keyword.kind_eq.trans isReturn) inFunction isClosed⟩
          rfl
  | returnValue isReturn inFunction result =>
      cases same with
      | cons keyword same =>
          obtain ⟨value, left, alike, sameRest, read⟩ :=
            result.readElsewhere same
          exact ⟨_, left,
            by simpa [Statement.bare, Statement.mapSpans, Expression.bare] using
              alike,
            sameRest,
            .returnValue (keyword.kind_eq.trans isReturn) inFunction read⟩
  | expression inner =>
      obtain ⟨found, left, alike, sameRest, read⟩ := inner.readElsewhere same
      exact ⟨.expression found, left,
        by simpa [Statement.bare, Statement.mapSpans, Expression.bare] using
          alike,
        sameRest, .expression read⟩
  | elifBranch atBranch isElif test _ _ chosen further =>
      have sameBranch := same.skipBranchBreak
      rw [atBranch] at sameBranch
      generalize isBranch : skipBranchBreak _ = atOther at sameBranch
      cases sameBranch with
      | cons keyword sameKeyword =>
          obtain ⟨condition, _, conditionAlike, sameTest, readTest⟩ :=
            test.readElsewhere sameKeyword
          obtain ⟨body, _, bodyAlike, sameBody, readBody⟩ := chosen sameTest
          obtain ⟨found, last, left, foundAlike, lastAlike, sameRest, read⟩ :=
            further sameBody
          refine ⟨(condition, body) :: found, last, left, ?_, lastAlike, sameRest,
            .elifBranch isBranch (keyword.kind_eq.trans isElif) readTest readBody
              read⟩
          rw [List.map_cons, List.map_cons, foundAlike, Statement.bareBranch,
            Statement.bareBranch, conditionAlike, bodyAlike]
  | elseBranch atBranch isElse _ chosen =>
      have sameBranch := same.skipBranchBreak
      rw [atBranch] at sameBranch
      generalize isBranch : skipBranchBreak _ = atOther at sameBranch
      cases sameBranch with
      | cons keyword sameKeyword =>
          obtain ⟨body, left, alike, sameRest, read⟩ := chosen sameKeyword
          exact ⟨[], some body, left, rfl, by simp [alike], sameRest,
            .elseBranch isBranch (keyword.kind_eq.trans isElse) read⟩
  | noBranch notElif notElse =>
      have sameBranch := same.skipBranchBreak
      refine ⟨[], none, others, rfl, rfl, same, .noBranch ?_ ?_⟩
      · rwa [Ne, sameBranch.nextKind_eq_iff .elifKeyword rfl]
      · rwa [Ne, sameBranch.nextKind_eq_iff .elseKeyword rfl]
  | braces isOpening _ isClosing content =>
      cases same with
      | cons opening same =>
          obtain ⟨found, _, alike, sameClosing, read⟩ := content same (by simp)
          cases sameClosing with
          | cons closing sameRest =>
              exact ⟨found, _, _, alike, sameRest,
                .braces (opening.kind_eq.trans isOpening) read
                  (closing.kind_eq.trans isClosing)⟩
  | noStatement isEnded =>
      intro stays
      have sameRest := same.skipBreaks stays
      refine ⟨[], _, rfl, sameRest, .noStatement ?_⟩
      rcases sameRest.nextKind_eq_or with sameKind | ⟨_, atBreak⟩
      · rw [sameKind]
        exact isEnded
      · exact (nextKind_skipBreaks_ne _ atBreak).elim
  | moreStatements first ends behind declaration later =>
      intro stays
      have nonempty : skipBreaks _ ≠ [] :=
        List.ne_nil_of_length_pos (Nat.zero_lt_of_lt (first.length_lt rfl))
      obtain ⟨found, _, alike, sameLater, read⟩ :=
        declaration (same.skipBreaks fun isEmpty => (nonempty isEmpty).elim)
      have staysNext : _ = [] → more = [] := fun isEmpty =>
        stays (List.suffix_nil.mp (isEmpty ▸ behind.suffix))
      obtain ⟨_, sameNext, foundEnds⟩ := ends.readElsewhere sameLater staysNext
      obtain ⟨foundLater, left, laterAlike, sameRest, readLater⟩ :=
        later sameNext stays
      exact ⟨found :: foundLater, left, by simp [alike, laterAlike], sameRest,
        .moreStatements read foundEnds readLater⟩

end StatementPart

/-! ## Programs -/

/-- The program that is read from tokens is read wherever they stand. -/
theorem StatementPart.ReadFrom.program_readElsewhere
    {program : List Statement}
    {tokens others : List Token}
    (reads : (StatementPart.statements .outermost program).ReadFrom tokens [])
    (same : RepeatedBefore [] tokens others) :
    ∃ found : List Statement,
      found.map Statement.bare = program.map Statement.bare ∧
      (StatementPart.statements .outermost found).ReadFrom others [] := by
  obtain ⟨found, _, alike, sameRest, read⟩ := reads.readElsewhere same fun _ => rfl
  cases sameRest with
  | nil => exact ⟨found, alike, read⟩

/-- No statement is read from line breaks only. -/
theorem StatementPart.ReadFrom.skipBreaks_eq
    {around : Surroundings}
    {tokens rest : List Token}
    (reads : (StatementPart.statements around []).ReadFrom tokens rest) :
    skipBreaks tokens = rest := by
  cases reads with
  | noStatement _ => rfl

/-- Line breaks before statements do not matter. -/
theorem StatementPart.ReadFrom.of_skipBreaks
    {around : Surroundings}
    {body : List Statement}
    {tokens others rest : List Token}
    (reads : (StatementPart.statements around body).ReadFrom tokens rest)
    (same : skipBreaks others = skipBreaks tokens) :
    (StatementPart.statements around body).ReadFrom others rest := by
  cases reads with
  | noStatement isEnded =>
      rw [← same] at isEnded ⊢
      exact .noStatement isEnded
  | moreStatements first ends later =>
      rw [← same] at first
      exact .moreStatements first ends later

/-- Outside of all blocks, only the end of the tokens closes a statement that no
line break ends. -/
theorem eq_nil_of_closedBy
    {tokens : List Token}
    (noEnd : ∀ token ∈ tokens, token.kind ≠ .endOfInput)
    (notBreak : nextKind tokens ≠ .newline)
    (isClosed : Surroundings.outermost.closedBy (nextKind tokens) = true) :
    tokens = [] := by
  cases tokens with
  | nil => rfl
  | cons token rest =>
      have notEnd := noEnd token List.mem_cons_self
      rw [nextKind_cons] at notBreak isClosed
      cases kind : token.kind <;> rw [kind] at notEnd notBreak isClosed <;>
        first
          | exact (notEnd rfl).elim
          | exact (notBreak rfl).elim
          | cases isClosed

/-- From the tokens of one program and, on a new line, those of another, both
programs are read, one after the other. -/
theorem StatementPart.ReadFrom.append
    {program next : List Statement}
    {lineBreak : Token}
    {tokens more others : List Token}
    (noEnd : ∀ token ∈ tokens, token.kind ≠ .endOfInput)
    (reads : (StatementPart.statements .outermost program).ReadFrom tokens [])
    (isBreak : lineBreak.kind = .newline)
    (nextReads : (StatementPart.statements .outermost next).ReadFrom more [])
    (same : RepeatedBefore (lineBreak :: more) tokens others) :
    ∃ found : List Statement,
      found.map Statement.bare = program.map Statement.bare ∧
      (StatementPart.statements .outermost (found ++ next)).ReadFrom others
        [] := by
  have skipped : skipBreaks (lineBreak :: more) = skipBreaks more :=
    skipBreaks_cons_of_eq isBreak more
  induction program generalizing tokens others with
  | nil =>
      have sameBehind := (same.skipBreaks_eq reads.skipBreaks_eq).trans skipped
      exact ⟨[], rfl, nextReads.of_skipBreaks sameBehind⟩
  | cons first program inductionHypothesis =>
      cases reads with
      | moreStatements declaration ends later =>
          have nonempty : skipBreaks tokens ≠ [] :=
            List.ne_nil_of_length_pos
              (Nat.zero_lt_of_lt (declaration.length_lt rfl))
          obtain ⟨found, left, alike, sameLater, read⟩ :=
            declaration.readElsewhere
              (same.skipBreaks fun isEmpty => (nonempty isEmpty).elim)
          have noEndLater := fun token member =>
            noEnd token
              (((ends.suffix.trans declaration.suffix).trans
                (List.dropWhile_suffix _)).subset member)
          cases ends with
          | newline endsLine =>
              cases sameLater with
              | cons first sameNext =>
                  obtain ⟨foundLater, laterAlike, readLater⟩ :=
                    inductionHypothesis noEndLater later sameNext
                  exact ⟨found :: foundLater, by simp [alike, laterAlike],
                    .moreStatements read
                      (.newline (first.kind_eq.trans endsLine)) readLater⟩
          | closed notBreak isClosed =>
              obtain rfl := eq_nil_of_closedBy noEndLater notBreak isClosed
              obtain ⟨foundLater, laterAlike, readLater⟩ :=
                inductionHypothesis noEndLater later sameLater
              cases sameLater with
              | nil _ =>
                  -- The line break behind the first program ends its last
                  -- statement and is not read again.
                  exact ⟨found :: foundLater, by simp [alike, laterAlike],
                    .moreStatements read (.newline isBreak)
                      (readLater.of_skipBreaks skipped.symm)⟩

end Scriptlet
