import Scriptlet.Proofs.Grammar.AcceptedPrograms
import Scriptlet.Proofs.Tree.Shape
import Scriptlet.Proofs.Tree.Words

namespace Scriptlet

/-!
# What is read is what is written

A program that is read from tokens has exactly the words that the tokens spell,
line breaks apart: nothing is lost, added or moved.  And it is nested as the levels
of its operators say.
-/

/-- Tokens without the line breaks among them. -/
def withoutBreaks (tokens : List Token) : List Token :=
  tokens.filter fun token => token.kind ≠ .newline

/-- Whether the tokens in front of the rest spell the words, line breaks apart. -/
def Spelled (words : List Word) (tokens rest : List Token) : Prop :=
  ∃ used, tokens = used ++ rest ∧
    List.Forall₂ Token.Spells (withoutBreaks used) words

namespace Spelled

theorem refl (tokens : List Token) :
    Spelled [] tokens tokens :=
  ⟨[], rfl, .nil⟩

theorem trans
    {first second : List Word}
    {tokens middle rest : List Token}
    (before : Spelled first tokens middle)
    (after : Spelled second middle rest) :
    Spelled (first ++ second) tokens rest := by
  obtain ⟨usedFirst, rfl, spellsFirst⟩ := before
  obtain ⟨usedSecond, rfl, spellsSecond⟩ := after
  refine ⟨usedFirst ++ usedSecond, by simp, ?_⟩
  rw [withoutBreaks, List.filter_append]
  exact List.rel_append spellsFirst spellsSecond

theorem cons
    {token : Token}
    {word : Word}
    {words : List Word}
    {tokens rest : List Token}
    (spells : token.Spells word)
    (notBreak : word.kind ≠ .newline)
    (others : Spelled words tokens rest) :
    Spelled (word :: words) (token :: tokens) rest := by
  obtain ⟨used, rfl, spellsOthers⟩ := others
  have kept : token.kind ≠ .newline := by
    rw [spells.kind_eq]
    exact notBreak
  refine ⟨token :: used, rfl, ?_⟩
  rw [withoutBreaks, List.filter_cons_of_pos (by simpa using kept)]
  exact .cons spells spellsOthers

theorem mark
    {token : Token}
    {kind : TokenKind}
    {words : List Word}
    {tokens rest : List Token}
    (isKind : token.kind = kind)
    (notBreak : kind ≠ .newline)
    (others : Spelled words tokens rest) :
    Spelled (.mark kind :: words) (token :: tokens) rest :=
  .cons isKind notBreak others

theorem name
    {token : Token}
    {words : List Word}
    {tokens rest : List Token}
    (isName : token.kind = .identifier)
    (others : Spelled words tokens rest) :
    Spelled (.name token.lexeme :: words) (token :: tokens) rest :=
  .cons ⟨isName, rfl⟩ nofun others

theorem operator
    {token : Token}
    {words : List Word}
    {tokens rest : List Token}
    (notBreak : token.kind ≠ .newline)
    (others : Spelled words tokens rest) :
    Spelled (.operator token.operator :: words) (token :: tokens) rest :=
  .cons rfl notBreak others

/-- A mark behind what is already spelled. -/
theorem markBehind
    {token : Token}
    {kind : TokenKind}
    {words : List Word}
    {tokens rest : List Token}
    (others : Spelled words tokens (token :: rest))
    (isKind : token.kind = kind)
    (notBreak : kind ≠ .newline) :
    Spelled (words ++ [.mark kind]) tokens rest :=
  others.trans (.mark isKind notBreak (.refl rest))

theorem break_cons
    {token : Token}
    {words : List Word}
    {tokens rest : List Token}
    (isBreak : token.kind = .newline)
    (others : Spelled words tokens rest) :
    Spelled words (token :: tokens) rest := by
  obtain ⟨used, rfl, spells⟩ := others
  refine ⟨token :: used, rfl, ?_⟩
  rw [withoutBreaks, List.filter_cons_of_neg (by simpa using isBreak)]
  exact spells

theorem of_skipBreaks
    {words : List Word}
    {tokens rest : List Token}
    (spelled : Spelled words (skipBreaks tokens) rest) :
    Spelled words tokens rest := by
  induction tokens with
  | nil =>
      exact spelled
  | cons token later inductionHypothesis =>
      by_cases isBreak : token.kind = .newline
      · rw [skipBreaks, List.dropWhile_cons_of_pos (by simpa using isBreak)]
          at spelled
        exact .break_cons isBreak (inductionHypothesis spelled)
      · rwa [skipBreaks, List.dropWhile_cons_of_neg (by simpa using isBreak)]
          at spelled

theorem of_skipBranchBreak
    {words : List Word}
    {tokens rest : List Token}
    (spelled : Spelled words (skipBranchBreak tokens) rest) :
    Spelled words tokens rest := by
  unfold skipBranchBreak at spelled
  split at spelled
  · split at spelled
    case isTrue skipped =>
      exact .break_cons skipped.1 spelled
    case isFalse =>
      exact spelled
  · exact spelled

end Spelled

/-! ## The words of expressions -/

theorem Expression.words_combine
    (left right : Expression)
    (operator : Token) :
    (left.combine operator right).words =
      left.words ++ .operator operator.operator :: right.words := by
  unfold combine
  split <;> simp [ofLogical, ofBinary, words]

theorem TokenKind.ne_newline_of_level
    {kind : TokenKind}
    {level : Nat}
    (hasLevel : kind.level? = some level) :
    kind ≠ .newline := by
  rintro rfl
  cases hasLevel

theorem TokenKind.ne_newline_of_isUnary
    {kind : TokenKind}
    (isUnary : kind.isUnary = true) :
    kind ≠ .newline := by
  rintro rfl
  cases isUnary

theorem Spelled.of_atom
    {token : Token}
    {result : Expression}
    (isAtom : Parser.atom token = .ok result)
    (rest : List Token) :
    Spelled result.words (token :: rest) rest := by
  rcases Parser.atom_eq_ok_iff.mp isAtom with
    ⟨value, isLiteral, rfl⟩ | ⟨isName, rfl⟩
  · have notBreak : value.tokenKind ≠ .newline := by
      cases value with
      | int number => nofun
      | float number => nofun
      | bool truth => cases truth <;> nofun
    exact .cons isLiteral notBreak (.refl rest)
  · exact .name isName (.refl rest)

namespace ExpressionPart

/-- How the words of a part go with the tokens it is read from.  A tail adds words
to what has been read before it. -/
def SpelledBy (tokens rest : List Token) : ExpressionPart → Prop
  | .expression result => Spelled result.words tokens rest
  | .operation _ result => Spelled result.words tokens rest
  | .operationTail _ left result =>
      ∃ added, result.words = left.words ++ added ∧ Spelled added tokens rest
  | .unary result => Spelled result.words tokens rest
  | .callTail callee result =>
      ∃ added, result.words = callee.words ++ added ∧ Spelled added tokens rest
  | .arguments results =>
      Spelled (commaSeparated (Expression.wordsOfEach results)) tokens rest
  | .argumentList results =>
      Spelled (commaSeparated (Expression.wordsOfEach results)) tokens rest
  | .primary result => Spelled result.words tokens rest

theorem ReadFrom.argumentList_ne_nil
    {results : List Expression}
    {tokens rest : List Token}
    (reads : (argumentList results).ReadFrom tokens rest) :
    results ≠ [] := by
  cases reads <;> simp

/-- A part of an expression has the words that its tokens spell. -/
theorem ReadFrom.spelledBy
    {part : ExpressionPart}
    {tokens rest : List Token}
    (reads : part.ReadFrom tokens rest) :
    part.SpelledBy tokens rest := by
  induction reads with
  | plain _ _ target =>
      exact target
  | assign _ isEqual _ target assigned =>
      have named := target.markBehind isEqual (by simp)
      simpa [SpelledBy, Expression.ofAssign, Expression.words] using
        named.trans assigned
  | setAttribute _ isEqual _ target assigned =>
      have named := target.markBehind isEqual (by simp)
      simpa [SpelledBy, Expression.ofSetAttribute, Expression.words] using
        named.trans assigned
  | operands _ _ _ first tail =>
      obtain ⟨added, isAdded, spelled⟩ := tail
      simpa [SpelledBy, isAdded] using first.trans spelled
  | operand _ _ operand =>
      exact operand
  | noOperator _ =>
      exact ⟨[], by simp, .refl _⟩
  | operator hasLevel _ _ second tail =>
      obtain ⟨added, isAdded, spelled⟩ := tail
      rw [Expression.words_combine] at isAdded
      exact ⟨_, by simp [isAdded],
        .operator (TokenKind.ne_newline_of_level hasLevel)
          (second.trans spelled)⟩
  | sign isUnary _ operand =>
      exact .operator (TokenKind.ne_newline_of_isUnary isUnary) operand
  | noSign _ _ _ first tail =>
      obtain ⟨added, isAdded, spelled⟩ := tail
      simpa [SpelledBy, isAdded] using first.trans spelled
  | noCall _ _ =>
      exact ⟨[], by simp, .refl _⟩
  | getAttribute isDot isName _ tail =>
      obtain ⟨added, isAdded, spelled⟩ := tail
      simp only [Expression.ofGetAttribute, Expression.words] at isAdded
      exact ⟨_, by simp [isAdded],
        .mark isDot (by simp) (.name isName spelled)⟩
  | call isOpening _ isClosing _ arguments tail =>
      obtain ⟨added, isAdded, spelled⟩ := tail
      simp only [Expression.ofCall, Expression.words] at isAdded
      exact ⟨_, by simp [isAdded],
        .mark isOpening (by simp)
          ((arguments.markBehind isClosing (by simp)).trans spelled)⟩
  | noArguments _ =>
      exact .refl _
  | someArguments _ given =>
      exact given
  | lastArgument _ _ last =>
      simpa [SpelledBy, Expression.wordsOfEach] using last
  | moreArguments _ isComma others first rest =>
      have someOthers := others.argumentList_ne_nil
      rw [SpelledBy, Expression.wordsOfEach,
        commaSeparated_cons _ (by simpa using someOthers)]
      simpa using (first.markBehind isComma (by simp)).trans rest
  | grouping isOpening _ isClosing content =>
      exact .mark isOpening (by simp) (content.markBehind isClosing (by simp))
  | atom isAtom =>
      exact .of_atom isAtom _

end ExpressionPart

/-! ## The words of statements -/

theorem NamesReadFrom.ne_nil
    {names : List String}
    {tokens rest : List Token}
    (reads : NamesReadFrom names tokens rest) :
    names ≠ [] := by
  cases reads <;> simp

theorem NamesReadFrom.spelled
    {names : List String}
    {tokens rest : List Token}
    (reads : NamesReadFrom names tokens rest) :
    Spelled (commaSeparated (names.map fun name => [.name name])) tokens
      rest := by
  induction reads with
  | last isName _ =>
      simpa using Spelled.name isName (.refl _)
  | more isName isComma others spelled =>
      rw [List.map_cons, commaSeparated_cons _ (by simpa using others.ne_nil)]
      exact .name isName (.mark isComma (by simp) spelled)

theorem ParametersReadFrom.spelled
    {names : List String}
    {tokens rest : List Token}
    (reads : ParametersReadFrom names tokens rest) :
    Spelled (parameterWords names) tokens rest := by
  cases reads with
  | none isOpening isClosing =>
      exact .mark isOpening (by simp) (.mark isClosing (by simp) (.refl _))
  | some isOpening given isClosing =>
      exact .mark isOpening (by simp) (given.spelled.markBehind isClosing (by simp))

theorem EndsStatement.spelled
    {around : Surroundings}
    {tokens rest : List Token}
    (ends : EndsStatement around tokens rest) :
    Spelled [] tokens rest := by
  cases ends with
  | newline isBreak =>
      exact .break_cons isBreak (.refl _)
  | closed _ _ =>
      exact .refl _

namespace StatementPart

/-- How the words of a part go with the tokens it is read from. -/
def SpelledBy (tokens rest : List Token) : StatementPart → Prop
  | .declaration _ result => Spelled (result.words []) tokens rest
  | .statement _ result => Spelled (result.words []) tokens rest
  | .branches _ others otherwise =>
      Spelled
        (Statement.branchWords [] .elifKeyword others ++
          Statement.otherwiseWords [] otherwise)
        tokens rest
  | .block _ body _ =>
      Spelled
        (.mark .leftBrace :: Statement.bodyWords [] body ++
          [.mark .rightBrace])
        tokens rest
  | .statements _ body => Spelled (Statement.bodyWords [] body) tokens rest

/-- A part of a program has the words that its tokens spell. -/
theorem ReadFrom.spelledBy
    {part : StatementPart}
    {tokens rest : List Token}
    (reads : part.ReadFrom tokens rest) :
    part.SpelledBy tokens rest := by
  induction reads with
  | variableDeclaration isVariable isName isEqual value =>
      have spelled :=
        Spelled.name isName (.mark isEqual (by simp) value.spelledBy)
      rcases isVariable with isVar | isConst
      · simpa [SpelledBy, Statement.words, isVar] using
          Spelled.mark isVar (by simp) spelled
      · simpa [SpelledBy, Statement.words, isConst] using
          Spelled.mark isConst (by simp) spelled
  | functionDeclaration isFunction isName parameters _ block =>
      simpa [SpelledBy, Statement.words] using
        Spelled.mark isFunction (by simp)
          (.name isName (parameters.spelled.trans block))
  | simple _ statement =>
      exact statement
  | block _ block =>
      simpa [SpelledBy, Statement.words] using block
  | whileLoop isWhile test _ repeated =>
      exact .mark isWhile (by simp) (test.spelledBy.trans repeated)
  | conditional isIf test _ _ chosen more =>
      simpa [SpelledBy, Statement.words, Statement.branchWords] using
        Spelled.mark isIf (by simp) (test.spelledBy.trans (chosen.trans more))
  | breakLoop isBreak _ =>
      exact .mark isBreak (by simp) (.refl _)
  | continueLoop isContinue _ =>
      exact .mark isContinue (by simp) (.refl _)
  | returnNothing isReturn _ _ =>
      exact .mark isReturn (by simp) (.refl _)
  | returnValue isReturn _ result =>
      exact .mark isReturn (by simp) result.spelledBy
  | expression inner =>
      exact inner.spelledBy
  | elifBranch atBranch isElif test _ _ chosen more =>
      apply Spelled.of_skipBranchBreak
      rw [atBranch]
      simpa [Statement.branchWords] using
        Spelled.mark isElif (by simp) (test.spelledBy.trans (chosen.trans more))
  | elseBranch atBranch isElse _ chosen =>
      apply Spelled.of_skipBranchBreak
      rw [atBranch]
      exact .mark isElse (by simp) chosen
  | noBranch _ _ =>
      exact .refl _
  | braces isOpening _ isClosing content =>
      exact .mark isOpening (by simp) (content.markBehind isClosing (by simp))
  | noStatement _ =>
      exact .of_skipBreaks (.refl _)
  | moreStatements _ ends _ first others =>
      apply Spelled.of_skipBreaks
      simpa [Statement.bodyWords] using
        first.trans (ends.spelled.trans others)

end StatementPart

/-! ## The levels of expressions -/

theorem Expression.bindsAt_of_atom
    {token : Token}
    {result : Expression}
    (isAtom : Parser.atom token = .ok result) :
    result.BindsAt primaryLevel := by
  rcases Parser.atom_eq_ok_iff.mp isAtom with ⟨_, _, rfl⟩ | ⟨_, rfl⟩
  · exact ⟨Nat.le_refl _, trivial⟩
  · exact ⟨Nat.le_refl _, trivial⟩

/-- An operator of a level binds as tightly as the level says. -/
theorem Expression.bindsAt_combine
    {left right : Expression}
    {operator : Token}
    {level : Nat}
    (hasLevel : operator.kind.level? = some level)
    (leftBinds : left.BindsAt level)
    (rightBinds : right.BindsAt (level + 1)) :
    (left.combine operator right).BindsAt level := by
  refine ⟨Nat.le_of_eq (level_combine hasLevel left right).symm, ?_⟩
  rw [combine_of_level hasLevel]
  split
  case isTrue isLow =>
    exact ⟨level, hasLevel, isLow, leftBinds, rightBinds⟩
  case isFalse isHigh =>
    exact ⟨level, hasLevel, Nat.not_lt.mp isHigh, leftBinds, rightBinds⟩

namespace ExpressionPart

/-- How the levels of a part go with the rule that it is read by. -/
def Levelled : ExpressionPart → Prop
  | .expression result => result.Levelled
  | .operation level result => level ≤ unaryLevel → result.BindsAt level
  | .operationTail level left result =>
      left.BindsAt level → result.BindsAt level
  | .unary result => result.BindsAt unaryLevel
  | .callTail callee result =>
      callee.BindsAt callLevel → result.BindsAt callLevel
  | .arguments results => Expression.AllLevelled results
  | .argumentList results => Expression.AllLevelled results
  | .primary result => result.BindsAt primaryLevel

/-- A part of an expression is nested as the levels of its operators say. -/
theorem ReadFrom.levelled
    {part : ExpressionPart}
    {tokens rest : List Token}
    (reads : part.ReadFrom tokens rest) :
    part.Levelled := by
  induction reads with
  | plain _ _ target =>
      exact (target (by decide)).2
  | assign _ _ _ _ assigned =>
      exact assigned
  | setAttribute _ _ _ target assigned =>
      exact ⟨(target (by decide)).2, assigned⟩
  | operands isBinary _ _ first tail =>
      intro _
      obtain ⟨tighter, nested⟩ := first isBinary
      exact tail ⟨Nat.le_of_succ_le tighter, nested⟩
  | operand notBinary _ operand =>
      intro atMost
      obtain rfl := Nat.le_antisymm atMost (Nat.not_lt.mp notBinary)
      exact operand
  | noOperator _ =>
      exact id
  | operator hasLevel _ _ second tail =>
      intro leftBinds
      exact tail (Expression.bindsAt_combine hasLevel leftBinds
        (second (TokenKind.level_lt_unaryLevel hasLevel)))
  | sign isUnary _ operand =>
      exact ⟨Nat.le_refl _, isUnary, operand⟩
  | noSign _ _ _ first tail =>
      have called := tail ⟨Nat.le_of_lt first.1, first.2⟩
      exact ⟨Nat.le_of_lt called.1, called.2⟩
  | noCall _ _ =>
      exact id
  | getAttribute _ _ _ tail =>
      intro objectBinds
      exact tail ⟨Nat.le_refl _, objectBinds⟩
  | call _ _ _ _ arguments tail =>
      intro calleeBinds
      exact tail ⟨Nat.le_refl _, calleeBinds, arguments⟩
  | noArguments _ =>
      exact trivial
  | someArguments _ given =>
      exact given
  | lastArgument _ _ last =>
      exact ⟨last, trivial⟩
  | moreArguments _ _ _ first others =>
      exact ⟨first, others⟩
  | grouping _ _ _ content =>
      exact ⟨Nat.le_refl _, content⟩
  | atom isAtom =>
      exact Expression.bindsAt_of_atom isAtom

end ExpressionPart

namespace StatementPart

/-- The expressions that stand in a part. -/
def expressions : StatementPart → List Expression
  | .declaration _ result => result.expressions
  | .statement _ result => result.expressions
  | .branches _ others otherwise =>
      Statement.branchExpressions others ++
        Statement.otherwiseExpressions otherwise
  | .block _ body _ => Statement.bodyExpressions body
  | .statements _ body => Statement.bodyExpressions body

/-- All expressions of a part are nested as the levels of their operators
say. -/
theorem ReadFrom.levelled
    {part : StatementPart}
    {tokens rest : List Token}
    (reads : part.ReadFrom tokens rest) :
    ∀ expression ∈ part.expressions, expression.Levelled := by
  induction reads with
  | variableDeclaration _ _ _ value =>
      exact List.forall_mem_singleton.mpr value.levelled
  | functionDeclaration _ _ _ _ block =>
      exact block
  | simple _ statement =>
      exact statement
  | block _ block =>
      exact block
  | whileLoop _ test _ repeated =>
      exact List.forall_mem_cons.mpr ⟨test.levelled, repeated⟩
  | conditional _ test _ _ chosen more =>
      rw [expressions, Statement.expressions, Statement.branchExpressions,
        List.cons_append, List.cons_append, List.append_assoc]
      exact List.forall_mem_cons.mpr
        ⟨test.levelled, List.forall_mem_append.mpr ⟨chosen, more⟩⟩
  | breakLoop _ _ =>
      nofun
  | continueLoop _ _ =>
      nofun
  | returnNothing _ _ _ =>
      nofun
  | returnValue _ _ result =>
      exact List.forall_mem_singleton.mpr result.levelled
  | expression inner =>
      exact List.forall_mem_singleton.mpr inner.levelled
  | elifBranch _ _ test _ _ chosen more =>
      rw [expressions, Statement.branchExpressions, List.cons_append,
        List.cons_append, List.append_assoc]
      exact List.forall_mem_cons.mpr
        ⟨test.levelled, List.forall_mem_append.mpr ⟨chosen, more⟩⟩
  | elseBranch _ _ _ chosen =>
      exact chosen
  | noBranch _ _ =>
      nofun
  | braces _ _ _ content =>
      exact content
  | noStatement _ =>
      nofun
  | moreStatements _ _ _ first others =>
      exact List.forall_mem_append.mpr ⟨first, others⟩

end StatementPart

/-! ## Programs -/

/-- Tokens that are accepted spell the words of the program, all of them up to the
end of the input except for the line breaks, and the program is nested as the
levels of its operators say. -/
theorem parse_sound
    {tokens : List Token}
    {program : List Statement}
    (accepted : parse tokens = .ok program) :
    List.Forall₂ Token.Spells
        ((tokens.takeWhile fun token => token.kind ≠ .endOfInput).filter
          fun token => token.kind ≠ .newline)
        (Statement.bodyWords [] program) ∧
      ∀ expression ∈ Statement.bodyExpressions program,
        expression.Levelled := by
  have reads := parse_eq_ok_iff.mp accepted
  obtain ⟨used, isUsed, spells⟩ := reads.spelledBy
  rw [List.append_nil] at isUsed
  subst isUsed
  exact ⟨spells, reads.levelled⟩

/-- The loop `while x { a = 1 + 2 * -f(c)`, line break, `break }`. -/
theorem parse_sound_loop :
    let here := Span.emptyAt .origin ⟨"", ""⟩
    let tokens : List Token :=
      [⟨.whileKeyword, "while", here⟩, ⟨.identifier, "x", here⟩,
        ⟨.leftBrace, "\x7b", here⟩, ⟨.identifier, "a", here⟩,
        ⟨.equal, "=", here⟩, ⟨.int, "1", here⟩, ⟨.plus, "+", here⟩,
        ⟨.int, "2", here⟩, ⟨.star, "*", here⟩, ⟨.dash, "-", here⟩,
        ⟨.identifier, "f", here⟩, ⟨.leftParen, "(", here⟩,
        ⟨.identifier, "c", here⟩, ⟨.rightParen, ")", here⟩,
        ⟨.newline, "\n", here⟩, ⟨.breakKeyword, "break", here⟩,
        ⟨.rightBrace, "\x7d", here⟩, ⟨.endOfInput, "", here⟩]
    let assignment : Expression :=
      .assign "a"
        (.binary (.literal (.int 1) here) ⟨.plus, "+"⟩
          (.binary (.literal (.int 2) here) ⟨.star, "*"⟩
            (.unary ⟨.dash, "-"⟩
              (.call (.reference "f" here) [.reference "c" here] here) here)
            here)
          here)
        here
    let program : List Statement :=
      [.whileLoop (.reference "x" here)
        (.block [.expression assignment, .breakLoop here] here) here]
    parse tokens = .ok program ∧
      List.Forall₂ Token.Spells
        ((tokens.takeWhile fun token => token.kind ≠ .endOfInput).filter
          fun token => token.kind ≠ .newline)
        (Statement.bodyWords [] program) ∧
      ∀ expression ∈ Statement.bodyExpressions program,
        expression.Levelled :=
  ⟨rfl, parse_sound rfl⟩

end Scriptlet
