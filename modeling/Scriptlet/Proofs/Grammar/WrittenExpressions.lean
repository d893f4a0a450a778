import Mathlib.Data.Nat.Init
import Scriptlet.Proofs.Grammar.Reading
import Scriptlet.Proofs.Tree.Bare
import Scriptlet.Proofs.Tree.Words

namespace Scriptlet

/-!
# Reading expressions that were written out

An expression that is nested by its levels can be read back from tokens that spell
its words, provided that the token behind them does not extend it.  The operators
of one level are read from left to right, so what is shown of an operand is that
reading can go on behind it.
-/

/-- Tokens that spell the words of two parts in a row. -/
theorem exists_of_spells_append
    {used : List Token}
    {first second : List Word}
    (spells : List.Forall₂ Token.Spells used (first ++ second)) :
    ∃ usedFirst usedSecond, used = usedFirst ++ usedSecond ∧
      List.Forall₂ Token.Spells usedFirst first ∧
      List.Forall₂ Token.Spells usedSecond second :=
  ⟨_, _, (List.take_append_drop first.length used).symm,
    List.forall₂_take_append used first second spells,
    List.forall₂_drop_append used first second spells⟩

/-! ## What may stand behind an expression -/

/-- Whether a token of the given kind goes on with a call. -/
def TokenKind.extendsCall (kind : TokenKind) : Bool :=
  kind = .dot || kind = .leftParen

/-- Whether a token of the given kind goes on with an expression. -/
def TokenKind.extendsExpression (kind : TokenKind) : Bool :=
  kind.extendsCall || kind.level?.isSome || kind = .equal

/-- Whether a token of the given kind goes on neither with a call nor with an
operator that binds tighter than the level. -/
def TokenKind.StopsAbove (level : Nat) (kind : TokenKind) : Prop :=
  kind.extendsCall = false ∧ ∀ other, kind.level? = some other → other ≤ level

theorem TokenKind.stopsAbove_of_level
    {kind : TokenKind}
    {level : Nat}
    (hasLevel : kind.level? = some level) :
    kind.StopsAbove level := by
  constructor
  · cases kind <;> first | rfl | cases hasLevel
  · intro other isOther
    rw [hasLevel] at isOther
    cases isOther
    exact Nat.le_refl _

theorem TokenKind.stopsAbove_zero
    {kind : TokenKind}
    (notExtends : kind.extendsExpression = false) :
    kind.StopsAbove 0 := by
  simp only [extendsExpression, Bool.or_eq_false_iff] at notExtends
  obtain ⟨⟨notCall, noLevel⟩, _⟩ := notExtends
  refine ⟨notCall, ?_⟩
  intro other isOther
  simp [isOther] at noLevel

theorem TokenKind.stopsAbove_of_equal
    {equals : Token}
    {rest : List Token}
    (isEqual : equals.kind = .equal) :
    (nextKind (equals :: rest)).StopsAbove 0 := by
  rw [nextKind_cons, isEqual]
  exact ⟨rfl, nofun⟩

theorem TokenKind.StopsAbove.mono
    {kind : TokenKind}
    {level higher : Nat}
    (stops : kind.StopsAbove level)
    (atMost : level ≤ higher) :
    kind.StopsAbove higher :=
  ⟨stops.1, fun other isOther => Nat.le_trans (stops.2 other isOther) atMost⟩

/-! ## Expressions that can be read back -/

/-- That an expression is read from tokens as the first operand of a level: reading
goes on behind it with the operators of the level. -/
def Expression.OperandAt
    (level : Nat)
    (expression : Expression)
    (used : List Token) :
    Prop :=
  ∀ rest final result, (nextKind rest).StopsAbove level →
    (ExpressionPart.operationTail level expression result).ReadFrom rest final →
    (ExpressionPart.operation level result).ReadFrom (used ++ rest) final

/-- That an expression is read from tokens wherever it may stand: as an operand, on
its own, and as a callee behind which reading goes on with what is called. -/
structure Expression.ReadBack (expression : Expression) (used : List Token) :
    Prop where
  asOperand : ∀ level, level < unaryLevel → level ≤ expression.level →
    expression.OperandAt level used
  asUnary : unaryLevel ≤ expression.level →
    ∀ rest, (nextKind rest).extendsCall = false →
      (ExpressionPart.unary expression).ReadFrom (used ++ rest) rest
  asCallee : callLevel ≤ expression.level →
    ∀ rest final result,
      (ExpressionPart.callTail expression result).ReadFrom rest final →
      (ExpressionPart.unary result).ReadFrom (used ++ rest) final

namespace Expression

/-- A first operand that no operator of its level follows is a whole operation. -/
theorem OperandAt.operation
    {expression : Expression}
    {used rest : List Token}
    {level : Nat}
    (operand : expression.OperandAt (level + 1) used)
    (stops : (nextKind rest).StopsAbove level) :
    (ExpressionPart.operation (level + 1) expression).ReadFrom (used ++ rest)
      rest := by
  have otherLevel : (nextKind rest).level? ≠ some (level + 1) := by
    intro isLevel
    exact absurd (stops.2 _ isLevel) (Nat.not_succ_le_self level)
  exact operand rest rest expression (stops.mono (Nat.le_succ level))
    (.noOperator otherLevel)

/-- A first operand of a level is one of all lower levels. -/
theorem OperandAt.of_le
    {expression : Expression}
    {used : List Token}
    {top level : Nat}
    (operand : expression.OperandAt top used)
    (isBinary : top < unaryLevel)
    (atMost : level ≤ top) :
    expression.OperandAt level used := by
  induction atMost using Nat.decreasingInduction with
  | self =>
      exact operand
  | of_succ lower below inductionHypothesis =>
      intro rest final result stops tail
      exact .operands (Nat.lt_trans below isBinary)
        (inductionHypothesis.operation stops) tail

/-- What is read as a unary expression is a first operand of every level. -/
theorem OperandAt.of_unary
    {expression : Expression}
    {used : List Token}
    {level : Nat}
    (reads : ∀ rest, (nextKind rest).extendsCall = false →
      (ExpressionPart.unary expression).ReadFrom (used ++ rest) rest)
    (isBinary : level < unaryLevel) :
    expression.OperandAt level used := by
  have highest : expression.OperandAt (unaryLevel - 1) used := by
    intro rest final result stops tail
    exact .operands (by decide) (.operand (by decide) (reads rest stops.1)) tail
  exact highest.of_le (by decide) (Nat.le_sub_one_of_lt isBinary)

namespace ReadBack

/-- An expression that binds tighter than a level, in front of what does not. -/
theorem operation
    {expression : Expression}
    {used rest : List Token}
    {level : Nat}
    (readBack : expression.ReadBack used)
    (binds : level < expression.level)
    (stops : (nextKind rest).StopsAbove level) :
    (ExpressionPart.operation (level + 1) expression).ReadFrom (used ++ rest)
      rest := by
  by_cases isHigher : level + 1 < unaryLevel
  · exact (readBack.asOperand _ isHigher binds).operation stops
  · have isUnary : unaryLevel ≤ expression.level :=
      Nat.le_trans (Nat.not_lt.mp isHigher) binds
    exact .operand isHigher (readBack.asUnary isUnary rest stops.1)

/-- What is read as a callee is read at every level. -/
theorem of_callee
    {expression : Expression}
    {used : List Token}
    (reads : ∀ rest final result,
      (ExpressionPart.callTail expression result).ReadFrom rest final →
      (ExpressionPart.unary result).ReadFrom (used ++ rest) final) :
    expression.ReadBack used := by
  have readsAlone : ∀ rest, (nextKind rest).extendsCall = false →
      (ExpressionPart.unary expression).ReadFrom (used ++ rest) rest := by
    intro rest notExtends
    simp only [TokenKind.extendsCall, Bool.or_eq_false_iff,
      decide_eq_false_iff_not] at notExtends
    exact reads rest rest expression (.noCall notExtends.1 notExtends.2)
  exact ⟨fun _ isBinary _ => .of_unary readsAlone isBinary,
    fun _ => readsAlone, fun _ => reads⟩

/-- What is read on its own is read at every level, unless it looks like a
sign. -/
theorem of_primary
    {expression : Expression}
    {token : Token}
    {used : List Token}
    (notUnary : token.kind.isUnary = false)
    (reads : ∀ rest,
      (ExpressionPart.primary expression).ReadFrom (token :: used ++ rest)
        rest) :
    expression.ReadBack (token :: used) :=
  of_callee fun rest _ _ tail => .noSign notUnary (reads rest) tail

theorem name
    {token : Token}
    (isName : token.kind = .identifier) :
    (Expression.reference token.lexeme token.span).ReadBack [token] := by
  apply of_primary
  · rw [isName]
    rfl
  · intro rest
    exact .atom (Parser.atom_eq_ok_iff.mpr (.inr ⟨isName, rfl⟩))

theorem getAttribute
    {object : Expression}
    {dot name : Token}
    {used : List Token}
    (readBack : object.ReadBack used)
    (isCallee : callLevel ≤ object.level)
    (isDot : dot.kind = .dot)
    (isName : name.kind = .identifier) :
    (Expression.ofGetAttribute object name.lexeme name.span).ReadBack
      (used ++ [dot, name]) := by
  apply of_callee
  intro rest final result tail
  rw [List.append_assoc]
  exact readBack.asCallee isCallee _ _ _ (.getAttribute isDot isName tail)

theorem call
    {callee : Expression}
    {arguments : List Expression}
    {opening closing : Token}
    {used usedArguments : List Token}
    (readBack : callee.ReadBack used)
    (isCallee : callLevel ≤ callee.level)
    (isOpening : opening.kind = .leftParen)
    (isClosing : closing.kind = .rightParen)
    (reads : ∀ rest, nextKind rest = .rightParen →
      (ExpressionPart.arguments arguments).ReadFrom (usedArguments ++ rest)
        rest) :
    (Expression.ofCall callee arguments closing.span).ReadBack
      (used ++ opening :: usedArguments ++ [closing]) := by
  apply of_callee
  intro rest final result tail
  have given := reads (closing :: rest) isClosing
  have called := readBack.asCallee isCallee _ _ _
    (.call isOpening given isClosing tail)
  simpa using called

theorem unary
    {operand : Expression}
    {operator : Token}
    {used : List Token}
    (readBack : operand.ReadBack used)
    (binds : unaryLevel ≤ operand.level)
    (isUnary : operator.kind.isUnary = true) :
    (Expression.ofUnary operator operand).ReadBack (operator :: used) := by
  have reads : ∀ rest, (nextKind rest).extendsCall = false →
      (ExpressionPart.unary (Expression.ofUnary operator operand)).ReadFrom
        (operator :: used ++ rest) rest :=
    fun rest notExtends =>
      .sign isUnary (readBack.asUnary binds rest notExtends)
  exact ⟨fun _ isBinary _ => .of_unary reads isBinary, fun _ => reads, nofun⟩

theorem combine
    {left right : Expression}
    {operator : Token}
    {usedLeft usedRight : List Token}
    {level : Nat}
    (leftBack : left.ReadBack usedLeft)
    (rightBack : right.ReadBack usedRight)
    (hasLevel : operator.kind.level? = some level)
    (leftBinds : level ≤ left.level)
    (rightBinds : level < right.level) :
    (left.combine operator right).ReadBack
      (usedLeft ++ operator :: usedRight) := by
  have isLevel := level_combine hasLevel left right
  have isBinary := TokenKind.level_lt_unaryLevel hasLevel
  have operand : (left.combine operator right).OperandAt level
      (usedLeft ++ operator :: usedRight) := by
    intro rest final result stops tail
    have second := rightBack.operation rightBinds stops
    have stopsLeft : (nextKind (operator :: usedRight ++ rest)).StopsAbove
        level :=
      TokenKind.stopsAbove_of_level hasLevel
    rw [List.append_assoc]
    exact leftBack.asOperand level isBinary leftBinds _ _ _ stopsLeft
      (.operator hasLevel second tail)
  refine ⟨?_, ?_, ?_⟩
  · intro lower _ atMost
    exact operand.of_le isBinary (isLevel ▸ atMost)
  · intro tooHigh
    rw [isLevel] at tooHigh
    exact absurd isBinary (Nat.not_lt.mpr tooHigh)
  · intro tooHigh
    rw [isLevel] at tooHigh
    exact absurd isBinary (Nat.not_lt.mpr (Nat.le_of_lt tooHigh))

/-- An expression that binds tighter than an assignment, in front of what does not
extend it. -/
theorem expression
    {expression : Expression}
    {used rest : List Token}
    (readBack : expression.ReadBack used)
    (binds : 0 < expression.level)
    (notExtends : (nextKind rest).extendsExpression = false) :
    (ExpressionPart.expression expression).ReadFrom (used ++ rest) rest := by
  have target :=
    readBack.operation binds (TokenKind.stopsAbove_zero notExtends)
  refine .plain target ?_
  intro isEqual
  rw [isEqual] at notExtends
  cases notExtends

end ReadBack

/-! ## Every levelled expression can be read back -/

/-- That an expression is read back, up to spans, from all tokens that spell its
words. -/
structure Readable (expression : Expression) : Prop where
  inside : 0 < expression.level →
    ∀ used, List.Forall₂ Token.Spells used expression.words →
      ∃ result : Expression, result.bare = expression.bare ∧
        result.ReadBack used
  alone : ∀ used, List.Forall₂ Token.Spells used expression.words →
    ∃ result : Expression, result.bare = expression.bare ∧
      ∀ rest, (nextKind rest).extendsExpression = false →
        (ExpressionPart.expression result).ReadFrom (used ++ rest) rest

theorem level_eq_of_bare
    {first second : Expression}
    (alike : first.bare = second.bare) :
    first.level = second.level := by
  have levels := congrArg level alike
  simpa [bare] using levels

namespace Readable

/-- An expression that binds tighter than an assignment need only be read inside
others. -/
theorem of_inside
    {expression : Expression}
    (binds : 0 < expression.level)
    (inside : ∀ used, List.Forall₂ Token.Spells used expression.words →
      ∃ result : Expression, result.bare = expression.bare ∧
        result.ReadBack used) :
    expression.Readable where
  inside := fun _ => inside
  alone := by
    intro used spells
    obtain ⟨result, alike, readBack⟩ := inside used spells
    rw [← level_eq_of_bare alike] at binds
    exact ⟨result, alike, fun rest => readBack.expression binds⟩

/-- An operand, a callee or an object is read back at the same level. -/
theorem exists_readBack
    {expression : Expression}
    {used : List Token}
    {level : Nat}
    (readable : expression.Readable)
    (binds : level ≤ expression.level)
    (positive : 0 < level)
    (spells : List.Forall₂ Token.Spells used expression.words) :
    ∃ result : Expression, result.bare = expression.bare ∧
      level ≤ result.level ∧ result.ReadBack used := by
  obtain ⟨result, alike, readBack⟩ :=
    readable.inside (Nat.lt_of_lt_of_le positive binds) used spells
  exact ⟨result, alike, level_eq_of_bare alike ▸ binds, readBack⟩

theorem literal (value : Literal) (span : Span) :
    (Expression.literal value span).Readable := by
  refine of_inside (Nat.succ_pos _) ?_
  intro used spells
  obtain ⟨token, _, isLiteral, ends, rfl⟩ :=
    List.forall₂_cons_right_iff.mp spells
  cases ends
  have notUnary : token.kind.isUnary = false := by
    rw [Token.kind_of_literal? isLiteral]
    exact value.isUnary_tokenKind
  exact ⟨.literal value token.span, rfl,
    .of_primary notUnary fun rest =>
      .atom (Parser.atom_eq_ok_iff.mpr (.inl ⟨value, isLiteral, rfl⟩))⟩

theorem reference (name : String) (span : Span) :
    (Expression.reference name span).Readable := by
  refine of_inside (Nat.succ_pos _) ?_
  intro used spells
  obtain ⟨token, _, ⟨isName, rfl⟩, ends, rfl⟩ :=
    List.forall₂_cons_right_iff.mp spells
  cases ends
  exact ⟨.reference token.lexeme token.span, rfl, .name isName⟩

theorem getAttribute
    {object : Expression}
    (readable : object.Readable)
    (binds : callLevel ≤ object.level)
    (name : String)
    (span : Span) :
    (Expression.getAttribute object name span).Readable := by
  refine of_inside (Nat.succ_pos _) ?_
  intro used spells
  obtain ⟨usedObject, _, rfl, spellsObject, spellsAttribute⟩ :=
    exists_of_spells_append spells
  obtain ⟨dot, _, isDot, spellsName, rfl⟩ :=
    List.forall₂_cons_right_iff.mp spellsAttribute
  obtain ⟨token, _, ⟨isName, rfl⟩, ends, rfl⟩ :=
    List.forall₂_cons_right_iff.mp spellsName
  cases ends
  obtain ⟨result, alike, resultBinds, readBack⟩ :=
    readable.exists_readBack binds (by decide) spellsObject
  exact ⟨_, by simpa [bare, ofGetAttribute, mapSpans] using alike,
    readBack.getAttribute resultBinds isDot isName⟩

theorem unary
    {operator : Operator}
    {operand : Expression}
    (readable : operand.Readable)
    (isUnary : operator.kind.isUnary = true)
    (binds : unaryLevel ≤ operand.level)
    (span : Span) :
    (Expression.unary operator operand span).Readable := by
  refine of_inside (Nat.succ_pos _) ?_
  intro used spells
  obtain ⟨token, usedOperand, rfl, spellsOperand, rfl⟩ :=
    List.forall₂_cons_right_iff.mp spells
  obtain ⟨result, alike, resultBinds, readBack⟩ :=
    readable.exists_readBack binds (by decide) spellsOperand
  exact ⟨_, by simpa [bare, ofUnary, mapSpans] using alike,
    readBack.unary resultBinds isUnary⟩

theorem combine
    {left right : Expression}
    {operator : Operator}
    {level : Nat}
    (leftReadable : left.Readable)
    (rightReadable : right.Readable)
    (hasLevel : operator.kind.level? = some level)
    (leftBinds : level ≤ left.level)
    (rightBinds : level < right.level)
    {used : List Token}
    (spells : List.Forall₂ Token.Spells used
      (left.words ++ .operator operator :: right.words)) :
    ∃ (leftResult rightResult : Expression) (token : Token),
      leftResult.bare = left.bare ∧ rightResult.bare = right.bare ∧
      token.operator = operator ∧
      (leftResult.combine token rightResult).ReadBack used := by
  obtain ⟨usedLeft, _, rfl, spellsLeft, spellsOperation⟩ :=
    exists_of_spells_append spells
  obtain ⟨token, usedRight, rfl, spellsRight, rfl⟩ :=
    List.forall₂_cons_right_iff.mp spellsOperation
  have positive := TokenKind.level_pos hasLevel
  obtain ⟨leftResult, leftAlike, leftResultBinds, leftBack⟩ :=
    leftReadable.exists_readBack leftBinds positive spellsLeft
  obtain ⟨rightResult, rightAlike, rightResultBinds, rightBack⟩ :=
    rightReadable.exists_readBack rightBinds (Nat.succ_pos level) spellsRight
  exact ⟨leftResult, rightResult, token, leftAlike, rightAlike, rfl,
    leftBack.combine rightBack hasLevel leftResultBinds rightResultBinds⟩

theorem binary
    {left right : Expression}
    {operator : Operator}
    {level : Nat}
    (leftReadable : left.Readable)
    (rightReadable : right.Readable)
    (hasLevel : operator.kind.level? = some level)
    (isHigh : 3 ≤ level)
    (leftBinds : level ≤ left.level)
    (rightBinds : level < right.level)
    (span : Span) :
    (Expression.binary left operator right span).Readable := by
  apply of_inside
  · simpa [Expression.level, hasLevel] using TokenKind.level_pos hasLevel
  intro used spells
  obtain ⟨leftResult, rightResult, token, leftAlike, rightAlike, rfl, readBack⟩ :=
    combine leftReadable rightReadable hasLevel leftBinds rightBinds spells
  refine ⟨_, ?_, readBack⟩
  rw [combine_of_level hasLevel, if_neg (Nat.not_lt.mpr isHigh)]
  simpa [bare, ofBinary, mapSpans] using And.intro leftAlike rightAlike

theorem logical
    {left right : Expression}
    {operator : Operator}
    {level : Nat}
    (leftReadable : left.Readable)
    (rightReadable : right.Readable)
    (hasLevel : operator.kind.level? = some level)
    (isLow : level < 3)
    (leftBinds : level ≤ left.level)
    (rightBinds : level < right.level)
    (span : Span) :
    (Expression.logical left operator right span).Readable := by
  apply of_inside
  · simpa [Expression.level, hasLevel] using TokenKind.level_pos hasLevel
  intro used spells
  obtain ⟨leftResult, rightResult, token, leftAlike, rightAlike, rfl, readBack⟩ :=
    combine leftReadable rightReadable hasLevel leftBinds rightBinds spells
  refine ⟨_, ?_, readBack⟩
  rw [combine_of_level hasLevel, if_pos isLow]
  simpa [bare, ofLogical, mapSpans] using And.intro leftAlike rightAlike

theorem grouping
    {inner : Expression}
    (readable : inner.Readable)
    (span : Span) :
    (Expression.grouping inner span).Readable := by
  refine of_inside (Nat.succ_pos _) ?_
  intro used spells
  obtain ⟨opening, _, isOpening, spellsInside, rfl⟩ :=
    List.forall₂_cons_right_iff.mp spells
  obtain ⟨usedInner, _, rfl, spellsInner, spellsClosing⟩ :=
    exists_of_spells_append spellsInside
  obtain ⟨closing, _, isClosing, ends, rfl⟩ :=
    List.forall₂_cons_right_iff.mp spellsClosing
  cases ends
  obtain ⟨result, alike, reads⟩ := readable.alone usedInner spellsInner
  refine ⟨.ofGrouping opening.span result closing.span,
    by simpa [bare, ofGrouping, mapSpans] using alike, ?_⟩
  apply ReadBack.of_primary
  · rw [show opening.kind = .leftParen from isOpening]
    rfl
  · intro rest
    have content := reads (closing :: rest) (by
      rw [nextKind_cons, show closing.kind = .rightParen from isClosing]
      rfl)
    simpa using ExpressionPart.ReadFrom.grouping isOpening content isClosing

theorem assign
    {value : Expression}
    (readable : value.Readable)
    (name : String)
    (span : Span) :
    (Expression.assign name value span).Readable where
  inside := nofun
  alone := by
    intro used spells
    obtain ⟨token, _, ⟨isName, rfl⟩, spellsAssigned, rfl⟩ :=
      List.forall₂_cons_right_iff.mp spells
    obtain ⟨equals, usedValue, isEqual, spellsValue, rfl⟩ :=
      List.forall₂_cons_right_iff.mp spellsAssigned
    obtain ⟨result, alike, reads⟩ := readable.alone usedValue spellsValue
    refine ⟨.ofAssign token.lexeme token.span result,
      by simpa [bare, ofAssign, mapSpans] using alike, ?_⟩
    intro rest notExtends
    have target : (ExpressionPart.operation 1
        (.reference token.lexeme token.span)).ReadFrom
        ([token] ++ equals :: (usedValue ++ rest))
        (equals :: (usedValue ++ rest)) :=
      (ReadBack.name isName).operation (Nat.succ_pos _)
        (TokenKind.stopsAbove_of_equal isEqual)
    exact .assign target isEqual (reads rest notExtends)

theorem setAttribute
    {object value : Expression}
    (objectReadable : object.Readable)
    (binds : callLevel ≤ object.level)
    (valueReadable : value.Readable)
    (name : String)
    (span : Span) :
    (Expression.setAttribute object name value span).Readable where
  inside := nofun
  alone := by
    intro used spells
    obtain ⟨usedObject, _, rfl, spellsObject, spellsAttribute⟩ :=
      exists_of_spells_append spells
    obtain ⟨dot, _, isDot, spellsName, rfl⟩ :=
      List.forall₂_cons_right_iff.mp spellsAttribute
    obtain ⟨token, _, ⟨isName, rfl⟩, spellsAssigned, rfl⟩ :=
      List.forall₂_cons_right_iff.mp spellsName
    obtain ⟨equals, usedValue, isEqual, spellsValue, rfl⟩ :=
      List.forall₂_cons_right_iff.mp spellsAssigned
    obtain ⟨target, targetAlike, targetBinds, readBack⟩ :=
      objectReadable.exists_readBack binds (by decide) spellsObject
    obtain ⟨result, alike, reads⟩ := valueReadable.alone usedValue spellsValue
    refine ⟨.ofSetAttribute target token.lexeme
      (target.span.through token.span) result, ?_, ?_⟩
    · simpa [bare, ofSetAttribute, mapSpans] using And.intro targetAlike alike
    intro rest notExtends
    have stops : (nextKind (equals :: (usedValue ++ rest))).StopsAbove 0 :=
      TokenKind.stopsAbove_of_equal isEqual
    have selected := (readBack.getAttribute targetBinds isDot isName).operation
      (Nat.succ_pos _) stops
    have assigned := ExpressionPart.ReadFrom.setAttribute selected isEqual
      (reads rest notExtends)
    simpa using assigned

/-- Arguments are read up to the parenthesis that closes them. -/
theorem argumentList
    {arguments : List Expression}
    (readable : ∀ argument ∈ arguments, argument.Readable)
    (someArguments : arguments ≠ [])
    {used : List Token}
    (spells : List.Forall₂ Token.Spells used
      (commaSeparated (wordsOfEach arguments))) :
    ∃ results : List Expression, results.map bare = arguments.map bare ∧
      ∀ rest, nextKind rest = .rightParen →
        (ExpressionPart.argumentList results).ReadFrom (used ++ rest) rest := by
  induction arguments generalizing used with
  | nil =>
      exact absurd rfl someArguments
  | cons first others inductionHypothesis =>
      obtain ⟨firstReadable, othersReadable⟩ :=
        List.forall_mem_cons.mp readable
      by_cases isLast : others = []
      · subst isLast
        rw [wordsOfEach, wordsOfEach, commaSeparated_singleton] at spells
        obtain ⟨result, alike, reads⟩ := firstReadable.alone used spells
        refine ⟨[result], by simp [alike], ?_⟩
        intro rest isClosing
        exact .lastArgument (reads rest (by rw [isClosing]; rfl))
          (by simp [isClosing])
      · rw [wordsOfEach, commaSeparated_cons _ (by simpa using isLast)]
          at spells
        obtain ⟨usedFirst, _, rfl, spellsFirst, spellsOthers⟩ :=
          exists_of_spells_append spells
        obtain ⟨comma, usedOthers, isComma, spellsRest, rfl⟩ :=
          List.forall₂_cons_right_iff.mp spellsOthers
        obtain ⟨result, alike, reads⟩ :=
          firstReadable.alone usedFirst spellsFirst
        obtain ⟨results, othersAlike, readsOthers⟩ :=
          inductionHypothesis othersReadable isLast spellsRest
        refine ⟨result :: results, by simp [alike, othersAlike], ?_⟩
        intro rest isClosing
        have read := reads (comma :: (usedOthers ++ rest)) (by
          rw [nextKind_cons, show comma.kind = .comma from isComma]
          rfl)
        simpa using ExpressionPart.ReadFrom.moreArguments read isComma
          (readsOthers rest isClosing)

theorem call
    {callee : Expression}
    {arguments : List Expression}
    (calleeReadable : callee.Readable)
    (binds : callLevel ≤ callee.level)
    (readable : ∀ argument ∈ arguments, argument.Readable)
    (span : Span) :
    (Expression.call callee arguments span).Readable := by
  refine of_inside (Nat.succ_pos _) ?_
  intro used spells
  obtain ⟨_, _, rfl, spellsOpened, spellsClosing⟩ :=
    exists_of_spells_append spells
  obtain ⟨usedCallee, _, rfl, spellsCallee, spellsGiven⟩ :=
    exists_of_spells_append spellsOpened
  obtain ⟨opening, usedArguments, isOpening, spellsArguments, rfl⟩ :=
    List.forall₂_cons_right_iff.mp spellsGiven
  obtain ⟨closing, _, isClosing, ends, rfl⟩ :=
    List.forall₂_cons_right_iff.mp spellsClosing
  cases ends
  obtain ⟨result, alike, resultBinds, readBack⟩ :=
    calleeReadable.exists_readBack binds (by decide) spellsCallee
  have given : ∃ results : List Expression,
      results.map bare = arguments.map bare ∧
      ∀ rest, nextKind rest = .rightParen →
        (ExpressionPart.arguments results).ReadFrom (usedArguments ++ rest)
          rest := by
    by_cases noArguments : arguments = []
    · subst noArguments
      cases spellsArguments
      exact ⟨[], rfl, fun rest isClosing => .noArguments isClosing⟩
    · obtain ⟨results, argumentsAlike, reads⟩ :=
        argumentList readable noArguments spellsArguments
      exact ⟨results, argumentsAlike,
        fun rest isClosing => .someArguments (reads rest isClosing)⟩
  obtain ⟨results, argumentsAlike, reads⟩ := given
  refine ⟨_, ?_, readBack.call resultBinds isOpening isClosing reads⟩
  simpa [bare, ofCall, mapSpans] using And.intro alike argumentsAlike

end Readable

mutual

/-- Whatever is nested by its levels can be read back. -/
theorem readable_of_levelled : ∀ expression : Expression,
    expression.Levelled → expression.Readable
  | .literal value span, _ => .literal value span
  | .reference name span, _ => .reference name span
  | .assign name value span, nested =>
      .assign (readable_of_levelled value nested) name span
  | .getAttribute object name span, ⟨binds, nested⟩ =>
      .getAttribute (readable_of_levelled object nested) binds name span
  | .setAttribute object name value span, ⟨⟨binds, nested⟩, valueNested⟩ =>
      .setAttribute (readable_of_levelled object nested) binds
        (readable_of_levelled value valueNested) name span
  | .unary _ operand span, ⟨isUnary, binds, nested⟩ =>
      .unary (readable_of_levelled operand nested) isUnary binds span
  | .binary left _ right span,
      ⟨_, hasLevel, isHigh, ⟨leftBinds, leftNested⟩, rightBinds,
        rightNested⟩ =>
      .binary (readable_of_levelled left leftNested)
        (readable_of_levelled right rightNested) hasLevel isHigh leftBinds
        rightBinds span
  | .logical left _ right span,
      ⟨_, hasLevel, isLow, ⟨leftBinds, leftNested⟩, rightBinds,
        rightNested⟩ =>
      .logical (readable_of_levelled left leftNested)
        (readable_of_levelled right rightNested) hasLevel isLow leftBinds
        rightBinds span
  | .grouping inner span, nested =>
      .grouping (readable_of_levelled inner nested) span
  | .call callee arguments span, ⟨⟨binds, nested⟩, argumentsNested⟩ =>
      .call (readable_of_levelled callee nested) binds
        (readable_of_allLevelled arguments argumentsNested) span

theorem readable_of_allLevelled : ∀ expressions : List Expression,
    AllLevelled expressions →
    ∀ expression ∈ expressions, expression.Readable
  | [], _ => nofun
  | first :: others, ⟨nested, othersNested⟩ =>
      List.forall_mem_cons.mpr
        ⟨readable_of_levelled first nested,
          readable_of_allLevelled others othersNested⟩

end

end Expression

end Scriptlet
