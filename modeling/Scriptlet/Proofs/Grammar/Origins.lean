import Scriptlet.Proofs.Grammar.Soundness
import Scriptlet.Proofs.Source.Counting
import Scriptlet.Proofs.Tree.Nesting

namespace Scriptlet

/-!
# The tokens that a tree is built from

A node of a tree is built from a run of tokens, and each of its parts from a run of
tokens inside that one.  The tokens spell the words of the node, and if they follow
one another in a text, the span of the node reaches from the first of them to the
last.
-/

/-! ## Spans of runs of tokens -/

theorem infix_first (front behind : List Token) :
    front <:+: front ++ behind :=
  (List.prefix_append front behind).isInfix

theorem infix_last (front between behind : List Token) :
    behind <:+: front ++ (between ++ behind) :=
  ((List.suffix_append between behind).trans (List.suffix_append front _)).isInfix

/-- That a place does not come before another one. -/
def Position.NotBefore (position other : Position) : Prop :=
  position.precedes other = false

theorem Position.NotBefore.refl (position : Position) :
    position.NotBefore position := by
  simp [NotBefore, precedes]

theorem Position.NotBefore.trans
    {first second third : Position}
    (later : third.NotBefore second)
    (earlier : second.NotBefore first) :
    third.NotBefore first := by
  simp only [NotBefore, precedes, Bool.or_eq_false_iff, Bool.and_eq_false_iff,
    decide_eq_false_iff_not, beq_eq_false_iff_ne] at later earlier ⊢
  omega

/-- That tokens of a source follow one another without overlap. -/
structure LaidOut (source : SourceUnit) (tokens : List Token) : Prop where
  source_eq : ∀ token ∈ tokens, token.span.source = source
  forwards : ∀ token ∈ tokens, token.span.stop.NotBefore token.span.start
  ordered : tokens.Pairwise fun first second =>
    second.span.start.NotBefore first.span.stop

theorem LaidOut.of_sublist
    {source : SourceUnit}
    {tokens some : List Token}
    (laidOut : LaidOut source tokens)
    (areSome : List.Sublist some tokens) :
    LaidOut source some where
  source_eq := fun token member =>
    laidOut.source_eq token (areSome.subset member)
  forwards := fun token member =>
    laidOut.forwards token (areSome.subset member)
  ordered := laidOut.ordered.sublist areSome

theorem LaidOut.of_part
    {source : SourceUnit}
    {tokens part : List Token}
    (laidOut : LaidOut source tokens)
    (isPart : part <:+: tokens) :
    LaidOut source part :=
  laidOut.of_sublist isPart.sublist

theorem LaidOut.first
    {source : SourceUnit}
    {front behind : List Token}
    (laidOut : LaidOut source (front ++ behind)) :
    LaidOut source front :=
  laidOut.of_part (List.prefix_append front behind).isInfix

theorem LaidOut.second
    {source : SourceUnit}
    {front behind : List Token}
    (laidOut : LaidOut source (front ++ behind)) :
    LaidOut source behind :=
  laidOut.of_part (List.suffix_append front behind).isInfix

/-- That a span reaches from the first token of a run to the last. -/
structure Span.Encloses (span : Span) (used : List Token) : Prop where
  reaches : ∃ first last, used.head? = some first ∧ used.getLast? = some last ∧
    span = ⟨first.span.start, last.span.stop, first.span.source⟩

theorem Span.Encloses.single (token : Token) :
    token.span.Encloses [token] :=
  ⟨token, token, rfl, rfl, rfl⟩

/-- From the start of a run to the end of a later one. -/
theorem Span.Encloses.through
    {source : SourceUnit}
    {first last : Span}
    {usedFirst usedLast : List Token}
    (firstEncloses : first.Encloses usedFirst)
    (lastEncloses : last.Encloses usedLast)
    (between : List Token)
    (laidOut : LaidOut source (usedFirst ++ (between ++ usedLast))) :
    (first.through last).Encloses (usedFirst ++ (between ++ usedLast)) := by
  obtain ⟨opening, middle, isOpening, isMiddle, rfl⟩ := firstEncloses
  obtain ⟨inside, closing, isInside, isClosing, rfl⟩ := lastEncloses
  have openingMember : opening ∈ usedFirst := List.mem_of_mem_head? isOpening
  have closingMember : closing ∈ between ++ usedLast :=
    List.mem_append_right _ (List.mem_of_getLast? isClosing)
  have ordered : closing.span.start.NotBefore opening.span.stop :=
    (List.pairwise_append.mp laidOut.ordered).2.2 opening openingMember closing
      closingMember
  have openingForwards := laidOut.forwards opening
    (List.mem_append_left _ openingMember)
  have closingForwards := laidOut.forwards closing
    (List.mem_append_right _ closingMember)
  have notBefore : closing.span.stop.precedes opening.span.start = false :=
    closingForwards.trans (ordered.trans openingForwards)
  refine ⟨opening, closing, ?_, ?_, ?_⟩
  · rw [List.head?_append, isOpening]
    rfl
  · rw [List.getLast?_append, List.getLast?_append, isClosing]
    rfl
  · rw [Span.through, Position.latest, if_neg (by simp [notBefore])]

/-! ## Expressions -/

theorem Expression.span_combine
    (left right : Expression)
    (operator : Token) :
    (left.combine operator right).span = left.span.through right.span := by
  unfold combine
  split <;> rfl

theorem Expression.operands_combine
    (left right : Expression)
    (operator : Token) :
    (left.combine operator right).operands = [left, right] := by
  unfold combine
  split <;> rfl

/-- An expression, or the arguments of a call. -/
inductive Composed where
  | expression (result : Expression)
  | arguments (results : List Expression)

/-- The run of tokens that an expression, or the arguments of a call, are built
from. -/
inductive Composed.BuiltFrom : Composed → List Token → Prop where
  | literal
      (isLiteral : token.literal? = some value) :
      BuiltFrom (.expression (.literal value token.span)) [token]
  | reference
      (isName : token.kind = .identifier) :
      BuiltFrom (.expression (.reference token.lexeme token.span)) [token]
  | assign
      (target : BuiltFrom (.expression (.reference name span)) used)
      (isEqual : equals.kind = .equal)
      (assigned : BuiltFrom (.expression value) more) :
      BuiltFrom (.expression (.ofAssign name span value))
        (used ++ ([equals] ++ more))
  | getAttribute
      (callee : BuiltFrom (.expression object) used)
      (isDot : dot.kind = .dot)
      (isName : name.kind = .identifier) :
      BuiltFrom (.expression (.ofGetAttribute object name.lexeme name.span))
        (used ++ ([dot] ++ [name]))
  | setAttribute
      (target : BuiltFrom (.expression (.getAttribute object name span)) used)
      (isEqual : equals.kind = .equal)
      (assigned : BuiltFrom (.expression value) more) :
      BuiltFrom (.expression (.ofSetAttribute object name span value))
        (used ++ ([equals] ++ more))
  | unary
      (isUnary : operator.kind.isUnary = true)
      (operand : BuiltFrom (.expression value) used) :
      BuiltFrom (.expression (.ofUnary operator value))
        ([operator] ++ ([] ++ used))
  | combine
      (hasLevel : operator.kind.level? = some level)
      (first : BuiltFrom (.expression left) used)
      (second : BuiltFrom (.expression right) more) :
      BuiltFrom (.expression (left.combine operator right))
        (used ++ ([operator] ++ more))
  | grouping
      (isOpening : opening.kind = .leftParen)
      (content : BuiltFrom (.expression enclosed) used)
      (isClosing : closing.kind = .rightParen) :
      BuiltFrom (.expression (.ofGrouping opening.span enclosed closing.span))
        ([opening] ++ (used ++ [closing]))
  | call
      (called : BuiltFrom (.expression callee) used)
      (isOpening : opening.kind = .leftParen)
      (passed : BuiltFrom (.arguments given) more)
      (isClosing : closing.kind = .rightParen) :
      BuiltFrom (.expression (.ofCall callee given closing.span))
        (used ++ (([opening] ++ more) ++ [closing]))
  | noArguments :
      BuiltFrom (.arguments []) []
  | lastArgument
      (last : BuiltFrom (.expression result) used) :
      BuiltFrom (.arguments [result]) used
  | moreArguments
      (first : BuiltFrom (.expression result) used)
      (isComma : comma.kind = .comma)
      (others : BuiltFrom (.arguments results) more)
      (someOthers : results ≠ []) :
      BuiltFrom (.arguments (result :: results)) (used ++ ([comma] ++ more))

namespace Composed

/-- The words of an expression, or of arguments with commas between them. -/
def words : Composed → List Word
  | .expression result => result.words
  | .arguments results => commaSeparated (Expression.wordsOfEach results)

theorem spells_append
    {front behind : List Token}
    {words others : List Word}
    (first : List.Forall₂ Token.Spells front words)
    (second : List.Forall₂ Token.Spells behind others) :
    List.Forall₂ Token.Spells (front ++ behind) (words ++ others) :=
  List.rel_append first second

theorem spells_mark
    {token : Token}
    {kind : TokenKind}
    {tokens : List Token}
    {words : List Word}
    (isKind : token.kind = kind)
    (behind : List.Forall₂ Token.Spells tokens words) :
    List.Forall₂ Token.Spells (token :: tokens) (.mark kind :: words) :=
  .cons isKind behind

/-- The tokens that something is built from spell its words. -/
theorem BuiltFrom.spells
    {composed : Composed}
    {used : List Token}
    (built : composed.BuiltFrom used) :
    List.Forall₂ Token.Spells used composed.words := by
  induction built with
  | literal isLiteral =>
      exact .cons isLiteral .nil
  | reference isName =>
      exact .cons ⟨isName, rfl⟩ .nil
  | assign _ isEqual _ target assigned =>
      exact spells_append target (spells_mark isEqual assigned)
  | getAttribute _ isDot isName object =>
      exact spells_append object (spells_mark isDot (.cons ⟨isName, rfl⟩ .nil))
  | setAttribute _ isEqual _ target assigned =>
      have spelled := spells_append target (spells_mark isEqual assigned)
      rw [words, Expression.words, List.append_assoc] at spelled
      exact spelled
  | unary _ _ operand =>
      exact .cons rfl operand
  | combine _ _ _ first second =>
      rw [words, Expression.words_combine]
      exact spells_append first (.cons rfl second)
  | grouping isOpening _ isClosing content =>
      have closed := spells_append content (spells_mark isClosing .nil)
      exact spells_mark isOpening closed
  | call _ isOpening _ isClosing called passed =>
      have spelled := spells_append
        (spells_append called (spells_mark isOpening passed))
        (spells_mark isClosing .nil)
      rw [List.append_assoc] at spelled
      exact spelled
  | noArguments =>
      exact .nil
  | lastArgument _ last =>
      rw [words, Expression.wordsOfEach, Expression.wordsOfEach,
        commaSeparated_singleton]
      exact last
  | moreArguments _ isComma _ someOthers first others =>
      rw [words, Expression.wordsOfEach,
        commaSeparated_cons _ (by simpa using someOthers)]
      exact spells_append first (spells_mark isComma others)

/-- That the span of an expression reaches from the first token of a run to the
last. -/
def Spans (used : List Token) : Composed → Prop
  | .expression result => result.span.Encloses used
  | .arguments _ => True

/-- A node reaches from the first token that it is built from to the last. -/
theorem BuiltFrom.spans
    {composed : Composed}
    {source : SourceUnit}
    {used : List Token}
    (built : composed.BuiltFrom used)
    (laidOut : LaidOut source used) :
    composed.Spans used := by
  induction built with
  | literal _ =>
      exact .single _
  | reference _ =>
      exact .single _
  | assign _ _ _ target assigned =>
      exact (target laidOut.first).through (assigned laidOut.second.second) _
        laidOut
  | getAttribute _ _ _ object =>
      exact (object laidOut.first).through (.single _) _ laidOut
  | setAttribute _ _ _ target assigned =>
      exact (target laidOut.first).through (assigned laidOut.second.second) _
        laidOut
  | unary _ _ operand =>
      exact (Span.Encloses.single _).through (operand laidOut.second.second) _
        laidOut
  | combine _ _ _ first second =>
      rw [Spans, Expression.span_combine]
      exact (first laidOut.first).through (second laidOut.second.second) _ laidOut
  | grouping _ _ _ content =>
      exact (Span.Encloses.single _).through (.single _) _ laidOut
  | call _ _ _ _ called _ =>
      exact (called laidOut.first).through (.single _) _ laidOut
  | noArguments => trivial
  | lastArgument => trivial
  | moreArguments => trivial

/-- Each argument of a call is built from tokens among those of all arguments. -/
theorem BuiltFrom.argument
    {arguments : List Expression}
    {used : List Token}
    (built : (Composed.arguments arguments).BuiltFrom used)
    {argument : Expression}
    (isArgument : argument ∈ arguments) :
    ∃ part, part <:+: used ∧ (Composed.expression argument).BuiltFrom part := by
  generalize isComposed : Composed.arguments arguments = composed at built
  induction built generalizing arguments with
  | noArguments =>
      cases isComposed
      cases isArgument
  | lastArgument last =>
      cases isComposed
      rw [List.mem_singleton] at isArgument
      subst isArgument
      exact ⟨_, List.infix_rfl, last⟩
  | moreArguments first _ _ _ _ others =>
      cases isComposed
      rcases List.mem_cons.mp isArgument with rfl | isOther
      · exact ⟨_, infix_first _ _, first⟩
      · obtain ⟨part, isPart, built⟩ := others isOther rfl
        exact ⟨part, isPart.trans (infix_last _ _ _), built⟩
  | _ => cases isComposed

/-- The object of an attribute is built from the tokens in front of the dot. -/
theorem BuiltFrom.object
    {object : Expression}
    {name : String}
    {span : Span}
    {used : List Token}
    (built : (Composed.expression (.getAttribute object name span)).BuiltFrom
      used) :
    ∃ part, part <:+: used ∧ (Composed.expression object).BuiltFrom part := by
  generalize isComposed :
    Composed.expression (.getAttribute object name span) = composed at built
  cases built with
  | getAttribute object _ _ =>
      cases isComposed
      exact ⟨_, infix_first _ _, object⟩
  | combine _ _ _ =>
      unfold Expression.combine at isComposed
      split at isComposed <;> cases isComposed
  | _ => cases isComposed

/-- Each operand is built from tokens among those of the node. -/
theorem BuiltFrom.operand
    {expression : Expression}
    {used : List Token}
    (built : (Composed.expression expression).BuiltFrom used)
    {operand : Expression}
    (isOperand : operand ∈ expression.operands) :
    ∃ part, part <:+: used ∧ (Composed.expression operand).BuiltFrom part := by
  generalize isComposed : Composed.expression expression = composed at built
  cases built with
  | literal _ | reference _ =>
      cases isComposed
      cases isOperand
  | assign _ _ assigned =>
      cases isComposed
      obtain rfl := List.mem_singleton.mp isOperand
      exact ⟨_, infix_last _ _ _, assigned⟩
  | getAttribute object _ _ =>
      cases isComposed
      obtain rfl := List.mem_singleton.mp isOperand
      exact ⟨_, infix_first _ _, object⟩
  | setAttribute target _ assigned =>
      cases isComposed
      rcases List.mem_cons.mp isOperand with rfl | isValue
      · -- The object is the operand of the attribute that is assigned to.
        obtain ⟨part, isPart, object⟩ := target.object
        exact ⟨part, isPart.trans (infix_first _ _), object⟩
      · obtain rfl := List.mem_singleton.mp isValue
        exact ⟨_, infix_last _ _ _, assigned⟩
  | unary _ operand =>
      cases isComposed
      obtain rfl := List.mem_singleton.mp isOperand
      exact ⟨_, infix_last _ _ _, operand⟩
  | combine _ first second =>
      cases isComposed
      rw [Expression.operands_combine] at isOperand
      rcases List.mem_cons.mp isOperand with rfl | isSecond
      · exact ⟨_, infix_first _ _, first⟩
      · obtain rfl := List.mem_singleton.mp isSecond
        exact ⟨_, infix_last _ _ _, second⟩
  | grouping _ content _ =>
      cases isComposed
      obtain rfl := List.mem_singleton.mp isOperand
      exact ⟨_, List.infix_append' _ _ _, content⟩
  | call called _ passed _ =>
      cases isComposed
      rcases List.mem_cons.mp isOperand with rfl | isArgument
      · exact ⟨_, infix_first _ _, called⟩
      · obtain ⟨part, isPart, built⟩ := passed.argument isArgument
        exact ⟨part, isPart.trans ((List.infix_append _ _ _).trans
          (List.suffix_append _ _).isInfix), built⟩
  | _ => cases isComposed

end Composed

/-! ## What is read is built from the tokens that are used -/

/-- Whether an expression is built from tokens among the given ones. -/
def Expression.OriginatesIn (tokens : List Token) (expression : Expression) :
    Prop :=
  ∃ used, used <:+: tokens ∧ (Composed.expression expression).BuiltFrom used

namespace ExpressionPart

/-- That a part is built from the tokens in front of the rest.  A tail goes on from the
tokens of what has been read before it. -/
def OriginatesIn (tokens rest : List Token) : ExpressionPart → Prop
  | .expression result | .operation _ result | .unary result | .primary result =>
      ∃ used, tokens = used ++ rest ∧
        (Composed.expression result).BuiltFrom used
  | .operationTail _ left result | .callTail left result =>
      ∀ before, (Composed.expression left).BuiltFrom before →
        ∃ added, tokens = added ++ rest ∧
          (Composed.expression result).BuiltFrom (before ++ added)
  | .arguments results | .argumentList results =>
      ∃ used, tokens = used ++ rest ∧
        (Composed.arguments results).BuiltFrom used

/-- A first part and the tail that goes on from it. -/
theorem originatesIn_tail
    {left result : Expression}
    {tokens later rest : List Token}
    (first : ∃ used, tokens = used ++ later ∧
      (Composed.expression left).BuiltFrom used)
    (tail : ∀ before, (Composed.expression left).BuiltFrom before →
      ∃ added, later = added ++ rest ∧
        (Composed.expression result).BuiltFrom (before ++ added)) :
    ∃ used, tokens = used ++ rest ∧
      (Composed.expression result).BuiltFrom used := by
  obtain ⟨used, rfl, firstBuilt⟩ := first
  obtain ⟨added, rfl, built⟩ := tail used firstBuilt
  exact ⟨used ++ added, (List.append_assoc _ _ _).symm, built⟩

/-- A part of an expression is built from the tokens that it is read from. -/
theorem ReadFrom.originatesIn
    {part : ExpressionPart}
    {tokens rest : List Token}
    (reads : part.ReadFrom tokens rest) :
    part.OriginatesIn tokens rest := by
  induction reads with
  | plain _ _ target =>
      exact target
  | assign _ isEqual _ target assigned =>
      obtain ⟨used, rfl, targetBuilt⟩ := target
      obtain ⟨more, rfl, built⟩ := assigned
      exact ⟨_, by simp, .assign targetBuilt isEqual built⟩
  | setAttribute _ isEqual _ target assigned =>
      obtain ⟨used, rfl, targetBuilt⟩ := target
      obtain ⟨more, rfl, built⟩ := assigned
      exact ⟨_, by simp, .setAttribute targetBuilt isEqual built⟩
  | operands _ _ _ first tail =>
      exact originatesIn_tail first tail
  | operand _ _ operand =>
      exact operand
  | noOperator _ =>
      intro before built
      exact ⟨[], rfl, by rwa [List.append_nil]⟩
  | operator hasLevel _ _ second tail =>
      intro before built
      obtain ⟨more, rfl, secondBuilt⟩ := second
      obtain ⟨added, rfl, result⟩ := tail _ (.combine hasLevel built secondBuilt)
      rw [List.append_assoc] at result
      exact ⟨_, by simp, result⟩
  | sign isUnary _ operand =>
      obtain ⟨used, rfl, built⟩ := operand
      exact ⟨_, rfl, .unary isUnary built⟩
  | noSign _ _ _ first tail =>
      exact originatesIn_tail first tail
  | noCall _ _ =>
      intro before built
      exact ⟨[], rfl, by rwa [List.append_nil]⟩
  | getAttribute isDot isName _ tail =>
      intro before built
      obtain ⟨added, rfl, result⟩ := tail _ (.getAttribute built isDot isName)
      rw [List.append_assoc] at result
      exact ⟨_, by simp, result⟩
  | call isOpening _ isClosing _ arguments tail =>
      intro before built
      obtain ⟨more, rfl, passed⟩ := arguments
      obtain ⟨added, rfl, result⟩ := tail _ (.call built isOpening passed isClosing)
      rw [List.append_assoc] at result
      exact ⟨_, by simp, result⟩
  | noArguments _ =>
      exact ⟨[], rfl, .noArguments⟩
  | someArguments _ given =>
      exact given
  | lastArgument _ _ last =>
      obtain ⟨used, rfl, built⟩ := last
      exact ⟨used, rfl, .lastArgument built⟩
  | moreArguments _ isComma others first rest =>
      obtain ⟨used, rfl, built⟩ := first
      obtain ⟨more, rfl, othersBuilt⟩ := rest
      exact ⟨_, by simp,
        .moreArguments built isComma othersBuilt others.argumentList_ne_nil⟩
  | grouping isOpening _ isClosing content =>
      obtain ⟨used, rfl, built⟩ := content
      exact ⟨_, by simp, .grouping isOpening built isClosing⟩
  | @atom token result rest isAtom =>
      refine ⟨[token], rfl, ?_⟩
      rcases Parser.atom_eq_ok_iff.mp isAtom with
        ⟨value, isLiteral, rfl⟩ | ⟨isName, rfl⟩
      · exact .literal isLiteral
      · exact .reference isName

/-- An expression is built from tokens among those that it is read from. -/
theorem ReadFrom.origin
    {result : Expression}
    {tokens rest : List Token}
    (reads : (expression result).ReadFrom tokens rest) :
    result.OriginatesIn tokens := by
  obtain ⟨used, rfl, built⟩ := reads.originatesIn
  exact ⟨used, infix_first _ _, built⟩

end ExpressionPart

theorem Expression.OriginatesIn.of_suffix
    {expression : Expression}
    {part tokens : List Token}
    (originates : expression.OriginatesIn part)
    (isBehind : part <:+ tokens) :
    expression.OriginatesIn tokens := by
  obtain ⟨used, isUsed, built⟩ := originates
  exact ⟨used, isUsed.trans isBehind.isInfix, built⟩

/-- What an expression consists of originates in the same tokens. -/
theorem Expression.OriginatesIn.operand
    {expression operand : Expression}
    {tokens : List Token}
    (originates : expression.OriginatesIn tokens)
    (isOperand : operand ∈ expression.operands) :
    operand.OriginatesIn tokens := by
  obtain ⟨used, isUsed, built⟩ := originates
  obtain ⟨part, isPart, operandBuilt⟩ := built.operand isOperand
  exact ⟨part, isPart.trans isUsed, operandBuilt⟩

namespace StatementPart

theorem originate_of_suffix
    {expressions : List Expression}
    {part tokens : List Token}
    (originate : ∀ expression ∈ expressions, expression.OriginatesIn part)
    (isBehind : part <:+ tokens) :
    ∀ expression ∈ expressions, expression.OriginatesIn tokens :=
  fun expression member => (originate expression member).of_suffix isBehind

/-- All expressions of a part are built from tokens that it is read from. -/
theorem ReadFrom.origins
    {part : StatementPart}
    {tokens rest : List Token}
    (reads : part.ReadFrom tokens rest) :
    ∀ expression ∈ part.expressions, expression.OriginatesIn tokens := by
  induction reads with
  | variableDeclaration _ _ _ value =>
      intro expression member
      obtain rfl := List.mem_singleton.mp member
      apply value.origin.of_suffix
      exact ((List.suffix_cons _ _).trans (List.suffix_cons _ _)).trans
        (List.suffix_cons _ _)
  | functionDeclaration _ _ parameters _ block =>
      apply originate_of_suffix block
      exact (parameters.suffix.trans (List.suffix_cons _ _)).trans
        (List.suffix_cons _ _)
  | simple _ statement =>
      exact statement
  | block _ block =>
      exact block
  | whileLoop _ test _ repeated =>
      refine List.forall_mem_cons.mpr ⟨?_, ?_⟩
      · exact test.origin.of_suffix (List.suffix_cons _ _)
      · exact originate_of_suffix repeated
          (test.suffix.trans (List.suffix_cons _ _))
  | conditional _ test chosen _ inChosen inMore =>
      rw [expressions, Statement.expressions, Statement.branchExpressions,
        List.cons_append, List.cons_append, List.append_assoc]
      refine List.forall_mem_cons.mpr ⟨?_, ?_⟩
      · exact test.origin.of_suffix (List.suffix_cons _ _)
      refine List.forall_mem_append.mpr ⟨?_, ?_⟩
      · exact originate_of_suffix inChosen
          (test.suffix.trans (List.suffix_cons _ _))
      · exact originate_of_suffix inMore
          ((chosen.suffix.trans test.suffix).trans (List.suffix_cons _ _))
  | breakLoop _ _ =>
      exact List.forall_mem_nil _
  | continueLoop _ _ =>
      exact List.forall_mem_nil _
  | returnNothing _ _ _ =>
      exact List.forall_mem_nil _
  | returnValue _ _ result =>
      exact List.forall_mem_singleton.mpr
        (result.origin.of_suffix (List.suffix_cons _ _))
  | expression inner =>
      exact List.forall_mem_singleton.mpr inner.origin
  | elifBranch atBranch _ test chosen _ inChosen inMore =>
      have behindKeyword := suffix_of_skipBranchBreak atBranch
      have behindTest := test.suffix.trans behindKeyword
      rw [expressions, Statement.branchExpressions, List.cons_append,
        List.cons_append, List.append_assoc]
      refine List.forall_mem_cons.mpr ⟨?_, ?_⟩
      · exact test.origin.of_suffix behindKeyword
      refine List.forall_mem_append.mpr ⟨?_, ?_⟩
      · exact originate_of_suffix inChosen behindTest
      · exact originate_of_suffix inMore (chosen.suffix.trans behindTest)
  | elseBranch atBranch _ _ chosen =>
      exact originate_of_suffix chosen (suffix_of_skipBranchBreak atBranch)
  | noBranch _ _ =>
      exact List.forall_mem_nil _
  | braces _ _ _ content =>
      exact originate_of_suffix content (List.suffix_cons _ _)
  | noStatement _ =>
      exact List.forall_mem_nil _
  | moreStatements first ends _ inFirst inOthers =>
      refine List.forall_mem_append.mpr ⟨?_, ?_⟩
      · exact originate_of_suffix inFirst (List.dropWhile_suffix _)
      · exact originate_of_suffix inOthers
          ((ends.suffix.trans first.suffix).trans (List.dropWhile_suffix _))

end StatementPart

/-! ## All phrases of a program -/

/-- The expressions that stand in a phrase. -/
def Phrase.expressions : Phrase → List Expression
  | .expression inner => [inner]
  | .statement inner => inner.expressions

theorem Statement.expressions_subset_body
    {statement : Statement}
    {body : List Statement}
    (isInside : statement ∈ body) :
    statement.expressions ⊆ bodyExpressions body := by
  induction body with
  | nil => cases isInside
  | cons first rest inductionHypothesis =>
      rcases List.mem_cons.mp isInside with rfl | isLater
      · exact List.subset_append_left _ _
      · exact List.Subset.trans (inductionHypothesis isLater)
          (List.subset_append_right _ _)

theorem Statement.expressions_subset_branches
    {branches : List (Expression × Statement)}
    {branch : Expression × Statement}
    (isBranch : branch ∈ branches) :
    branch.1 :: branch.2.expressions ⊆ branchExpressions branches := by
  induction branches with
  | nil => cases isBranch
  | cons first rest inductionHypothesis =>
      rcases List.mem_cons.mp isBranch with rfl | isLater
      · exact List.subset_append_left _ _
      · exact List.Subset.trans (inductionHypothesis isLater)
          (List.subset_append_right _ _)

/-- The expressions in what a statement consists of stand in the statement. -/
theorem Statement.expressions_subset_of_part
    {statement : Statement}
    {part : Phrase}
    (isPart : part ∈ statement.parts) :
    part.expressions ⊆ statement.expressions := by
  cases statement with
  | expression inner =>
      obtain rfl := List.mem_singleton.mp isPart
      exact List.Subset.refl _
  | declaration constant name initializer span =>
      obtain rfl := List.mem_singleton.mp isPart
      exact List.Subset.refl _
  | whileLoop condition body span =>
      rcases List.mem_cons.mp isPart with rfl | isBody
      · exact List.subset_append_left [condition] _
      · obtain rfl := List.mem_singleton.mp isBody
        exact List.subset_cons_self _ _
  | conditional branches otherwise span =>
      rcases List.mem_append.mp isPart with inBranch | isLast
      · obtain ⟨branch, isBranch, isPart⟩ := List.mem_flatMap.mp inBranch
        have inBranches := expressions_subset_branches isBranch
        apply List.Subset.trans _ (List.subset_append_left _ _)
        rcases List.mem_cons.mp isPart with rfl | isBody
        · exact List.Subset.trans (List.subset_append_left [branch.1] _) inBranches
        · obtain rfl := List.mem_singleton.mp isBody
          exact List.Subset.trans (List.subset_cons_self _ _) inBranches
      · cases otherwise with
        | none => cases isLast
        | some body =>
            obtain rfl := List.mem_singleton.mp isLast
            exact List.subset_append_right _ _
  | returnValue value span =>
      cases value with
      | none => cases isPart
      | some value =>
          obtain rfl := List.mem_singleton.mp isPart
          exact List.Subset.refl _
  | block | breakLoop | continueLoop | function => cases isPart

/-- A property of expressions that the operands of an expression share with it holds of
all expressions of a program if it holds of those that stand in its statements. -/
theorem Occurs.expressions
    {Holds : Expression → Prop}
    (shared : ∀ {expression operand : Expression},
      Holds expression → operand ∈ expression.operands → Holds operand)
    {program : List Statement}
    (holds : ∀ expression ∈ Statement.bodyExpressions program, Holds expression)
    {frames : List Frame}
    {phrase : Phrase}
    (occurs : Occurs program frames phrase) :
    ∀ expression ∈ phrase.expressions, Holds expression := by
  induction occurs with
  | top isStatement =>
      intro expression member
      exact holds expression (Statement.expressions_subset_body isStatement member)
  | @part frames phrase part _ isPart inPhrase =>
      cases phrase with
      | expression inner =>
          obtain ⟨operand, isOperand, rfl⟩ := List.mem_map.mp isPart
          have holdsInner := inPhrase inner List.mem_cons_self
          exact List.forall_mem_singleton.mpr (shared holdsInner isOperand)
      | statement inner =>
          intro expression member
          exact inPhrase expression
            (Statement.expressions_subset_of_part isPart member)
  | inBlock _ isInside inPhrase =>
      intro expression member
      exact inPhrase expression (Statement.expressions_subset_body isInside member)
  | inFunction _ isInside inPhrase =>
      intro expression member
      exact inPhrase expression (Statement.expressions_subset_body isInside member)

/-- Every expression of a program is built from tokens among those that the program is
read from. -/
theorem StatementPart.ReadFrom.originatesIn
    {program : List Statement}
    {tokens rest : List Token}
    (reads : (StatementPart.statements .outermost program).ReadFrom tokens rest)
    {frames : List Frame}
    {expression : Expression}
    (occurs : Occurs program frames (.expression expression)) :
    expression.OriginatesIn tokens :=
  occurs.expressions (fun originates isOperand => originates.operand isOperand)
    reads.origins expression List.mem_cons_self

end Scriptlet
