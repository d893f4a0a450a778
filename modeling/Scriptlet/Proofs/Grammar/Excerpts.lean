import Scriptlet.Proofs.Grammar.Origins
import Scriptlet.Proofs.Grammar.Placement
import Scriptlet.Proofs.Grammar.WrittenExpressions
import Scriptlet.Proofs.Token.Placing
import Scriptlet.Proofs.Token.Respacing

namespace Scriptlet

/-!
# Expressions on their own

The text of the span of an expression can be taken out of its program: it is cut into
the same tokens, and these are read as the same expression, up to spans.
-/

/-! ## Tokens in the order of the text -/

namespace Segment

/-- The tokens behind a place start there or later. -/
theorem exists_after_of_token
    {source : SourceUnit}
    {start : Position}
    {found : List Segment}
    {token : Token}
    (member : token ∈ (placed start found).filterMap (token? source)) :
    ∃ text, token.span.start = start.after text := by
  induction found generalizing start with
  | nil => cases member
  | cons segment later inductionHypothesis =>
      obtain ⟨⟨place, item⟩, isPlaced, isToken⟩ := List.mem_filterMap.mp member
      rcases List.mem_cons.mp isPlaced with isFirst | isLater
      · cases isFirst
        cases segment with
        | token kind lexeme covered =>
            cases isToken
            exact ⟨[], rfl⟩
        | _ => cases isToken
      · obtain ⟨text, isAfter⟩ :=
          inductionHypothesis (List.mem_filterMap.mpr ⟨_, isLater, isToken⟩)
        rw [← Position.after_append] at isAfter
        exact ⟨_, isAfter⟩

/-- What stands behind a token does not start before the token ends. -/
theorem notBefore_tokenStop
    {kind : TokenKind}
    {lexeme covered : List Char}
    (spelling : Spelling kind lexeme covered)
    (start : Position)
    (text : List Char) :
    ((start.after covered).after text).NotBefore
      (tokenStop start kind covered) := by
  by_cases isBreak : kind = .newline
  · obtain rfl := spelling.isBreak isBreak
    have behind := (start.after ['\n']).line_le_after text
    have isLine : (start.after ['\n']).line = start.line + 1 := rfl
    have notBehind : ¬ ((start.after ['\n']).after text).line ≤ start.line := by
      omega
    rw [tokenStop, if_pos isBreak]
    simp only [Position.NotBefore, Position.precedes, Bool.or_eq_false_iff,
      Bool.and_eq_false_iff, decide_eq_false_iff_not, beq_eq_false_iff_ne]
    omega
  · rw [tokenStop, if_neg isBreak]
    exact (start.after covered).not_after_precedes text

end Segment

/-- The tokens among the segments of a text follow one another. -/
theorem segments_tokens_ordered
    (source : SourceUnit)
    (start : Position)
    (text : List Char) :
    ((Segment.placed start (segments text)).filterMap
        (Segment.token? source)).Pairwise
      fun first second => second.span.start.NotBefore first.span.stop := by
  fun_induction segments text generalizing start with
  | case1 =>
      exact .nil
  | case2 first rest inductionHypothesis =>
      have fits := Segment.fits_cut first rest
      generalize Segment.cut first rest = piece at *
      obtain ⟨segment, later⟩ := piece
      have others := inductionHypothesis (start.after segment.text)
      cases segment with
      | token kind lexeme covered =>
          refine List.pairwise_cons.mpr ⟨?_, others⟩
          intro token member
          obtain ⟨text, isAfter⟩ := Segment.exists_after_of_token member
          rw [isAfter]
          exact Segment.notBefore_tokenStop fits start text
      | _ => exact others

/-- The tokens of a source follow one another without overlap. -/
theorem SourceUnit.laidOut (source : SourceUnit) :
    LaidOut source source.bodyTokens where
  source_eq := fun _ member =>
    (Token.placed_of_mem_scan (List.mem_append_left _ member)).shown.source_eq
  forwards := fun _ member =>
    (Token.placed_of_mem_scan (List.mem_append_left _ member)).shown.forwards
  ordered := segments_tokens_ordered source .origin source.code.toList

/-! ## A run of tokens and its segments -/

namespace Segment

/-- From a token on, the tokens of a text are those of its last segments. -/
theorem exists_split_of_suffix
    {source : SourceUnit}
    {start : Position}
    {found : List Segment}
    {first : Token}
    {others : List Token}
    (isBehind : first :: others <:+
      (placed start found).filterMap (token? source)) :
    ∃ front behind, found = front ++ behind ∧
      first.span.start = start.after (front.flatMap text) ∧
      first :: others =
        (placed (start.after (front.flatMap text)) behind).filterMap
          (token? source) := by
  induction found generalizing start with
  | nil =>
      cases List.suffix_nil.mp isBehind
  | cons segment later inductionHypothesis =>
      have behindSegment
          (isLater : first :: others <:+
            (placed (start.after segment.text) later).filterMap (token? source)) :
          ∃ front behind, segment :: later = front ++ behind ∧
            first.span.start = start.after (front.flatMap text) ∧
            first :: others =
              (placed (start.after (front.flatMap text)) behind).filterMap
                (token? source) := by
        obtain ⟨front, behind, rfl, isStart, areTokens⟩ :=
          inductionHypothesis isLater
        rw [← Position.after_append] at isStart areTokens
        exact ⟨segment :: front, behind, rfl, isStart, areTokens⟩
      cases segment with
      | token kind lexeme covered =>
          rcases List.suffix_cons_iff.mp isBehind with isWhole | isLater
          · refine ⟨[], .token kind lexeme covered :: later, rfl, ?_, isWhole⟩
            rw [(List.cons.inj isWhole).1]
            rfl
          · exact behindSegment isLater
      | _ => exact behindSegment isBehind

/-- Up to a token, the tokens of a text are those of its first segments. -/
theorem exists_split_of_prefix
    {source : SourceUnit}
    {start : Position}
    {found : List Segment}
    {used others : List Token}
    {last : Token}
    (isLast : used.getLast? = some last)
    (isSplit : (placed start found).filterMap (token? source) = used ++ others) :
    ∃ front behind, found = front ++ behind ∧
      last.span.stop.index = (start.after (front.flatMap text)).index ∧
      (placed start front).filterMap (token? source) = used := by
  induction found generalizing start used with
  | nil =>
      obtain ⟨rfl, _⟩ := List.nil_eq_append_iff.mp isSplit
      cases isLast
  | cons segment later inductionHypothesis =>
      cases segment with
      | token kind lexeme covered =>
          cases used with
          | nil => cases isLast
          | cons first more =>
              obtain ⟨rfl, isLater⟩ := List.cons.inj isSplit
              cases more with
              | nil =>
                  cases isLast
                  exact ⟨[.token kind lexeme covered], later, rfl,
                    by simpa using index_tokenStop start kind covered, rfl⟩
              | cons second more =>
                  rw [List.getLast?_cons_cons] at isLast
                  obtain ⟨front, behind, rfl, isStop, areTokens⟩ :=
                    inductionHypothesis isLast isLater
                  rw [← Position.after_append] at isStop
                  exact ⟨.token kind lexeme covered :: front, behind, rfl, isStop,
                    congrArg (List.cons _) areTokens⟩
      | blank | comment | fault =>
          obtain ⟨front, behind, rfl, isStop, areTokens⟩ :=
            inductionHypothesis isLast isSplit
          rw [← Position.after_append] at isStop
          exact ⟨_ :: front, behind, rfl, isStop, areTokens⟩

end Segment

/-- The segments that a run of tokens is cut from, up to the end of the last token: the
text between the two ends of the run is cut into the same segments again. -/
theorem SourceUnit.exists_stretch
    {source : SourceUnit}
    {used : List Token}
    {first last : Token}
    (isUsed : used <:+: source.bodyTokens)
    (isFirst : used.head? = some first)
    (isLast : used.getLast? = some last) :
    ∃ place stretch, (∀ segment ∈ stretch, segment ∈ segments source.code.toList) ∧
      segments (stretch.flatMap Segment.text) = stretch ∧
      (Segment.placed place stretch).filterMap (Segment.token? source) = used ∧
      (Span.mk first.span.start last.span.stop source).text =
        String.ofList (stretch.flatMap Segment.text) := by
  obtain ⟨_, ⟨others, rfl⟩, isBehind⟩ := List.infix_iff_prefix_suffix.mp isUsed
  obtain ⟨more, rfl⟩ := List.head?_eq_some_iff.mp isFirst
  obtain ⟨front, _, isFound, isStart, areTokens⟩ :=
    Segment.exists_split_of_suffix isBehind
  obtain ⟨stretch, behind, rfl, isStop, areUsed⟩ :=
    Segment.exists_split_of_prefix isLast areTokens.symm
  have isSource : source.code.toList = front.flatMap Segment.text ++
      (stretch.flatMap Segment.text ++ behind.flatMap Segment.text) := by
    rw [← flatMap_text_segments source.code.toList, isFound, List.flatMap_append,
      List.flatMap_append]
  have atStart := Position.Behind.after_origin (front.flatMap Segment.text)
  have atStop := atStart.after (stretch.flatMap Segment.text)
  refine ⟨_, stretch, ?_, ?_, areUsed, ?_⟩
  · intro segment member
    rw [isFound]
    exact List.mem_append_right _ (List.mem_append_left _ member)
  · exact segments_front (segments_behind isFound)
  · apply Span.text_eq isSource
    · rw [isStart]
      exact atStart.index_eq
    · rw [isStop, ← byteLength_append]
      exact atStop.index_eq

/-! ## Reading the tokens of an expression -/

/-- Words are spelled by all tokens of the same kind and spelling. -/
theorem Token.SameText.spells
    {token other : Token}
    {word : Word}
    (same : token.SameText other)
    (spells : token.Spells word) :
    other.Spells word := by
  cases word with
  | mark kind =>
      exact same.kind_eq.trans spells
  | operator operator =>
      rw [Token.Spells, Token.operator, same.kind_eq, same.lexeme_eq]
      exact spells
  | name text =>
      exact ⟨same.kind_eq.trans spells.1, same.lexeme_eq.trans spells.2⟩
  | literal value =>
      rw [Token.Spells, Token.literal?, same.kind_eq, same.lexeme_eq]
      exact spells

theorem spells_of_sameTexts
    {tokens others : List Token}
    {words : List Word}
    (same : List.Forall₂ Token.SameText tokens others)
    (spells : List.Forall₂ Token.Spells tokens words) :
    List.Forall₂ Token.Spells others words := by
  induction same generalizing words with
  | nil =>
      cases spells
      exact .nil
  | cons sameFirst _ inductionHypothesis =>
      cases spells with
      | cons first rest =>
          exact .cons (sameFirst.spells first) (inductionHypothesis rest)

/-- A text whose tokens are an expression is read as this expression alone. -/
theorem SourceUnit.readAs_expression
    {source : SourceUnit}
    {result : Expression}
    (scanned : source.scan.diagnostics = [])
    (reads : (ExpressionPart.expression result).ReadFrom source.bodyTokens []) :
    source.ReadAs [.expression result] := by
  refine ⟨scanned, parse_eq_ok_iff.mpr ?_⟩
  have notBreak : nextKind source.bodyTokens ≠ .newline :=
    TokenKind.ne_of_startsExpression (reads.startsExpression rfl) .newline rfl
  have first : (StatementPart.declaration .outermost (.expression result)).ReadFrom
      (skipBreaks source.bodyTokens) [] := by
    rw [skipBreaks_of_ne notBreak]
    exact .simple (.expression reads)
  rw [body_scan]
  exact .moreStatements first (.closed nofun rfl) (.noStatement rfl)

/-- What an expression consists of is nested by its levels too. -/
theorem Expression.Levelled.operand
    {expression operand : Expression}
    (levelled : expression.Levelled)
    (isOperand : operand ∈ expression.operands) :
    operand.Levelled := by
  cases expression with
  | literal | reference => cases isOperand
  | assign | grouping =>
      obtain rfl := List.mem_singleton.mp isOperand
      exact levelled
  | getAttribute =>
      obtain rfl := List.mem_singleton.mp isOperand
      exact levelled.2
  | setAttribute =>
      rcases List.mem_cons.mp isOperand with rfl | isValue
      · exact levelled.1.2
      · obtain rfl := List.mem_singleton.mp isValue
        exact levelled.2
  | unary =>
      obtain rfl := List.mem_singleton.mp isOperand
      exact levelled.2.2
  | binary | logical =>
      obtain ⟨_, _, _, ⟨_, leftLevelled⟩, _, rightLevelled⟩ := levelled
      rcases List.mem_cons.mp isOperand with rfl | isRight
      · exact leftLevelled
      · obtain rfl := List.mem_singleton.mp isRight
        exact rightLevelled
  | call callee arguments span =>
      rcases List.mem_cons.mp isOperand with rfl | isArgument
      · exact levelled.1.2
      · exact levelled_of_all levelled.2 operand isArgument

/-- The text of the span of every expression of a program, wherever it occurs, is read
on its own as that expression and nothing else, up to spans. -/
theorem SourceUnit.ReadAs.excerpt
    {source : SourceUnit}
    {program : List Statement}
    (reads : source.ReadAs program)
    {frames : List Frame}
    {expression : Expression}
    (occurs : Occurs program frames (.expression expression))
    (name : String) :
    ∃ result, (SourceUnit.mk name expression.span.text).ReadAs
        [.expression result] ∧
      result.bare = expression.bare := by
  have noFault := Segment.diagnostics_eq_nil_iff.mp reads.scanned
  have read := parse_eq_ok_iff.mp reads.parsed
  rw [body_scan] at read
  have levelled : expression.Levelled :=
    occurs.expressions (fun levelled isOperand => levelled.operand isOperand)
      read.levelled expression List.mem_cons_self
  obtain ⟨used, isUsed, built⟩ := read.originatesIn occurs
  obtain ⟨first, last, isFirst, isLast, isSpan⟩ :=
    (built.spans (source.laidOut.of_part isUsed)).reaches
  have sameSource : first.span.source = source :=
    source.laidOut.source_eq first
      (isUsed.subset (List.mem_of_mem_head? isFirst))
  obtain ⟨place, stretch, isInside, isCut, areUsed, isText⟩ :=
    exists_stretch isUsed isFirst isLast
  rw [sameSource] at isSpan
  rw [isSpan, isText]
  generalize isExcerpt :
    SourceUnit.mk name (String.ofList (stretch.flatMap Segment.text)) = excerpt
  have isStretch : segments excerpt.code.toList = stretch := by
    rw [← isExcerpt, String.toList_ofList, isCut]
  have scanned : excerpt.scan.diagnostics = [] := by
    apply Segment.diagnostics_eq_nil_iff.mpr
    rw [isStretch]
    exact fun segment member => noFault segment (isInside segment member)
  have sameTexts : List.Forall₂ Token.SameText used excerpt.bodyTokens := by
    rw [← areUsed, bodyTokens, placedSegments, isStretch]
    exact Segment.sameTexts_of_meaningful rfl source excerpt place .origin
  obtain ⟨result, alike, readAlone⟩ :=
    (Expression.readable_of_levelled expression levelled).alone _
      (spells_of_sameTexts sameTexts built.spells)
  have readExcerpt := readAlone [] rfl
  rw [List.append_nil] at readExcerpt
  exact ⟨result, readAs_expression scanned readExcerpt, alike⟩

theorem readAs_attribute :
    ∃ program, (SourceUnit.mk "main" "var x = f(a . b)").ReadAs program ∧
      (match program with
      | [.declaration constant name
          (.call (.reference callee _)
            [.getAttribute (.reference object _) part span] _) _] =>
          (constant = false ∧ name = "x") ∧
            (callee = "f" ∧ object = "a" ∧ part = "b") ∧ span.text = "a . b"
      | _ => false) = true :=
  SourceUnit.exists_readAs _ _ (by decide +kernel) (by decide +kernel)

/-- An attribute that is an argument of a call. -/
theorem SourceUnit.ReadAs.excerpt_attribute :
    ∃ calleeSpan objectSpan attributeSpan callSpan span,
      let object : Expression := .reference "a" objectSpan
      let argument : Expression := .getAttribute object "b" attributeSpan
      (SourceUnit.mk "main" "var x = f(a . b)").ReadAs
          [.declaration false "x"
            (.call (.reference "f" calleeSpan) [argument] callSpan) span] ∧
        attributeSpan.text = "a . b" ∧
        ∃ result, (SourceUnit.mk "excerpt" "a . b").ReadAs [.expression result] ∧
          result.bare = argument.bare := by
  obtain ⟨program, reads, isShape⟩ := readAs_attribute
  split at isShape
  case h_2 => cases isShape
  case h_1 constant name callee calleeSpan object objectSpan part attributeSpan callSpan
      span =>
    obtain ⟨⟨rfl, rfl⟩, ⟨rfl, rfl, rfl⟩, isText⟩ := of_decide_eq_true isShape
    have isTop (statement : Statement) :
        Occurs [statement] [] (.statement statement) :=
      .top List.mem_cons_self
    have isCall (callee argument : Expression) :
        Occurs [.declaration false "x" (.call callee [argument] callSpan) span] []
          (.expression (.call callee [argument] callSpan)) :=
      .part (isTop _) List.mem_cons_self
    have isArgument (callee argument : Expression) :
        Occurs [.declaration false "x" (.call callee [argument] callSpan) span] []
          (.expression argument) :=
      .part (isCall callee argument) (List.mem_cons_of_mem _ List.mem_cons_self)
    have isExcerpt := reads.excerpt (isArgument _ _) "excerpt"
    rw [Expression.span, isText] at isExcerpt
    exact ⟨calleeSpan, objectSpan, attributeSpan, callSpan, span, reads, isText, isExcerpt⟩

end Scriptlet
