import Scriptlet.Proofs.Source.Counting
import Scriptlet.Proofs.Token.Pieces

namespace Scriptlet

/-!
# A scan covers its text

The tokens and the diagnostics of a scan, together with the blanks and the comments
between them, cover the text from its first byte to its last, each of them where the
one before ends.  What a piece of the text is, it is alone: no token is spelled like
a comment, say, and no fault takes what a token could be.
-/

/-! ## The whole text -/

/-- That a token of a source stands on a text, behind another one. -/
structure Token.StandsOn
    (source : SourceUnit)
    (before text : List Char)
    (token : Token) :
    Prop where
  source_eq : token.span.source = source
  spelling : Spelling token.kind token.lexeme.toList text
  nonempty : text ≠ []
  start_eq : token.span.start.index = byteLength before
  stop_eq : token.span.stop.index = byteLength (before ++ text)
  text_eq : token.span.text = String.ofList text
  notEnd : token.kind ≠ .endOfInput
  plain : token.kind ≠ .string → token.lexeme = token.span.text
  quoted : token.kind = .string →
    ∃ quote, Unquoted quote token.lexeme.toList ∧
      token.span.text.toList = quote :: (token.lexeme.toList ++ [quote])

/-- That a diagnostic of a source swallows a text, behind another one and in front of
the rest: the text is taken by a fault, and the diagnostic is the report of the fault
at its marked characters. -/
inductive Diagnostic.Swallows
    (source : SourceUnit)
    (before rest : List Char) :
    List Char → Diagnostic → Prop where
  | intro
      {cause : LexicalFault}
      {place : Span}
      (takes : cause.Takes lead marked trail rest)
      (someMarked : marked ≠ [])
      (source_eq : place.source = source)
      (start_eq : place.start.index = byteLength (before ++ lead))
      (stop_eq : place.stop.index = byteLength (before ++ lead ++ marked)) :
      Swallows source before rest (lead ++ (marked ++ trail))
        (cause.locate place)

/-- That tokens and diagnostics, with blanks and complete comments between them, cover
a text that stands behind another one, in their order: each piece of the text is just
one of the text of a token, blanks, a complete comment, and what a diagnostic
swallows. -/
inductive SourceUnit.Covered (source : SourceUnit) :
    List Char → List Char → List Token → List Diagnostic → Prop where
  | nothing :
      Covered source before [] [] []
  | token
      (stands : token.StandsOn source before text)
      (only : PieceSort.HoldsOnly text rest .token)
      (others : Covered source (before ++ text) rest tokens diagnostics) :
      Covered source before (text ++ rest) (token :: tokens) diagnostics
  | blank
      (isBlank : BlankRun text)
      (only : PieceSort.HoldsOnly text rest .blank)
      (others : Covered source (before ++ text) rest tokens diagnostics) :
      Covered source before (text ++ rest) tokens diagnostics
  | comment
      (isComment : CompleteComment text rest)
      (only : PieceSort.HoldsOnly text rest .comment)
      (others : Covered source (before ++ text) rest tokens diagnostics) :
      Covered source before (text ++ rest) tokens diagnostics
  | fault
      (swallows : diagnostic.Swallows source before rest text)
      (only : PieceSort.HoldsOnly text rest .fault)
      (others : Covered source (before ++ text) rest tokens diagnostics) :
      Covered source before (text ++ rest) tokens (diagnostic :: diagnostics)

namespace Segment

theorem index_tokenStop
    (start : Position)
    (kind : TokenKind)
    (covered : List Char) :
    (tokenStop start kind covered).index = (start.after covered).index := by
  unfold tokenStop
  split <;> rfl

/-- The token of a segment stands on the text of the segment. -/
theorem standsOn
    {source : SourceUnit}
    {kind : TokenKind}
    {before lexeme covered rest : List Char}
    {start : Position}
    (isSource : source.code.toList = before ++ (covered ++ rest))
    (isBehind : start.Behind before)
    (spelling : Spelling kind lexeme covered) :
    Token.StandsOn source before covered
      ⟨kind, String.ofList lexeme,
        ⟨start, tokenStop start kind covered, source⟩⟩ := by
  have stopsAt : (tokenStop start kind covered).index =
      byteLength (before ++ covered) := by
    rw [index_tokenStop]
    exact (isBehind.after covered).index_eq
  have isText : (Span.mk start (tokenStop start kind covered) source).text =
      String.ofList covered :=
    Span.text_eq isSource isBehind.index_eq
      (stopsAt.trans (byteLength_append before covered))
  have nonempty : covered ≠ [] := by
    obtain ⟨first, later, rfl, _⟩ := spelling.starts
    exact List.cons_ne_nil first later
  refine ⟨rfl, ?_, nonempty, isBehind.index_eq, stopsAt, isText,
    spelling.ne_endOfInput, ?_, ?_⟩
  · rw [String.toList_ofList]
    exact spelling
  · intro notString
    rw [isText, spelling.plain notString]
  · intro isString
    obtain ⟨quote, unquoted, isCovered⟩ := spelling.quoted isString
    refine ⟨quote, ?_, ?_⟩
    · rw [String.toList_ofList]
      exact unquoted
    · rw [isText, String.toList_ofList, String.toList_ofList]
      exact isCovered

/-- The diagnostic of a faulty segment swallows the text of the segment. -/
theorem swallows
    {source : SourceUnit}
    {fault : LexicalFault}
    {before lead marked trail rest : List Char}
    {start : Position}
    (isBehind : start.Behind before)
    (takes : fault.Takes lead marked trail rest) :
    Diagnostic.Swallows source before rest (lead ++ (marked ++ trail))
      (fault.locate
        ⟨start.after lead, (start.after lead).after marked, source⟩) := by
  have someMarked : marked ≠ [] := by
    obtain ⟨first, later, rfl, _⟩ := takes.marked_eq
    exact List.cons_ne_nil first later
  exact .intro takes someMarked rfl (isBehind.after lead).index_eq
    ((isBehind.after lead).after marked).index_eq

end Segment

/-- The segments of a text, behind another one, cover it. -/
theorem segments_covered
    {source : SourceUnit}
    {before text : List Char}
    {start : Position}
    (isSource : source.code.toList = before ++ text)
    (isBehind : start.Behind before) :
    source.Covered before text
      ((Segment.placed start (segments text)).filterMap (Segment.token? source))
      ((Segment.placed start (segments text)).filterMap
        (Segment.diagnostic? source)) := by
  fun_induction segments text generalizing before start with
  | case1 =>
      exact .nothing
  | case2 first rest inductionHypothesis =>
      have fits := Segment.fits_cut first rest
      have isText := Segment.cut_append first rest
      generalize Segment.cut first rest = piece at *
      obtain ⟨segment, later⟩ := piece
      rw [← isText] at isSource ⊢
      have others := inductionHypothesis
        (isSource.trans (List.append_assoc _ _ _).symm)
        (isBehind.after segment.text)
      rw [Segment.placed]
      have only := fits.holdsOnly
      cases segment with
      | token kind lexeme covered =>
          exact .token (Segment.standsOn isSource isBehind fits) only others
      | blank covered =>
          exact .blank fits only others
      | comment covered =>
          exact .comment fits only others
      | fault fault lead marked trail =>
          exact .fault (Segment.swallows isBehind fits) only others

/-- Nothing in a text is the mark of its end. -/
theorem SourceUnit.Covered.kind_ne_endOfInput
    {source : SourceUnit}
    {before text : List Char}
    {tokens : List Token}
    {diagnostics : List Diagnostic}
    (covered : source.Covered before text tokens diagnostics) :
    ∀ token ∈ tokens, token.kind ≠ .endOfInput := by
  induction covered with
  | nothing =>
      exact nofun
  | token stands _ _ others =>
      exact List.forall_mem_cons.mpr ⟨stands.notEnd, others⟩
  | blank _ _ _ others =>
      exact others
  | comment _ _ _ others =>
      exact others
  | fault _ _ _ others =>
      exact others

/-- The tokens of a scan, a single end of the input behind them apart, and its
diagnostics cover the text of the source, with blanks and complete comments in
between.  No piece of the text is two of these at once. -/
theorem scan_covers (source : SourceUnit) :
    ∃ tokens last, source.scan.tokens = tokens ++ [last] ∧
      source.Covered [] source.code.toList tokens source.scan.diagnostics ∧
      (∀ token ∈ tokens, token.kind ≠ .endOfInput) ∧
      last.kind = .endOfInput ∧
      last.span.source = source ∧
      last.span.start = last.span.stop ∧
      last.span.start.index = byteLength source.code.toList ∧
      last.lexeme = last.span.text := by
  have covered : source.Covered [] source.code.toList
      (source.placedSegments.filterMap (Segment.token? source))
      source.scan.diagnostics :=
    segments_covered rfl .origin
  have atEnd : source.endPosition.index = byteLength source.code.toList :=
    (Position.Behind.after_origin source.code.toList).index_eq
  have isSource : source.code.toList = source.code.toList ++ ([] ++ []) :=
    (List.append_nil _).symm
  have noText : (Span.emptyAt source.endPosition source).text = "" :=
    Span.text_eq isSource atEnd atEnd
  exact ⟨_, Token.endOfInput (Span.emptyAt source.endPosition source), rfl,
    covered, covered.kind_ne_endOfInput, rfl, rfl, rfl, atEnd, noText.symm⟩

end Scriptlet
