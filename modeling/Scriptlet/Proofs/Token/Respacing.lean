import Scriptlet.Proofs.Grammar.JoinedTexts
import Scriptlet.Proofs.Token.Recutting

namespace Scriptlet

/-!
# Spacing does not matter

The tokens of a text without faults can be spread with other blanks and inline
comments between them, as long as no two of them touch: the new text is cut into
the same tokens.  What stands between two tokens is called a gap here, and the
segments that are no gap are what a text says.
-/

/-! ## Gaps -/

/-- Blanks and complete inline comments in any order, possibly none. -/
inductive Gap : List Char → Prop where
  | nothing :
      Gap []
  | blank
      (isBlank : Segment.isBlank character = true)
      (others : Gap rest) :
      Gap (character :: rest)
  /-- The content ends at the first closing mark. -/
  | comment
      (isFirst : ¬ ['/', '#'] <:+: content)
      (others : Gap rest) :
      Gap ('#' :: '/' :: (content ++ '/' :: '#' :: rest))

/-- That a text holds words one after the other, with a gap in front of each of
them and one behind the last. -/
inductive SpreadBehind : List (List Char) → List Char → Prop where
  | last
      (isGap : Gap gap) :
      SpreadBehind [] gap
  | next
      (isGap : Gap gap)
      (someGap : gap ≠ [])
      (others : SpreadBehind words rest) :
      SpreadBehind (word :: words) (gap ++ (word ++ rest))

/-- That a text holds words one after the other, with gaps between neighbours and
possibly before the first and after the last. -/
inductive Spread : List (List Char) → List Char → Prop where
  | nothing
      (isGap : Gap gap) :
      Spread [] gap
  | words
      (isGap : Gap gap)
      (others : SpreadBehind words rest) :
      Spread (word :: words) (gap ++ (word ++ rest))

/-- What stands behind a word separates it from the next one. -/
theorem Gap.isSeparator
    {gap rest : List Char}
    (isGap : Gap gap)
    (someGap : gap ≠ [] ∨ rest = [])
    (character : Char)
    (isNext : (gap ++ rest).head? = some character) :
    Segment.isSeparator character = true := by
  cases isGap with
  | nothing =>
      rcases someGap with someGap | rfl
      · exact (someGap rfl).elim
      · cases isNext
  | blank isBlank others =>
      cases isNext
      rw [Segment.isSeparator, isBlank, Bool.true_or]
  | comment isFirst others =>
      cases isNext
      rfl

theorem SpreadBehind.isSeparator
    {words : List (List Char)}
    {rest : List Char}
    (spread : SpreadBehind words rest)
    (character : Char)
    (isNext : rest.head? = some character) :
    Segment.isSeparator character = true := by
  cases spread with
  | last isGap =>
      rw [← List.append_nil rest] at isNext
      exact isGap.isSeparator (.inr rfl) character isNext
  | next isGap someGap others =>
      exact isGap.isSeparator (.inl someGap) character isNext

/-! ## What a text says -/

namespace Segment

/-- Whether a segment is a run of blanks or a comment. -/
def isGap : Segment → Bool
  | .blank _ => true
  | .comment _ => true
  | _ => false

/-- Everything among segments but blanks and comments. -/
def meaningful (found : List Segment) : List Segment :=
  found.filter fun segment => !segment.isGap

/-- The mark behind a content without such a mark closes an inline comment. -/
theorem closeInline?_of_not_infix
    {content : List Char}
    (isFirst : ¬ ['/', '#'] <:+: content)
    (rest : List Char) :
    closeInline? (content ++ '/' :: '#' :: rest) =
      some (content ++ ['/', '#'], rest) := by
  induction content with
  | nil => rfl
  | cons character content inductionHypothesis =>
      rw [List.infix_cons_iff, not_or] at isFirst
      have notMark : ∀ behind, character = '/' →
          content ++ '/' :: '#' :: rest = '#' :: behind → False := by
        rintro behind rfl isSign
        cases content with
        | nil => cases isSign
        | cons next content =>
            cases isSign
            exact isFirst.1 ⟨content, rfl⟩
      rw [List.cons_append, closeInline?.eq_3 _ _ notMark,
        inductionHypothesis isFirst.2]
      rfl

/-- Blanks in front of a text say nothing. -/
theorem meaningful_blank
    {character : Char}
    (blankFirst : isBlank character = true)
    (rest : List Char) :
    meaningful (segments (character :: rest)) = meaningful (segments rest) := by
  have notBreak : ∀ {character : Char}, isBlank character = true →
      character ≠ '\n' := by
    rintro _ isBlank rfl
    cases isBlank
  have isCut : ∀ {character : Char} (rest : List Char),
      isBlank character = true →
      cut character rest =
        (.blank (character :: rest.takeWhile isBlank), rest.dropWhile isBlank) := by
    intro character rest isBlank
    rw [cut, if_neg (notBreak isBlank), if_pos isBlank]
  rw [segments_of_cut (isCut rest blankFirst)]
  cases rest with
  | nil => rfl
  | cons next rest =>
      by_cases blankNext : isBlank next = true
      · rw [List.dropWhile_cons_of_pos blankNext,
          segments_of_cut (isCut rest blankNext)]
        rfl
      · rw [List.dropWhile_cons_of_neg blankNext]
        rfl

/-- A gap in front of a text says nothing. -/
theorem meaningful_gap
    {gap : List Char}
    (isGap : Gap gap)
    (rest : List Char) :
    meaningful (segments (gap ++ rest)) = meaningful (segments rest) := by
  induction isGap with
  | nothing => rfl
  | blank isBlank others inductionHypothesis =>
      rw [List.cons_append, meaningful_blank isBlank]
      exact inductionHypothesis
  | @comment content others isFirst _ inductionHypothesis =>
      have isCut : cut '#' ('/' :: (content ++ '/' :: '#' :: (others ++ rest))) =
          (.comment ('#' :: '/' :: (content ++ ['/', '#'])), others ++ rest) := by
        simp [cut, isBlank, cutComment, closeInline?_of_not_infix isFirst]
      have isText : '#' :: '/' :: (content ++ '/' :: '#' :: others) ++ rest =
          '#' :: '/' :: (content ++ '/' :: '#' :: (others ++ rest)) := by
        simp
      rw [isText, segments_of_cut isCut]
      exact inductionHypothesis

/-- Whether a segment is a token. -/
def isToken : Segment → Bool
  | .token _ _ _ => true
  | _ => false

/-- A token in front of a gap, or of nothing, is said before what stands behind
it. -/
theorem meaningful_token
    {text other : List Char}
    {segment : Segment}
    (member : segment ∈ segments text)
    (isToken : segment.isToken = true)
    (isSeparated : ∀ character, other.head? = some character →
      isSeparator character = true) :
    meaningful (segments (segment.text ++ other)) =
      segment :: meaningful (segments other) := by
  obtain ⟨first, rest, isCut⟩ := exists_cut_of_mem_segments member
  cases segment with
  | token kind lexeme covered =>
      have stays : (Segment.token kind lexeme covered).StaysBefore
          (cut first rest).2 other := fun character isNext =>
        .inr ⟨rfl, isSeparated character isNext⟩
      rw [segments_again (Prod.ext isCut.symm rfl) stays]
      rfl
  | _ => cases isToken

/-- Tokens that are spread with gaps are what the new text says. -/
theorem meaningful_spreadBehind
    {text spread : List Char}
    {pieces : List Segment}
    (cutOff : ∀ piece ∈ pieces, piece ∈ segments text ∧ piece.isToken = true)
    (isSpread : SpreadBehind (pieces.map Segment.text) spread) :
    meaningful (segments spread) = pieces := by
  induction pieces generalizing spread with
  | nil =>
      cases isSpread with
      | last isGap =>
          have nothingSaid := meaningful_gap isGap []
          rw [List.append_nil] at nothingSaid
          rw [nothingSaid, segments]
          rfl
  | cons piece pieces inductionHypothesis =>
      obtain ⟨isCut, others⟩ := List.forall_mem_cons.mp cutOff
      cases isSpread with
      | next isGap _ spreadBehind =>
          rw [meaningful_gap isGap,
            meaningful_token isCut.1 isCut.2 spreadBehind.isSeparator,
            inductionHypothesis others spreadBehind]

theorem meaningful_spread
    {text spread : List Char}
    {pieces : List Segment}
    (cutOff : ∀ piece ∈ pieces, piece ∈ segments text ∧ piece.isToken = true)
    (isSpread : Spread (pieces.map Segment.text) spread) :
    meaningful (segments spread) = pieces := by
  cases pieces with
  | nil =>
      cases isSpread with
      | nothing isGap => exact meaningful_spreadBehind cutOff (.last isGap)
  | cons piece pieces =>
      obtain ⟨isCut, others⟩ := List.forall_mem_cons.mp cutOff
      cases isSpread with
      | words isGap spreadBehind =>
          rw [meaningful_gap isGap,
            meaningful_token isCut.1 isCut.2 spreadBehind.isSeparator,
            meaningful_spreadBehind others spreadBehind]

/-! ## Tokens -/

/-- Where there is no fault, only tokens are meaningful. -/
theorem isToken_of_mem_meaningful
    {found : List Segment}
    (noFault : ∀ segment ∈ found, segment.isFault = false) :
    ∀ piece ∈ meaningful found, piece ∈ found ∧ piece.isToken = true := by
  intro piece member
  obtain ⟨isFound, notGap⟩ := List.mem_filter.mp member
  refine ⟨isFound, ?_⟩
  have sound := noFault piece isFound
  cases piece with
  | token => rfl
  | fault => cases sound
  | blank => cases notGap
  | comment => cases notGap

/-- The texts of the tokens of a stretch of a source without faults. -/
theorem map_text_tokens
    {source : SourceUnit}
    {start : Position}
    {before rest : List Char}
    {found : List Segment}
    (isSource : source.code.toList = before ++ (found.flatMap text ++ rest))
    (isBehind : start.Behind before)
    (noFault : ∀ segment ∈ found, segment.isFault = false) :
    ((placed start found).filterMap (token? source)).map
        (fun token => token.span.text.toList) =
      (meaningful found).map text := by
  induction found generalizing start before with
  | nil => rfl
  | cons segment later inductionHypothesis =>
      obtain ⟨sound, laterSound⟩ := List.forall_mem_cons.mp noFault
      rw [List.flatMap_cons, List.append_assoc] at isSource
      have others := inductionHypothesis
        (isSource.trans (List.append_assoc _ _ _).symm)
        (isBehind.after segment.text) laterSound
      cases segment with
      | token kind lexeme covered =>
          have isText : (Span.mk start (tokenStop start kind covered) source).text =
              String.ofList covered := by
            apply Span.text_eq isSource isBehind.index_eq
            rw [index_tokenStop, (isBehind.after covered).index_eq,
              byteLength_append]
          have isFirst : (Span.mk start (tokenStop start kind covered)
              source).text.toList = covered := by
            rw [isText, String.toList_ofList]
          exact congrArg₂ List.cons isFirst others
      | blank => exact others
      | comment => exact others
      | fault => cases sound

/-- The kind and the spelling of a token, if a segment is one. -/
def spelling? : Segment → Option (TokenKind × String)
  | .token kind lexeme _ => some (kind, String.ofList lexeme)
  | _ => none

theorem map_spelling_tokens
    (source : SourceUnit)
    (start : Position)
    (found : List Segment) :
    ((placed start found).filterMap (token? source)).map
        (fun token => (token.kind, token.lexeme)) =
      (meaningful found).filterMap spelling? := by
  induction found generalizing start with
  | nil => rfl
  | cons segment later inductionHypothesis =>
      have others := inductionHypothesis (start.after segment.text)
      cases segment with
      | token => exact congrArg (List.cons _) others
      | _ => exact others

/-- Segments that say the same hold the same tokens, wherever they stand. -/
theorem sameTexts_of_meaningful
    {found other : List Segment}
    (same : meaningful other = meaningful found)
    (source place : SourceUnit)
    (start moved : Position) :
    List.Forall₂ Token.SameText
      ((placed start found).filterMap (token? source))
      ((placed moved other).filterMap (token? place)) := by
  have spellings := (map_spelling_tokens place moved other).trans
    ((congrArg (List.filterMap spelling?) same).trans
      (map_spelling_tokens source start found).symm)
  rw [← List.forall₂_eq_eq_eq, List.forall₂_map_left_iff,
    List.forall₂_map_right_iff] at spellings
  refine spellings.flip.imp ?_
  intro token repeated isSame
  exact ⟨congrArg Prod.fst isSame, congrArg Prod.snd isSame⟩

end Segment

namespace SourceUnit

/-- A text without faults can be spaced in any other way: wherever the texts of its
tokens are spread with blanks and inline comments, the same tokens are found. -/
theorem scan_spread
    {source spaced : SourceUnit}
    (sound : source.scan.diagnostics = [])
    (isSpread : Spread
      (source.scan.tokens.dropLast.map fun token => token.span.text.toList)
      spaced.code.toList) :
    spaced.scan.diagnostics = [] ∧
      List.Forall₂ Token.SameText source.scan.tokens spaced.scan.tokens := by
  have noFault := Segment.diagnostics_eq_nil_iff.mp sound
  have isSource : source.code.toList =
      [] ++ ((segments source.code.toList).flatMap Segment.text ++ []) := by
    rw [flatMap_text_segments, List.append_nil, List.nil_append]
  have texts := Segment.map_text_tokens isSource .origin noFault
  have body : source.scan.tokens.dropLast = source.bodyTokens :=
    List.dropLast_concat
  rw [body, bodyTokens, placedSegments, texts] at isSpread
  have same := Segment.meaningful_spread
    (Segment.isToken_of_mem_meaningful noFault) isSpread
  constructor
  · apply Segment.diagnostics_eq_nil_iff.mpr
    intro segment member
    by_contra isFault
    rw [Bool.not_eq_false] at isFault
    have isMeaningful : segment ∈
        Segment.meaningful (segments spaced.code.toList) := by
      apply List.mem_filter.mpr
      cases segment with
      | fault => exact ⟨member, rfl⟩
      | _ => cases isFault
    rw [same] at isMeaningful
    have isSound := noFault segment (List.mem_filter.mp isMeaningful).1
    rw [isFault] at isSound
    cases isSound
  · exact List.rel_append (Segment.sameTexts_of_meaningful same source spaced _ _)
      (.cons ⟨rfl, rfl⟩ .nil)

/-- An assignment with a comment across two lines between its name and the equals
sign. -/
theorem scan_spread_assignment :
    let source : SourceUnit := ⟨"main", "a=1.5"⟩
    let spaced : SourceUnit := ⟨"main", "\ta#/=\n/#=\r 1.5"⟩
    source.scan.diagnostics = [] ∧
      spaced.scan.diagnostics = [] ∧
      List.Forall₂ Token.SameText source.scan.tokens spaced.scan.tokens := by
  intro source spaced
  have sound : source.scan.diagnostics = [] := by
    decide +kernel
  have texts : (source.scan.tokens.dropLast.map fun token =>
      token.span.text.toList) = [['a'], ['='], ['1', '.', '5']] := by
    decide +kernel
  have isSpaced : spaced.code.toList =
      ['\t'] ++ (['a'] ++ (['#', '/', '=', '\n', '/', '#'] ++
        (['='] ++ (['\r', ' '] ++ (['1', '.', '5'] ++ []))))) := by
    decide +kernel
  have isComment : Gap ['#', '/', '=', '\n', '/', '#'] :=
    @Gap.comment ['=', '\n'] [] (by decide) .nothing
  have isTab : Gap ['\t'] :=
    .blank rfl .nothing
  have areBlanks : Gap ['\r', ' '] :=
    .blank rfl (.blank rfl .nothing)
  refine ⟨sound, scan_spread sound ?_⟩
  rw [texts, isSpaced]
  exact .words isTab
    (.next isComment (List.cons_ne_nil _ _)
      (.next areBlanks (List.cons_ne_nil _ _) (.last .nothing)))

end SourceUnit

end Scriptlet
