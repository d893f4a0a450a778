import Scriptlet.Proofs.Token.Covering

namespace Scriptlet

/-!
# Cutting the text of a segment again

A segment is decided by its own characters and, at most, by the character behind
them.  So its text is cut off as the same segment wherever that next character is
repeated, and at the end of a text.  Tokens, illegal characters and faulty numbers
are also cut off again in front of blanks and comments.
-/

namespace Segment

/-! ## One segment -/

/-- Whether a segment ends where its characters end, whatever blanks or comments
stand behind them. -/
def isCompact : Segment → Bool
  | .token _ _ _ => true
  | .fault (.illegalCharacter _) _ _ _ => true
  | .fault (.trailingDot _) _ _ _ => true
  | .fault (.multipleDots _) _ _ _ => true
  | _ => false

/-- Whether a character separates segments: it is a blank or starts a comment. -/
def isSeparator (character : Char) : Bool :=
  isBlank character || character == '#'

/-- That a segment with a text behind it stays the same in front of another text:
that one starts in the same way, or separates what is compact, or is empty. -/
def StaysBefore (segment : Segment) (later other : List Char) : Prop :=
  ∀ character, other.head? = some character →
    later.head? = some character ∨
      segment.isCompact = true ∧ isSeparator character = true

namespace StaysBefore

variable {segment : Segment} {later other : List Char}

/-- What starts a text starts it in front of more text too. -/
theorem of_append
    (segment : Segment)
    (other more : List Char) :
    segment.StaysBefore (other ++ more) other := by
  intro character isNext
  cases other with
  | nil => cases isNext
  | cons first other =>
      rw [List.cons_append]
      exact .inl isNext

/-- Characters that do not go on with a run do not go on with it again. -/
theorem stops
    {inside : Char → Bool}
    (stays : segment.StaysBefore later other)
    (stopped : Stops inside later)
    (separated : ∀ character, isSeparator character = true →
      inside character = false) :
    Stops inside other := by
  intro character isNext
  rcases stays character isNext with same | ⟨_, isSeparator⟩
  · exact stopped character same
  · exact separated character isSeparator

/-- The same, where the segment is not compact. -/
theorem stops_of_not_isCompact
    {inside : Char → Bool}
    (stays : segment.StaysBefore later other)
    (notCompact : segment.isCompact = false)
    (stopped : Stops inside later) :
    Stops inside other := by
  intro character isNext
  rcases stays character isNext with same | ⟨isCompact, _⟩
  · exact stopped character same
  · rw [notCompact] at isCompact
    cases isCompact

end StaysBefore

theorem isSeparator_iff {character : Char} :
    isSeparator character = true ↔
      character = ' ' ∨ character = '\t' ∨ character = '\r' ∨ character = '#' := by
  simp [isSeparator, isBlank, or_assoc]

/-- A class of characters without blanks and number signs. -/
theorem eq_false_of_isSeparator
    {inside : Char → Bool}
    (noBlank : inside ' ' = false ∧ inside '\t' = false ∧ inside '\r' = false)
    (noSign : inside '#' = false)
    (character : Char)
    (separates : isSeparator character = true) :
    inside character = false := by
  rcases isSeparator_iff.mp separates with rfl | rfl | rfl | rfl
  · exact noBlank.1
  · exact noBlank.2.1
  · exact noBlank.2.2
  · exact noSign

/-- What closes an inline comment closes it in front of any text. -/
theorem closeInline?_again
    {text covered later : List Char}
    (closed : closeInline? text = some (covered, later))
    (other : List Char) :
    closeInline? (covered ++ other) = some (covered, other) := by
  have alone : closeInline? covered = some (covered, []) := by
    fun_induction closeInline? text generalizing covered later with
    | case1 => cases closed
    | case2 rest =>
        cases closed
        rfl
    | case3 character rest notMark inductionHypothesis =>
        obtain ⟨⟨tailCovered, tailLater⟩, tailClosed, same⟩ :=
          Option.map_eq_some_iff.mp closed
        cases same
        have stillNoMark : ∀ behind, character = '/' →
            tailCovered = '#' :: behind → False := by
          rintro behind isSlash rfl
          exact notMark _ isSlash (closeInline?_append tailClosed).symm
        rw [closeInline?.eq_3 _ _ stillNoMark, inductionHypothesis tailClosed]
        rfl
  exact closeInline?_append_more alone other

theorem cutComment_again
    {rest later other : List Char}
    {segment : Segment}
    (isCut : cutComment rest = (segment, later))
    (stays : segment.StaysBefore later other) :
    cutComment (segment.text.tail ++ other) = (segment, other) := by
  unfold cutComment at isCut
  split at isCut
  case h_1 inner =>
    split at isCut
    case h_1 covered behind closed =>
      cases isCut
      simp [cutComment, closeInline?_again closed]
    case h_2 isOpen =>
      cases isCut
      obtain rfl : other = [] := by
        cases other with
        | nil => rfl
        | cons character other =>
            rcases stays character rfl with isNext | ⟨isCompact, _⟩
            · cases isNext
            · cases isCompact
      simp [cutComment, isOpen]
  case h_2 notInline =>
    cases isCut
    have stopped : Stops (· != '\n') other :=
      stays.stops_of_not_isCompact rfl (stops_dropWhile rest)
    have isRun : ∀ character ∈ rest.takeWhile (· != '\n'),
        (character != '\n') = true := fun _ => List.mem_takeWhile_imp
    have stillNotInline : ∀ inner,
        rest.takeWhile (· != '\n') ++ other ≠ '/' :: inner := by
      intro inner isSlash
      have isRest := List.takeWhile_append_dropWhile (p := (· != '\n')) (l := rest)
      cases isTaken : rest.takeWhile (· != '\n') with
      | nil =>
          rw [isTaken, List.nil_append] at isSlash
          subst isSlash
          cases stopped '/' rfl
      | cons character run =>
          rw [isTaken] at isSlash isRest
          cases isSlash
          exact notInline _ isRest.symm
    rw [text_comment, List.tail_cons]
    unfold cutComment
    split
    · next isSlash => exact (stillNotInline _ isSlash).elim
    · rw [takeWhile_append_stop isRun stopped,
        dropWhile_append_stop isRun stopped]

theorem cutString_again
    {delimiter : Char}
    {rest later other : List Char}
    {segment : Segment}
    (isCut : cutString delimiter rest = (segment, later))
    (stays : segment.StaysBefore later other) :
    cutString delimiter (segment.text.tail ++ other) = (segment, other) := by
  unfold cutString at isCut ⊢
  simp only at isCut ⊢
  generalize isInside :
    (fun character => character != delimiter && character != '\n') = inside
    at isCut ⊢
  have isRun : ∀ character ∈ rest.takeWhile inside, inside character = true :=
    fun _ => List.mem_takeWhile_imp
  split at isCut
  case h_1 isEmpty =>
    cases isCut
    have stopped : Stops inside other :=
      stays.stops_of_not_isCompact rfl (isEmpty ▸ stops_dropWhile rest)
    rw [text_wholeFault, List.tail_cons, takeWhile_append_stop isRun stopped,
      dropWhile_append_stop isRun stopped]
    cases other with
    | nil => rfl
    | cons character other =>
        rcases stays character rfl with isNext | ⟨isCompact, _⟩
        · cases isNext
        · cases isCompact
  case h_2 character behind isBehind =>
    split at isCut
    case isTrue isDelimiter =>
      cases isCut
      subst isDelimiter
      have stopsBehind : Stops inside (rest.dropWhile inside) :=
        stops_dropWhile rest
      rw [isBehind] at stopsBehind
      have stopped : Stops inside (character :: other) :=
        stops_cons (stopsBehind character rfl) other
      rw [text_token, List.tail_cons, List.append_assoc, List.singleton_append,
        takeWhile_append_stop isRun stopped, dropWhile_append_stop isRun stopped]
      simp
    case isFalse notDelimiter =>
      cases isCut
      have stopped : Stops inside other :=
        stays.stops_of_not_isCompact rfl (isBehind ▸ stops_dropWhile rest)
      rw [text_wholeFault, List.tail_cons, takeWhile_append_stop isRun stopped,
        dropWhile_append_stop isRun stopped]
      cases other with
      | nil => rfl
      | cons first other =>
          rcases stays first rfl with isNext | ⟨isCompact, _⟩
          · cases isNext
            simp [notDelimiter]
          · cases isCompact

theorem cutFaultyNumber_again
    {fault : String → LexicalFault}
    {number afterDot other : List Char}
    (stops : Stops isDigitOrDot other) :
    cutFaultyNumber fault number (afterDot.takeWhile isDigitOrDot ++ other) =
      ((cutFaultyNumber fault number afterDot).1, other) := by
  have isRun : ∀ character ∈ afterDot.takeWhile isDigitOrDot,
      isDigitOrDot character = true := fun _ => List.mem_takeWhile_imp
  rw [cutFaultyNumber, takeWhile_append_stop isRun stops,
    dropWhile_append_stop isRun stops]
  rfl

/-- What is cut off a text with a number at its front is cut off again. -/
theorem NumberCut.again
    {text later other : List Char}
    {segment : Segment}
    (isCut : NumberCut text (segment, later))
    (stays : segment.StaysBefore later other) :
    NumberCut (segment.text ++ other) (segment, other) := by
  have ends (stopped : Stops isDigitOrDot later) : Stops isDigitOrDot other :=
    stays.stops stopped (eq_false_of_isSeparator ⟨rfl, rfl, rfl⟩ rfl)
  generalize isPiece : (segment, later) = piece at isCut
  cases isCut with
  | whole wholeDigits stopped =>
      cases isPiece
      exact .whole wholeDigits (ends stopped)
  | fraction wholeDigits fractionDigits stopped =>
      cases isPiece
      exact .fraction wholeDigits fractionDigits (ends stopped)
  | @trailingDot whole rest wholeDigits noDigit =>
      cases isPiece
      have stops := ends (stops_dropWhile rest)
      have stillNoDigit : Stops Char.isDigit (rest.takeWhile isDigitOrDot ++ other) :=
        stops_append (stops_takeWhile noDigit) (stops_isDigit stops)
      have isAgain := NumberCut.trailingDot wholeDigits stillNoDigit
      rw [cutFaultyNumber_again stops] at isAgain
      rw [text_fault, List.append_assoc]
      exact isAgain
  | @multipleDots whole fraction rest wholeDigits fractionDigits =>
      cases isPiece
      have stops := ends (stops_dropWhile rest)
      have isAgain := @NumberCut.multipleDots _ _ (rest.takeWhile isDigitOrDot ++ other)
        wholeDigits fractionDigits
      rw [cutFaultyNumber_again stops] at isAgain
      rw [text_fault, List.append_assoc]
      exact isAgain

theorem cutNumber_again
    {first : Char}
    {rest later other : List Char}
    {segment : Segment}
    (isDigit : first.isDigit = true)
    (isCut : cutNumber first rest = (segment, later))
    (stays : segment.StaysBefore later other) :
    cutNumber first (segment.text.tail ++ other) = (segment, other) := by
  have isNumber := numberCut_cutNumber isDigit rest
  have isText := cutNumber_append first rest
  have someText := cut_text_ne_nil first rest
  rw [cut_of_isDigit isDigit] at someText
  rw [isCut] at isNumber isText someText
  obtain ⟨digit, behind, isFront, isAgain⟩ := (isNumber.again stays).exists_cut
  obtain ⟨character, text, isSegment⟩ := List.exists_cons_of_ne_nil someText
  rw [isSegment] at isText isFront ⊢
  cases isText
  cases isFront
  rw [cut_of_isDigit isDigit] at isAgain
  exact isAgain

theorem cutWord_again
    {first : Char}
    {rest later other : List Char}
    {segment : Segment}
    (isCut : cutWord first rest = (segment, later))
    (stays : segment.StaysBefore later other) :
    cutWord first (segment.text.tail ++ other) = (segment, other) := by
  have isRun : ∀ character ∈ rest.takeWhile isWordPart,
      isWordPart character = true := fun _ => List.mem_takeWhile_imp
  unfold cutWord at isCut ⊢
  cases isCut
  have stops : Stops isWordPart other :=
    stays.stops (stops_dropWhile rest)
      (eq_false_of_isSeparator ⟨rfl, rfl, rfl⟩ rfl)
  rw [text_plainToken, List.tail_cons, takeWhile_append_stop isRun stops,
    dropWhile_append_stop isRun stops]

theorem cutSymbol_again
    {first : Char}
    {rest later other : List Char}
    {segment : Segment}
    (isCut : cutSymbol first rest = (segment, later))
    (stays : segment.StaysBefore later other) :
    cutSymbol first (segment.text.tail ++ other) = (segment, other) := by
  cases isSymbol : symbolBeforeEqualsOf? first with
  | none =>
      rw [cutSymbol_single (.inl isSymbol)] at isCut
      cases isCut
      rw [text_single, List.tail_cons, List.nil_append,
        cutSymbol_single (.inl isSymbol)]
  | some kind =>
      by_cases isEquals : rest.head? = some '='
      · obtain ⟨behind, rfl⟩ : ∃ behind, rest = '=' :: behind := by
          cases rest with
          | nil => cases isEquals
          | cons character behind =>
              cases isEquals
              exact ⟨behind, rfl⟩
        simp only [cutSymbol, isSymbol] at isCut
        cases isCut
        simp [cutSymbol, isSymbol]
      · rw [cutSymbol_single (.inr isEquals)] at isCut
        cases isCut
        have stillNotEquals : other.head? ≠ some '=' := by
          intro isNext
          rcases stays '=' isNext with same | ⟨_, isSeparator⟩
          · exact isEquals same
          · cases isSeparator
        rw [text_single, List.tail_cons, List.nil_append,
          cutSymbol_single (.inr stillNotEquals)]

/-- A segment is cut off its own text again, in front of whatever it stays the same
before. -/
theorem cut_again
    {first : Char}
    {rest later other : List Char}
    {segment : Segment}
    (isCut : cut first rest = (segment, later))
    (stays : segment.StaysBefore later other) :
    cut first (segment.text.tail ++ other) = (segment, other) := by
  unfold cut at isCut ⊢
  split at isCut
  case isTrue isBreak =>
    rw [if_pos isBreak]
    cases isCut
    rfl
  case isFalse notBreak =>
  rw [if_neg notBreak]
  split at isCut
  case isTrue blankFirst =>
    rw [if_pos blankFirst]
    cases isCut
    have isRun : ∀ character ∈ rest.takeWhile isBlank,
        isBlank character = true := fun _ => List.mem_takeWhile_imp
    have stops : Stops isBlank other :=
      stays.stops_of_not_isCompact rfl (stops_dropWhile rest)
    rw [text_blank, List.tail_cons, takeWhile_append_stop isRun stops,
      dropWhile_append_stop isRun stops]
  case isFalse notBlank =>
  rw [if_neg notBlank]
  split at isCut
  case isTrue isSign =>
    rw [if_pos isSign]
    exact cutComment_again isCut stays
  case isFalse notSign =>
  rw [if_neg notSign]
  split at isCut
  case isTrue isQuote =>
    rw [if_pos isQuote]
    exact cutString_again isCut stays
  case isFalse notQuote =>
  rw [if_neg notQuote]
  split at isCut
  case isTrue isDigit =>
    rw [if_pos isDigit]
    exact cutNumber_again isDigit isCut stays
  case isFalse notDigit =>
  rw [if_neg notDigit]
  split at isCut
  case isTrue isWord =>
    rw [if_pos isWord]
    exact cutWord_again isCut stays
  case isFalse notWord =>
    rw [if_neg notWord]
    exact cutSymbol_again isCut stays

end Segment

/-! ## Runs of segments -/

/-- The text of a segment in front of a text that it stays the same before. -/
theorem segments_again
    {first : Char}
    {rest later other : List Char}
    {segment : Segment}
    (isCut : Segment.cut first rest = (segment, later))
    (stays : segment.StaysBefore later other) :
    segments (segment.text ++ other) = segment :: segments other := by
  have isText := Segment.cut_append first rest
  have someText := Segment.cut_text_ne_nil first rest
  rw [isCut] at isText someText
  cases isFirst : segment.text with
  | nil => exact (someText isFirst).elim
  | cons character text =>
      have again := Segment.cut_again isCut stays
      rw [isFirst] at isText again
      cases isText
      exact segments_of_cut again

/-- The front of the segments of a text is cut off its own text. -/
theorem segments_front
    {text : List Char}
    {front behind : List Segment}
    (isCut : segments text = front ++ behind) :
    segments (front.flatMap Segment.text) = front := by
  fun_induction segments text generalizing front with
  | case1 =>
      obtain ⟨rfl, _⟩ := List.nil_eq_append_iff.mp isCut
      simp [segments]
  | case2 first rest inductionHypothesis =>
      cases front with
      | nil => simp [segments]
      | cons segment front =>
          rw [List.cons_append] at isCut
          obtain ⟨isFirst, isLater⟩ := List.cons.inj isCut
          have whole := flatMap_text_segments (Segment.cut first rest).2
          rw [isLater, List.flatMap_append] at whole
          have stays := Segment.StaysBefore.of_append segment
            (front.flatMap Segment.text) (behind.flatMap Segment.text)
          rw [whole] at stays
          rw [List.flatMap_cons, segments_again (Prod.ext isFirst rfl) stays,
            inductionHypothesis isLater]

/-- What stands behind the front of the segments is cut off its own text. -/
theorem segments_behind
    {text : List Char}
    {front behind : List Segment}
    (isCut : segments text = front ++ behind) :
    segments (behind.flatMap Segment.text) = behind := by
  fun_induction segments text generalizing front with
  | case1 =>
      obtain ⟨_, rfl⟩ := List.nil_eq_append_iff.mp isCut
      simp [segments]
  | case2 first rest inductionHypothesis =>
      cases front with
      | nil =>
          rw [List.nil_append, ← segments] at isCut
          rw [← isCut, flatMap_text_segments]
      | cons segment front =>
          exact inductionHypothesis (List.cons.inj isCut).2

end Scriptlet
