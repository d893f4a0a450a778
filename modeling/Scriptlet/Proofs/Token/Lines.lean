import Scriptlet.Token.Scan

namespace Scriptlet

/-!
# Cutting a text line by line

The only segment that takes a line break and goes on behind it is an inline comment.
So where no such comment is left open, a text and a further line behind it are cut up
on their own.
-/

section Stops

variable {inside : Char → Bool}

theorem takeWhile_append_line
    (stops : inside '\n' = false)
    (text more : List Char) :
    (text ++ '\n' :: more).takeWhile inside = text.takeWhile inside := by
  induction text with
  | nil =>
      simp [stops]
  | cons character rest inductionHypothesis =>
      by_cases isInside : inside character = true
      · simp [isInside, inductionHypothesis]
      · simp [isInside]

theorem dropWhile_append_line
    (stops : inside '\n' = false)
    (text more : List Char) :
    (text ++ '\n' :: more).dropWhile inside =
      text.dropWhile inside ++ '\n' :: more := by
  induction text with
  | nil =>
      simp [stops]
  | cons character rest inductionHypothesis =>
      by_cases isInside : inside character = true
      · simp [isInside, inductionHypothesis]
      · simp [isInside]

end Stops

namespace Segment

/-- Whether a segment is faulty. -/
def isFault : Segment → Bool
  | .fault _ _ _ _ => true
  | _ => false

/-- Whether a segment is an inline comment that is never closed. -/
def isOpenComment : Segment → Bool
  | .fault .unterminatedInlineComment _ _ _ => true
  | _ => false

theorem not_isOpenComment
    {segment : Segment}
    (notFault : segment.isFault = false) :
    segment.isOpenComment = false := by
  cases segment with
  | fault => cases notFault
  | _ => rfl

/-! ## One segment -/

/-- What closes an inline comment does so whatever stands behind it. -/
theorem closeInline?_append_more
    {text covered later : List Char}
    (closed : closeInline? text = some (covered, later))
    (more : List Char) :
    closeInline? (text ++ more) = some (covered, later ++ more) := by
  fun_induction closeInline? text generalizing covered later with
  | case1 => cases closed
  | case2 rest =>
      cases closed
      rfl
  | case3 character rest notMark inductionHypothesis =>
      rw [Option.map_eq_some_iff] at closed
      obtain ⟨⟨tailCovered, tailLater⟩, tailClosed, same⟩ := closed
      cases same
      have stillNoMark : ∀ behind, character = '/' →
          rest ++ more = '#' :: behind → False := by
        intro behind isSlash isSign
        cases rest with
        | nil => cases tailClosed
        | cons next rest =>
            obtain ⟨rfl, _⟩ := List.cons.inj isSign
            exact notMark rest isSlash rfl
      rw [List.cons_append, closeInline?.eq_3 _ _ stillNoMark,
        inductionHypothesis tailClosed]
      rfl

theorem cutComment_append_line
    (rest more : List Char)
    (closed : (cutComment rest).1.isOpenComment = false) :
    cutComment (rest ++ '\n' :: more) =
      ((cutComment rest).1, (cutComment rest).2 ++ '\n' :: more) := by
  have upToBreak : ∀ text : List Char, (∀ inner, text ≠ '/' :: inner) →
      cutComment text =
        (.comment ('#' :: text.takeWhile (· != '\n')),
          text.dropWhile (· != '\n')) := by
    intro text notInline
    unfold cutComment
    split
    · next inner => exact (notInline inner rfl).elim
    · rfl
  by_cases isInline : ∃ inner, rest = '/' :: inner
  · obtain ⟨inner, rfl⟩ := isInline
    cases found : closeInline? inner with
    | none => simp [cutComment, found, isOpenComment, wholeFault] at closed
    | some parts =>
        simp [cutComment, found, closeInline?_append_more found]
  · have notInline : ∀ inner, rest ≠ '/' :: inner := fun inner isSlash =>
      isInline ⟨inner, isSlash⟩
    have stillNotInline : ∀ inner, rest ++ '\n' :: more ≠ '/' :: inner := by
      intro inner isSlash
      cases rest with
      | nil => cases isSlash
      | cons character rest =>
          obtain ⟨rfl, _⟩ := List.cons.inj isSlash
          exact notInline rest rfl
    rw [upToBreak _ notInline, upToBreak _ stillNotInline,
      takeWhile_append_line rfl, dropWhile_append_line rfl]

theorem cutString_append_line
    {delimiter : Char}
    (notBreak : delimiter ≠ '\n')
    (rest more : List Char) :
    cutString delimiter (rest ++ '\n' :: more) =
      ((cutString delimiter rest).1,
        (cutString delimiter rest).2 ++ '\n' :: more) := by
  unfold cutString
  simp only
  rw [takeWhile_append_line (by simp), dropWhile_append_line (by simp)]
  cases rest.dropWhile _ with
  | nil => simp [notBreak.symm]
  | cons character later =>
      simp only [List.cons_append]
      split <;> rfl

theorem cutFaultyNumber_append_line
    (fault : String → LexicalFault)
    (number afterDot more : List Char) :
    cutFaultyNumber fault number (afterDot ++ '\n' :: more) =
      ((cutFaultyNumber fault number afterDot).1,
        (cutFaultyNumber fault number afterDot).2 ++ '\n' :: more) := by
  rw [cutFaultyNumber, takeWhile_append_line rfl, dropWhile_append_line rfl]
  rfl

theorem cutFraction_append_line (whole fraction rest more : List Char) :
    cutFraction whole fraction (rest ++ '\n' :: more) =
      ((cutFraction whole fraction rest).1,
        (cutFraction whole fraction rest).2 ++ '\n' :: more) := by
  cases rest with
  | nil => rfl
  | cons character rest =>
      by_cases isDot : character = '.'
      · subst isDot
        exact cutFaultyNumber_append_line _ _ rest more
      · simp [cutFraction, isDot]

theorem cutNumber_append_line (first : Char) (rest more : List Char) :
    cutNumber first (rest ++ '\n' :: more) =
      ((cutNumber first rest).1, (cutNumber first rest).2 ++ '\n' :: more) := by
  unfold cutNumber
  rw [takeWhile_append_line rfl, dropWhile_append_line rfl]
  cases rest.dropWhile Char.isDigit with
  | nil => rfl
  | cons character afterDot =>
      by_cases isDot : character = '.'
      · subst isDot
        simp only [List.cons_append]
        rw [takeWhile_append_line rfl, dropWhile_append_line rfl]
        cases afterDot.takeWhile Char.isDigit with
        | nil => exact cutFaultyNumber_append_line _ _ afterDot more
        | cons digit digits => exact cutFraction_append_line _ _ _ more
      · simp [isDot]

theorem cutWord_append_line (first : Char) (rest more : List Char) :
    cutWord first (rest ++ '\n' :: more) =
      ((cutWord first rest).1, (cutWord first rest).2 ++ '\n' :: more) := by
  unfold cutWord
  rw [takeWhile_append_line rfl, dropWhile_append_line rfl]

theorem cutSymbol_append_line (first : Char) (rest more : List Char) :
    cutSymbol first (rest ++ '\n' :: more) =
      ((cutSymbol first rest).1, (cutSymbol first rest).2 ++ '\n' :: more) := by
  cases rest with
  | nil => rfl
  | cons character rest =>
      by_cases isEquals : character = '='
      · subst isEquals
        simp only [cutSymbol, List.cons_append]
        split <;> rfl
      · simp [cutSymbol, isEquals]

/-- A segment that is no open comment is the same in front of a further line. -/
theorem cut_append_line
    (first : Char)
    (rest more : List Char)
    (closed : (cut first rest).1.isOpenComment = false) :
    cut first (rest ++ '\n' :: more) =
      ((cut first rest).1, (cut first rest).2 ++ '\n' :: more) := by
  unfold cut at closed ⊢
  split
  · rfl
  next notBreak =>
  split
  · rw [takeWhile_append_line rfl, dropWhile_append_line rfl]
  split
  · next notBlank isSign =>
      rw [if_neg notBreak, if_neg notBlank, if_pos isSign] at closed
      exact cutComment_append_line rest more closed
  split
  · exact cutString_append_line notBreak rest more
  split
  · exact cutNumber_append_line first rest more
  split
  · exact cutWord_append_line first rest more
  · exact cutSymbol_append_line first rest more

end Segment

/-! ## All segments -/

/-- The segments of a text without open comments, and those of a further line. -/
theorem segments_append_line
    (text more : List Char)
    (closed : ∀ segment ∈ segments text, segment.isOpenComment = false) :
    segments (text ++ '\n' :: more) =
      segments text ++ Segment.plainToken .newline ['\n'] :: segments more := by
  fun_induction segments text with
  | case1 =>
      rw [List.nil_append, segments]
      rfl
  | case2 first rest inductionHypothesis =>
      rw [List.forall_mem_cons] at closed
      rw [List.cons_append, segments,
        Segment.cut_append_line first rest more closed.1,
        inductionHypothesis closed.2, List.cons_append]

/-! ## Tokens and faults among the segments -/

namespace Segment

theorem placed_append
    (start : Position)
    (front behind : List Segment) :
    placed start (front ++ behind) =
      placed start front ++
        placed (start.after (front.flatMap text)) behind := by
  induction front generalizing start with
  | nil => rfl
  | cons segment later inductionHypothesis =>
      rw [List.cons_append, placed, inductionHypothesis, List.flatMap_cons,
        Position.after_append]
      rfl

/-- Faulty segments are reported, and nothing else is. -/
theorem diagnostics_eq_nil_iff
    {source : SourceUnit}
    {start : Position}
    {found : List Segment} :
    (placed start found).filterMap (diagnostic? source) = [] ↔
      ∀ segment ∈ found, segment.isFault = false := by
  induction found generalizing start with
  | nil => simp [placed]
  | cons segment later inductionHypothesis =>
      have behind := @inductionHypothesis (start.after segment.text)
      rw [placed, List.forall_mem_cons, ← behind]
      cases segment with
      | fault => exact iff_of_false nofun (fun allSound => nomatch allSound.1)
      | _ => exact (and_iff_right rfl).symm

end Segment

/-! ## The spellings of symbols and reserved words -/

namespace TokenKind

/-- A word that is no identifier is spelled like the reserved word that it is. -/
theorem keyword?_ofWord
    (word : String)
    (notName : ofWord word ≠ .identifier) :
    (ofWord word).keyword? = some word := by
  unfold ofWord at notName ⊢
  cases found : all.find? fun kind => kind.keyword? == some word with
  | none =>
      rw [found] at notName
      exact absurd rfl notName
  | some kind =>
      simpa using List.find?_some found

/-- A word is of no other kind than a reserved word or an identifier. -/
theorem ofWord_ne
    {kind : TokenKind}
    (notKeyword : kind.keyword? = none)
    (notName : kind ≠ .identifier)
    (word : String) :
    ofWord word ≠ kind := by
  rintro rfl
  rw [keyword?_ofWord word notName] at notKeyword
  cases notKeyword

end TokenKind

namespace Segment

/-- A table of symbols holds a symbol if its first row or one of the others does. -/
theorem symbol?_of_ite
    {kind found : TokenKind}
    {others : Option TokenKind}
    {symbol : String}
    {condition : Prop}
    [Decidable condition]
    (isSymbol : condition → kind.symbol? = some symbol)
    (isOther : others = some found → found.symbol? = some symbol) :
    (if condition then some kind else others) = some found →
      found.symbol? = some symbol := by
  intro isFound
  split at isFound
  case isTrue holds =>
    cases isFound
    exact isSymbol holds
  case isFalse =>
    exact isOther isFound

/-- What a character makes on its own is spelled with it. -/
theorem symbol?_of_symbolOf? {character : Char} {kind : TokenKind} :
    symbolOf? character = some kind →
      kind.symbol? = some (String.ofList [character]) := by
  unfold symbolOf?
  repeat refine symbol?_of_ite (by rintro rfl; rfl) ?_
  exact nofun

/-- What a character makes with an equals sign is spelled with both. -/
theorem symbol?_of_symbolBeforeEqualsOf? {character : Char} {kind : TokenKind} :
    symbolBeforeEqualsOf? character = some kind →
      kind.symbol? = some (String.ofList [character, '=']) := by
  unfold symbolBeforeEqualsOf?
  repeat refine symbol?_of_ite (by rintro rfl; rfl) ?_
  exact nofun

end Segment

/-- Every segment of a text is cut off at some place. -/
theorem exists_cut_of_mem_segments
    {text : List Char}
    {segment : Segment}
    (member : segment ∈ segments text) :
    ∃ first rest, segment = (Segment.cut first rest).1 := by
  fun_induction segments text with
  | case1 => cases member
  | case2 first rest inductionHypothesis =>
      rcases List.mem_cons.mp member with isFirst | isLater
      · exact ⟨first, rest, isFirst⟩
      · exact inductionHypothesis isLater

end Scriptlet
