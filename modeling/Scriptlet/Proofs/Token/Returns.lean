import Scriptlet.Proofs.Grammar.Repetition
import Scriptlet.Proofs.Token.Recutting

namespace Scriptlet

/-!
# Carriage returns in front of line breaks

Whether lines end in a line break alone or in a carriage return with a line break does
not matter to a scan: the tokens and the diagnostics are the same, on the same lines
and in the same columns, line breaks themselves apart.  The carriage return makes a
run of blanks of its own, or it is the last character of the run of blanks, the
comment or the open string in front of it.
-/

/-- A text with a carriage return in front of every line break. -/
def withReturns : List Char → List Char
  | [] => []
  | character :: rest =>
      if character = '\n' then
        '\r' :: '\n' :: withReturns rest
      else
        character :: withReturns rest

@[simp] theorem withReturns_nil :
    withReturns [] = [] :=
  rfl

@[simp] theorem withReturns_break (rest : List Char) :
    withReturns ('\n' :: rest) = '\r' :: '\n' :: withReturns rest :=
  rfl

theorem withReturns_cons
    {character : Char}
    (notBreak : character ≠ '\n')
    (rest : List Char) :
    withReturns (character :: rest) = character :: withReturns rest :=
  if_neg notBreak

theorem withReturns_append (first second : List Char) :
    withReturns (first ++ second) = withReturns first ++ withReturns second := by
  induction first with
  | nil => rfl
  | cons character first inductionHypothesis =>
      by_cases isBreak : character = '\n'
      · subst isBreak
        rw [List.cons_append, withReturns_break, withReturns_break,
          inductionHypothesis]
        rfl
      · rw [List.cons_append, withReturns_cons isBreak, withReturns_cons isBreak,
          inductionHypothesis]
        rfl

/-- On one line nothing changes. -/
theorem withReturns_of_not_mem
    {text : List Char}
    (noBreak : '\n' ∉ text) :
    withReturns text = text := by
  induction text with
  | nil => rfl
  | cons character text inductionHypothesis =>
      obtain ⟨isOther, noBreakBehind⟩ := not_or.mp (mt List.mem_cons.mpr noBreak)
      rw [withReturns_cons (Ne.symm isOther), inductionHypothesis noBreakBehind]

/-! ## Lines -/

theorem withoutReturn_cons
    {character : Char}
    (notReturn : character ≠ '\r')
    (row : List Char) :
    withoutReturn (character :: row) = character :: withoutReturn row := by
  cases row with
  | nil => simp [withoutReturn, notReturn]
  | cons next row =>
      simp only [withoutReturn, List.getLast?_cons_cons, List.dropLast_cons_cons]
      split
      · rfl
      · rfl

/-- The rows of a text, their closing carriage returns taken off. -/
theorem rows_withReturns
    {text : List Char}
    (noReturn : '\r' ∉ text) :
    (rows (withReturns text)).map withoutReturn = (rows text).map withoutReturn := by
  induction text with
  | nil => rfl
  | cons character text inductionHypothesis =>
      obtain ⟨isOther, noReturnBehind⟩ := not_or.mp (mt List.mem_cons.mpr noReturn)
      have sameRows := inductionHypothesis noReturnBehind
      by_cases isBreak : character = '\n'
      · subst isBreak
        exact congrArg (List.cons _) sameRows
      · rw [withReturns_cons isBreak, rows, rows, if_neg isBreak, if_neg isBreak]
        cases isReturned : rows (withReturns text) with
        | nil => exact (rows_ne_nil _ isReturned).elim
        | cons returned returnedLater =>
            cases isRows : rows text with
            | nil => exact (rows_ne_nil _ isRows).elim
            | cons row later =>
                rw [isReturned, isRows, List.map_cons, List.map_cons] at sameRows
                obtain ⟨sameRow, sameLater⟩ := List.cons.inj sameRows
                rw [List.map_cons, List.map_cons, withoutReturn_cons (Ne.symm isOther),
                  withoutReturn_cons (Ne.symm isOther), sameRow, sameLater]

/-! ## Places -/

/-- Whether two places are in the same column of the same line. -/
structure Position.SameCell (position other : Position) : Prop where
  line_eq : other.line = position.line
  column_eq : other.column = position.column

namespace Position.SameCell

variable {position other : Position}

theorem step
    (same : position.SameCell other)
    (character : Char) :
    (position.step character).SameCell (other.step character) := by
  unfold Position.step
  split
  · exact ⟨congrArg (· + 1) same.line_eq, rfl⟩
  · exact ⟨same.line_eq, congrArg (· + 1) same.column_eq⟩

/-- The carriage returns of a text leave no trace behind it. -/
theorem after
    (same : position.SameCell other)
    (text : List Char) :
    (position.after text).SameCell (other.after (withReturns text)) := by
  induction text generalizing position other with
  | nil => exact same
  | cons character text inductionHypothesis =>
      by_cases isBreak : character = '\n'
      · subst isBreak
        apply inductionHypothesis
        exact ⟨congrArg (· + 1) same.line_eq, rfl⟩
      · rw [withReturns_cons isBreak]
        exact inductionHypothesis (same.step character)

/-- Nor does a text of one line leave any. -/
theorem after_line
    (same : position.SameCell other)
    {text : List Char}
    (noBreak : '\n' ∉ text) :
    (position.after text).SameCell (other.after text) := by
  have behind := same.after text
  rwa [withReturns_of_not_mem noBreak] at behind

end Position.SameCell

/-! ## One segment -/

section Runs

variable {inside : Char → Bool}

theorem not_mem_takeWhile
    (stops : inside '\n' = false)
    (text : List Char) :
    '\n' ∉ text.takeWhile inside := by
  intro member
  have isInside := List.mem_takeWhile_imp member
  rw [stops] at isInside
  cases isInside

/-- A run of characters that may hold a carriage return, but no line break, takes
the one behind it if it is stopped by a line break. -/
theorem run_withReturns
    (stops : inside '\n' = false)
    (takes : inside '\r' = true)
    (text : List Char) :
    (withReturns text).takeWhile inside = text.takeWhile inside ∧
        (withReturns text).dropWhile inside =
          withReturns (text.dropWhile inside) ∨
      ∃ more, text.dropWhile inside = '\n' :: more ∧
        (withReturns text).takeWhile inside = text.takeWhile inside ++ ['\r'] ∧
        (withReturns text).dropWhile inside = '\n' :: withReturns more := by
  induction text with
  | nil => exact .inl ⟨rfl, rfl⟩
  | cons character text inductionHypothesis =>
      by_cases isBreak : character = '\n'
      · subst isBreak
        refine .inr ⟨text, ?_, ?_, ?_⟩
        · simp [stops]
        · simp [stops, takes]
        · simp [stops, takes]
      rw [withReturns_cons isBreak]
      by_cases isInside : inside character = true
      · rw [List.takeWhile_cons_of_pos isInside, List.takeWhile_cons_of_pos isInside,
          List.dropWhile_cons_of_pos isInside, List.dropWhile_cons_of_pos isInside]
        rcases inductionHypothesis with ⟨taken, left⟩ | ⟨more, behind, taken, left⟩
        · exact .inl ⟨congrArg _ taken, left⟩
        · exact .inr ⟨more, behind, congrArg _ taken, left⟩
      · rw [List.takeWhile_cons_of_neg isInside, List.takeWhile_cons_of_neg isInside,
          List.dropWhile_cons_of_neg isInside, List.dropWhile_cons_of_neg isInside]
        exact .inl ⟨rfl, (withReturns_cons isBreak text).symm⟩

end Runs

namespace Segment

/-- What a segment of one line, or a comment, may become. -/
inductive Kept : Segment → Segment → Prop where
  | token
      (notBreak : kind ≠ .newline)
      (noBreak : '\n' ∉ covered) :
      Kept (.token kind lexeme covered) (.token kind lexeme covered)
  | blank :
      Kept (.blank covered) (.blank returned)
  | comment :
      Kept (.comment covered) (.comment returned)
  | fault
      (kind_eq : other.kind = cause.kind)
      (message_eq : other.message = cause.message)
      (noBreak : '\n' ∉ lead) :
      Kept (.fault cause lead marked trail) (.fault other lead returned skipped)

/-- What is cut off once there are carriage returns, given what was cut off before:
the carriage return in front of the next line break may be taken along. -/
inductive Returned :
    Segment × List Char → Segment × List Char → Prop where
  | left
      (isKept : Kept piece other)
      (isText : other.text = withReturns piece.text) :
      Returned (piece, later) (other, withReturns later)
  | taken
      (isKept : Kept piece other)
      (isText : other.text = withReturns piece.text ++ ['\r']) :
      Returned (piece, '\n' :: later) (other, '\n' :: withReturns later)

theorem not_mem_cutNumber
    {first : Char}
    (notBreak : '\n' ≠ first)
    (rest : List Char) :
    '\n' ∉ (cutNumber first rest).1.text := by
  have noDigit : ∀ text : List Char,
      '\n' ∉ text.takeWhile Char.isDigit :=
    not_mem_takeWhile rfl
  have noDigitOrDot : ∀ text : List Char,
      '\n' ∉ text.takeWhile isDigitOrDot :=
    not_mem_takeWhile rfl
  have notDot : '\n' ≠ '.' := by decide
  unfold cutNumber
  simp only
  split
  case h_1 afterDot isBehind =>
    split
    case h_1 =>
      simp [cutFaultyNumber, notBreak, notDot, noDigit, noDigitOrDot]
    case h_2 digit digits isFraction =>
      have noFraction := noDigit afterDot
      rw [isFraction, List.mem_cons, not_or] at noFraction
      unfold cutFraction
      simp only
      split
      · simp [cutFaultyNumber, notBreak, notDot, noDigit, noDigitOrDot, noFraction]
      · simp [notBreak, notDot, noDigit, noFraction]
  case h_2 =>
    simp [notBreak, noDigit]

theorem not_mem_cutSymbol
    {first : Char}
    (notBreak : '\n' ≠ first)
    (rest : List Char) :
    '\n' ∉ (cutSymbol first rest).1.text := by
  unfold cutSymbol
  simp only
  repeat' split
  all_goals simp [notBreak]

/-- Whether a character goes on with the content of a string literal. -/
def isContent (delimiter character : Char) : Bool :=
  character != delimiter && character != '\n'

/-- A string that is never closed, up to the end of its content. -/
def openString (delimiter : Char) (content : List Char) : Segment :=
  wholeFault (.unterminatedString delimiter (String.ofList content))
    (delimiter :: content)

theorem cutString_eq (delimiter : Char) (text : List Char) :
    cutString delimiter text =
      match text.dropWhile (isContent delimiter) with
      | [] => (openString delimiter (text.takeWhile (isContent delimiter)), [])
      | character :: later =>
          if character = delimiter then
            (.token .string (text.takeWhile (isContent delimiter))
              (delimiter :: (text.takeWhile (isContent delimiter) ++
                [delimiter])), later)
          else
            (openString delimiter (text.takeWhile (isContent delimiter)),
              character :: later) :=
  rfl

/-- A string literal is on one line. -/
theorem not_mem_cutString
    {delimiter : Char}
    (notBreak : '\n' ≠ delimiter)
    (rest : List Char) :
    '\n' ∉ (cutString delimiter rest).1.text := by
  have noContent : '\n' ∉ rest.takeWhile (isContent delimiter) :=
    not_mem_takeWhile (by simp [isContent]) rest
  rw [cutString_eq]
  repeat' split
  all_goals simp [openString, notBreak, noContent]

/-- What is compact and no line break itself is on one line. -/
theorem not_mem_of_isCompact
    {first : Char}
    (notBreak : '\n' ≠ first)
    {rest : List Char}
    (compact : (cut first rest).1.isCompact = true) :
    '\n' ∉ (cut first rest).1.text := by
  unfold cut at compact ⊢
  rw [if_neg notBreak.symm] at compact ⊢
  split at compact
  case isTrue => cases compact
  case isFalse notBlank =>
  rw [if_neg notBlank]
  split at compact
  case isTrue =>
    unfold cutComment at compact
    repeat' split at compact
    all_goals cases compact
  case isFalse notSign =>
  rw [if_neg notSign]
  split
  · exact not_mem_cutString notBreak rest
  split
  · exact not_mem_cutNumber notBreak rest
  split
  · have noWordPart : '\n' ∉ rest.takeWhile isWordPart :=
      not_mem_takeWhile rfl rest
    simp [cutWord, notBreak, noWordPart]
  · exact not_mem_cutSymbol notBreak rest

theorem closeInline?_cons
    {character : Char}
    (notSlash : character ≠ '/')
    (rest : List Char) :
    closeInline? (character :: rest) =
      (closeInline? rest).map fun (covered, later) =>
        (character :: covered, later) :=
  closeInline?.eq_3 _ _ fun _ isSlash => (notSlash isSlash).elim

/-- Inline comments are closed by the same marks. -/
theorem closeInline?_withReturns (text : List Char) :
    closeInline? (withReturns text) =
      (closeInline? text).map fun (covered, later) =>
        (withReturns covered, withReturns later) := by
  fun_induction closeInline? text with
  | case1 => rfl
  | case2 rest => rfl
  | case3 character rest notMark inductionHypothesis =>
      by_cases isBreak : character = '\n'
      · subst isBreak
        rw [withReturns_break, closeInline?_cons (by decide),
          closeInline?_cons (by decide), inductionHypothesis]
        cases closeInline? rest <;> rfl
      · have stillNoMark : ∀ behind, character = '/' →
            withReturns rest = '#' :: behind → False := by
          intro behind isSlash isSign
          cases rest with
          | nil => cases isSign
          | cons next rest =>
              by_cases breakNext : next = '\n'
              · subst breakNext
                cases isSign
              · rw [withReturns_cons breakNext] at isSign
                cases isSign
                exact notMark rest isSlash rfl
        rw [withReturns_cons isBreak, closeInline?.eq_3 _ _ stillNoMark,
          inductionHypothesis]
        cases closeInline? rest with
        | none => rfl
        | some parts =>
            simp [withReturns_cons isBreak]

/-- What ends where a run of characters ends, the carriage return in front of a line
break being part of the run. -/
theorem returned_run
    {first : Char}
    {inside : Char → Bool}
    {segment : List Char → Segment}
    (notBreak : first ≠ '\n')
    (stops : inside '\n' = false)
    (takes : inside '\r' = true)
    (isText : ∀ run, (segment run).text = first :: run)
    (isKept : ∀ run other, Kept (segment run) (segment other))
    (text : List Char) :
    Returned (segment (text.takeWhile inside), text.dropWhile inside)
      (segment ((withReturns text).takeWhile inside),
        (withReturns text).dropWhile inside) := by
  have sameRun := withReturns_of_not_mem (not_mem_takeWhile stops text)
  rcases run_withReturns stops takes text with
    ⟨taken, left⟩ | ⟨more, behind, taken, left⟩
  · rw [taken, left]
    apply Returned.left (isKept _ _)
    rw [isText, withReturns_cons notBreak, sameRun]
  · rw [taken, left, behind]
    apply Returned.taken (isKept _ _)
    rw [isText, isText, withReturns_cons notBreak, sameRun]
    rfl

/-- A comment that is no inline comment. -/
theorem cutComment_line
    {text : List Char}
    (notInline : text.head? ≠ some '/') :
    cutComment text =
      (.comment ('#' :: text.takeWhile (· != '\n')),
        text.dropWhile (· != '\n')) := by
  unfold cutComment
  split
  case h_1 inner => exact (notInline rfl).elim
  case h_2 => rfl

/-- A text starts with the same character, unless it starts with a line break. -/
theorem head?_withReturns
    {character : Char}
    (notReturn : character ≠ '\r')
    {text : List Char}
    (isFirst : (withReturns text).head? = some character) :
    text.head? = some character := by
  cases text with
  | nil => cases isFirst
  | cons first text =>
      by_cases isBreak : first = '\n'
      · subst isBreak
        cases isFirst
        exact (notReturn rfl).elim
      · rw [withReturns_cons isBreak] at isFirst
        exact isFirst

theorem cutComment_withReturns (rest : List Char) :
    Returned (cutComment rest) (cutComment (withReturns rest)) := by
  by_cases isInline : rest.head? = some '/'
  · obtain ⟨inner, rfl⟩ := List.head?_eq_some_iff.mp isInline
    have sameClosing := closeInline?_withReturns inner
    rw [withReturns_cons (by decide)]
    cases closed : closeInline? inner with
    | none =>
        rw [closed] at sameClosing
        simp only [cutComment, closed, sameClosing, Option.map_none]
        refine .left (.fault rfl rfl List.not_mem_nil) ?_
        simp [withReturns_cons]
    | some parts =>
        rw [closed] at sameClosing
        simp only [cutComment, closed, sameClosing, Option.map_some]
        refine .left .comment ?_
        simp [withReturns_cons]
  · have stillNotInline : (withReturns rest).head? ≠ some '/' :=
      mt (head?_withReturns (by decide)) isInline
    rw [cutComment_line isInline, cutComment_line stillNotInline]
    exact returned_run (by decide) rfl rfl (fun _ => rfl) (fun _ _ => .comment) rest

theorem cutString_open
    {delimiter : Char}
    {text : List Char}
    (notClosed : (text.dropWhile (isContent delimiter)).head? ≠ some delimiter) :
    cutString delimiter text =
      (openString delimiter (text.takeWhile (isContent delimiter)),
        text.dropWhile (isContent delimiter)) := by
  rw [cutString_eq]
  cases behind : text.dropWhile (isContent delimiter) with
  | nil => rfl
  | cons character later =>
      rw [behind] at notClosed
      have notDelimiter : character ≠ delimiter := fun isDelimiter =>
        notClosed (congrArg some isDelimiter)
      exact if_neg notDelimiter

theorem isCompact_cutString
    {delimiter : Char}
    {text later : List Char}
    (closes : text.dropWhile (isContent delimiter) = delimiter :: later) :
    (cutString delimiter text).1.isCompact = true := by
  rw [cutString_eq, closes]
  simp [isCompact]

/-- A string that is not closed takes the carriage return behind it. -/
theorem cutString_withReturns
    {delimiter : Char}
    (isQuote : delimiter = '\x22' ∨ delimiter = '\x27')
    {rest : List Char}
    (notCompact : (cutString delimiter rest).1.isCompact ≠ true) :
    Returned (cutString delimiter rest)
      (cutString delimiter (withReturns rest)) := by
  have notBreak : delimiter ≠ '\n' := by
    rcases isQuote with rfl | rfl <;> decide
  have notReturn : delimiter ≠ '\r' := by
    rcases isQuote with rfl | rfl <;> decide
  have stops : isContent delimiter '\n' = false := by
    simp [isContent]
  have takes : isContent delimiter '\r' = true := by
    simp [isContent, notReturn.symm]
  have notClosed : (rest.dropWhile (isContent delimiter)).head? ≠
      some delimiter := by
    intro isNext
    obtain ⟨later, behind⟩ := List.head?_eq_some_iff.mp isNext
    exact notCompact (isCompact_cutString behind)
  have stillNotClosed :
      ((withReturns rest).dropWhile (isContent delimiter)).head? ≠
        some delimiter := by
    rcases run_withReturns stops takes rest with
      ⟨_, left⟩ | ⟨more, _, _, left⟩
    · rw [left]
      exact mt (head?_withReturns notReturn) notClosed
    · rw [left]
      exact fun isNext => notBreak (Option.some.inj isNext).symm
  rw [cutString_open notClosed, cutString_open stillNotClosed]
  have isKept : ∀ content other,
      Kept (openString delimiter content) (openString delimiter other) :=
    fun _ _ => .fault rfl rfl List.not_mem_nil
  exact returned_run notBreak stops takes (fun _ => text_wholeFault _ _) isKept rest

/-- What is on one line may stay the same. -/
theorem Kept.refl
    {segment : Segment}
    {rest : List Char}
    (fits : segment.Fits rest)
    (noBreak : '\n' ∉ segment.text) :
    Kept segment segment := by
  cases segment with
  | token kind lexeme covered =>
      refine .token ?_ noBreak
      intro isBreak
      rw [text_token, fits.isBreak isBreak] at noBreak
      exact noBreak List.mem_cons_self
  | blank covered => exact .blank
  | comment covered => exact .comment
  | fault cause lead marked trail =>
      exact .fault rfl rfl fun member => noBreak (List.mem_append_left _ member)

theorem isCompact_cutNumber (first : Char) (rest : List Char) :
    (cutNumber first rest).1.isCompact = true := by
  unfold cutNumber cutFraction cutFaultyNumber
  repeat' split
  all_goals rfl

theorem isCompact_cutSymbol (first : Char) (rest : List Char) :
    (cutSymbol first rest).1.isCompact = true := by
  unfold cutSymbol
  simp only
  repeat' split
  all_goals rfl

/-- What is compact stays the same in front of a carriage return. -/
theorem returned_of_isCompact
    {first : Char}
    (notBreak : '\n' ≠ first)
    {rest : List Char}
    (compact : (cut first rest).1.isCompact = true) :
    Returned (cut first rest) (cut first (withReturns rest)) := by
  have noBreak := not_mem_of_isCompact notBreak compact
  have fits := fits_cut first rest
  have isText := cut_append first rest
  have someText := cut_text_ne_nil first rest
  generalize isCut : cut first rest = piece at *
  obtain ⟨segment, later⟩ := piece
  have isRest : rest = segment.text.tail ++ later := by
    rw [← List.tail_append_of_ne_nil someText, isText, List.tail_cons]
  have stays : segment.StaysBefore later (withReturns later) := by
    intro character isNext
    by_cases isReturn : character = '\r'
    · subst isReturn
      exact .inr ⟨compact, rfl⟩
    · exact .inl (head?_withReturns isReturn isNext)
  have noBreakBehind : '\n' ∉ segment.text.tail := fun member =>
    noBreak (List.mem_of_mem_tail member)
  have again := cut_again isCut stays
  rw [isRest, withReturns_append, withReturns_of_not_mem noBreakBehind, again]
  exact .left (.refl fits noBreak) (withReturns_of_not_mem noBreak).symm

/-- Carriage returns come into what is cut off a line, or into a comment. -/
theorem cut_withReturns
    {first : Char}
    (notBreak : '\n' ≠ first)
    (rest : List Char) :
    Returned (cut first rest) (cut first (withReturns rest)) := by
  by_cases compact : (cut first rest).1.isCompact = true
  · exact returned_of_isCompact notBreak compact
  unfold cut at compact ⊢
  rw [if_neg notBreak.symm] at compact ⊢
  rw [if_neg notBreak.symm]
  split
  case isTrue =>
    exact returned_run notBreak.symm rfl rfl (fun _ => rfl) (fun _ _ => .blank) rest
  case isFalse notBlank =>
  rw [if_neg notBlank] at compact
  split
  case isTrue =>
    exact cutComment_withReturns rest
  case isFalse notSign =>
  rw [if_neg notSign] at compact
  split
  case isTrue isQuote =>
    rw [if_pos isQuote] at compact
    exact cutString_withReturns isQuote compact
  case isFalse notQuote =>
    rw [if_neg notQuote] at compact
    split at compact
    · exact (compact (isCompact_cutNumber first rest)).elim
    split at compact
    · exact (compact rfl).elim
    · exact (compact (isCompact_cutSymbol first rest)).elim

end Segment

/-! ## Tokens and diagnostics -/

/-- That a token stays the same when carriage returns come into its text: line breaks
start one column later, and everything else is in the same place. -/
structure Token.Kept (token other : Token) : Prop extends token.SameText other where
  inPlace : token.kind ≠ .newline →
    token.span.start.SameCell other.span.start ∧
      token.span.stop.SameCell other.span.stop
  moved : token.kind = .newline →
    other.span.start.line = token.span.start.line ∧
      other.span.start.column = token.span.start.column + 1

/-- That a diagnostic says the same about the same place. -/
structure Diagnostic.Kept (diagnostic other : Diagnostic) : Prop where
  kind_eq : other.kind = diagnostic.kind
  message_eq : other.message = diagnostic.message
  inPlace : diagnostic.span.start.SameCell other.span.start

/-- That the tokens and the diagnostics of segments are kept among others. -/
structure Segment.AllKept
    (source returned : SourceUnit)
    (found other : List (Position × Segment)) :
    Prop where
  tokens :
    List.Forall₂ Token.Kept (found.filterMap (token? source))
      (other.filterMap (token? returned))
  diagnostics :
    List.Forall₂ Diagnostic.Kept (found.filterMap (diagnostic? source))
      (other.filterMap (diagnostic? returned))

namespace Segment

/-- A segment in front of others. -/
theorem AllKept.cons
    {source returned : SourceUnit}
    {place moved : Position}
    {segment other : Segment}
    {later others : List (Position × Segment)}
    (isKept : Kept segment other)
    (same : place.SameCell moved)
    (allKept : AllKept source returned later others) :
    AllKept source returned ((place, segment) :: later)
      ((moved, other) :: others) := by
  cases isKept with
  | @token kind covered lexeme notBreak noBreak =>
      have sameStop : (tokenStop place kind covered).SameCell
          (tokenStop moved kind covered) := by
        rw [tokenStop, tokenStop, if_neg notBreak, if_neg notBreak]
        exact same.after_line noBreak
      exact ⟨.cons ⟨⟨rfl, rfl⟩, fun _ => ⟨same, sameStop⟩,
        fun isBreak => (notBreak isBreak).elim⟩ allKept.tokens,
        allKept.diagnostics⟩
  | blank => exact ⟨allKept.tokens, allKept.diagnostics⟩
  | comment => exact ⟨allKept.tokens, allKept.diagnostics⟩
  | fault kind_eq message_eq noBreak =>
      exact ⟨allKept.tokens,
        .cons ⟨kind_eq, message_eq, same.after_line noBreak⟩ allKept.diagnostics⟩

/-- A line break, behind the carriage return that comes in front of it. -/
theorem segments_withReturns_break (rest : List Char) :
    segments (withReturns ('\n' :: rest)) =
      .blank ['\r'] :: segments ('\n' :: withReturns rest) :=
  segments_of_cut rfl

/-- The segments of a text are kept when carriage returns come into it. -/
theorem segments_withReturns
    (source returned : SourceUnit)
    {place moved : Position}
    (same : place.SameCell moved)
    (text : List Char) :
    AllKept source returned (placed place (segments text))
      (placed moved (segments (withReturns text))) := by
  fun_induction segments text generalizing place moved with
  | case1 =>
      rw [withReturns_nil, segments]
      exact ⟨.nil, .nil⟩
  | case2 first rest inductionHypothesis =>
      by_cases isBreak : '\n' = first
      · subst isBreak
        have sameBehind : (place.after ['\n']).SameCell
            (moved.after ['\r', '\n']) := same.after ['\n']
        have behind := inductionHypothesis sameBehind
        rw [segments_withReturns_break, segments_of_cut rfl]
        refine ⟨.cons ⟨⟨rfl, rfl⟩, fun notBreak => (notBreak rfl).elim, fun _ => ?_⟩
          behind.tokens, behind.diagnostics⟩
        exact ⟨same.line_eq, congrArg (· + 1) same.column_eq⟩
      · have isReturned := cut_withReturns isBreak rest
        rw [withReturns_cons (Ne.symm isBreak), segments]
        generalize Segment.cut first rest = piece at *
        generalize Segment.cut first (withReturns rest) = other at *
        cases isReturned with
        | left isKept isText =>
            apply AllKept.cons isKept same
            rw [isText]
            exact inductionHypothesis (same.after _)
        | @taken segment other later isKept isText =>
            apply AllKept.cons isKept same
            have behind := inductionHypothesis (same.after segment.text)
            rw [segments_withReturns_break] at behind
            rw [isText, Position.after_append]
            exact ⟨behind.tokens, behind.diagnostics⟩

end Segment

/-- A text that is written with carriage returns in front of its line breaks has the
same tokens and diagnostics in the same cells, line breaks apart, and the same
lines. -/
theorem SourceUnit.scan_withReturns
    {source returned : SourceUnit}
    (noReturn : '\r' ∉ source.code.toList)
    (isReturned : returned.code.toList = withReturns source.code.toList) :
    List.Forall₂ Token.Kept source.scan.tokens returned.scan.tokens ∧
      List.Forall₂ Diagnostic.Kept source.scan.diagnostics
        returned.scan.diagnostics ∧
      ∀ number, returned.line? number = source.line? number := by
  have atOrigin : Position.origin.SameCell .origin := ⟨rfl, rfl⟩
  have allKept := Segment.segments_withReturns source returned atOrigin
    source.code.toList
  have atEnd := atOrigin.after source.code.toList
  rw [← isReturned] at allKept atEnd
  refine ⟨?_, allKept.diagnostics, ?_⟩
  · apply List.rel_append allKept.tokens
    exact .cons ⟨⟨rfl, rfl⟩, fun _ => ⟨atEnd, atEnd⟩, nofun⟩ .nil
  · intro number
    cases number with
    | zero => rfl
    | succ number =>
        have sameRows := congrArg (·[number]?) (rows_withReturns noReturn)
        simp only [List.getElem?_map, ← isReturned] at sameRows
        have sameLines := congrArg (Option.map String.ofList) sameRows
        rw [Option.map_map, Option.map_map] at sameLines
        exact sameLines

/-- A comment and a string that run into the end of their lines. -/
theorem SourceUnit.scan_withReturns_faults :
    let source : SourceUnit := ⟨"main", "x # y\n'z\n"⟩
    let returned : SourceUnit := ⟨"main", "x # y\r\n'z\r\n"⟩
    '\r' ∉ source.code.toList ∧
      returned.code.toList = withReturns source.code.toList ∧
      List.Forall₂ Token.Kept source.scan.tokens returned.scan.tokens ∧
      List.Forall₂ Diagnostic.Kept source.scan.diagnostics
        returned.scan.diagnostics ∧
      ∀ number, returned.line? number = source.line? number := by
  intro source returned
  have noReturn : '\r' ∉ source.code.toList := by
    decide
  have isReturned : returned.code.toList = withReturns source.code.toList := by
    decide
  exact ⟨noReturn, isReturned, scan_withReturns noReturn isReturned⟩

end Scriptlet
