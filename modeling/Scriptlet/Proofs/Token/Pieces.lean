import Mathlib.Data.List.TakeWhile
import Scriptlet.Decimal.Read
import Scriptlet.Proofs.Token.Lines

namespace Scriptlet

/-!
# The pieces of a text

What a source unit is cut into is described here without regard to how it is cut:
tokens with their spelling, blanks, complete comments, and what a fault takes.  What
is cut off a text fits its description.  Conversely a text that fits one of them is,
on its own, cut into the one segment that is described, so that no text fits two.
-/

/-! ## Runs of characters -/

/-- That a run of characters of a class does not go on with a text. -/
def Stops (inside : Char → Bool) (rest : List Char) : Prop :=
  ∀ character, rest.head? = some character → inside character = false

section Runs

variable {inside : Char → Bool} {run rest : List Char} {character : Char}

theorem stops_nil (inside : Char → Bool) :
    Stops inside [] :=
  nofun

theorem stops_cons
    (isOutside : inside character = false)
    (rest : List Char) :
    Stops inside (character :: rest) := by
  rintro _ ⟨⟩
  exact isOutside

theorem stops_append
    (stops : Stops inside run)
    (stopsBehind : Stops inside rest) :
    Stops inside (run ++ rest) := by
  cases run with
  | nil => exact stopsBehind
  | cons character run => exact stops_cons (stops character rfl) (run ++ rest)

/-- Behind the longest run of characters of a class stands none of them. -/
theorem stops_dropWhile (text : List Char) :
    Stops inside (text.dropWhile inside) := by
  intro character isNext
  have stops := List.head?_dropWhile_not inside text
  rw [isNext] at stops
  simpa using stops

/-- What does not start with a character of a class still does not where it is cut
off. -/
theorem stops_takeWhile
    {taken : Char → Bool}
    (stops : Stops inside rest) :
    Stops inside (rest.takeWhile taken) := by
  intro character isNext
  cases rest with
  | nil => cases isNext
  | cons next later =>
      rw [List.takeWhile_cons] at isNext
      split at isNext
      · exact stops character isNext
      · cases isNext

theorem takeWhile_append_stop
    (isRun : ∀ character ∈ run, inside character = true)
    (stops : Stops inside rest) :
    (run ++ rest).takeWhile inside = run := by
  rw [List.takeWhile_append_of_pos isRun]
  cases rest with
  | nil => simp
  | cons character rest =>
      rw [List.takeWhile_cons_of_neg (by simp [stops character rfl]),
        List.append_nil]

theorem dropWhile_append_stop
    (isRun : ∀ character ∈ run, inside character = true)
    (stops : Stops inside rest) :
    (run ++ rest).dropWhile inside = rest := by
  rw [List.dropWhile_append_of_pos isRun]
  cases rest with
  | nil => rfl
  | cons character rest =>
      rw [List.dropWhile_cons_of_neg (by simp [stops character rfl])]

theorem takeWhile_of_stops
    (stops : Stops inside rest) :
    rest.takeWhile inside = [] := by
  cases rest with
  | nil => rfl
  | cons character rest =>
      exact List.takeWhile_cons_of_neg (by simp [stops character rfl])

end Runs

/-! ## What stands in a text -/

/-- Whether a line ends in front of a text. -/
def AtLineEnd (rest : List Char) : Prop :=
  ∀ character, rest.head? = some character → character = '\n'

/-- Blanks, at least one. -/
def BlankRun (text : List Char) : Prop :=
  text ≠ [] ∧ ∀ character ∈ text, Segment.isBlank character = true

/-- A complete comment, and what stands behind it. -/
inductive CompleteComment : List Char → List Char → Prop where
  /-- It goes up to the end of the line; with a slash behind the number sign it
  would be an inline comment. -/
  | line
      (notInline : content.head? ≠ some '/')
      (noBreak : '\n' ∉ content)
      (ends : AtLineEnd rest) :
      CompleteComment ('#' :: content) rest
  /-- It goes up to the first closing mark behind the opening mark. -/
  | inline
      (isFirst : ¬ ['/', '#'] <:+: content ++ ['/']) :
      CompleteComment ('#' :: '/' :: (content ++ ['/', '#'])) rest

/-- Whether a text can stand between two quotes of the given kind. -/
def Unquoted (quote : Char) (content : List Char) : Prop :=
  (quote = '\x22' ∨ quote = '\x27') ∧ quote ∉ content ∧ '\n' ∉ content

/-- How the tokens of a kind are spelled: their lexeme, and the text that they cover.
A string literal stands between quotes, and everything else as it is. -/
inductive Spelling : TokenKind → List Char → List Char → Prop where
  | lineBreak :
      Spelling .newline ['\n'] ['\n']
  | string
      (unquoted : Unquoted quote content) :
      Spelling .string content (quote :: (content ++ [quote]))
  | whole
      (areDigits : isDigits digits = true) :
      Spelling .int digits digits
  | fraction
      (wholeDigits : isDigits whole = true)
      (fractionDigits : isDigits fraction = true) :
      Spelling .float (whole ++ '.' :: fraction) (whole ++ '.' :: fraction)
  /-- A name or a reserved word. -/
  | word
      (isStart : Segment.isWordStart first = true)
      (areParts : ∀ character ∈ later, Segment.isWordPart character = true) :
      Spelling (.ofWord (String.ofList (first :: later))) (first :: later)
        (first :: later)
  /-- An operator or a delimiter. -/
  | symbol
      (isSymbol : kind.symbol? = some symbol) :
      Spelling kind symbol.toList symbol.toList

/-- Whether no segment but a fault starts with a character. -/
structure StartsNothing (character : Char) : Prop where
  notBreak : character ≠ '\n'
  notBlank : Segment.isBlank character = false
  notComment : character ≠ '#'
  notQuote : ¬ (character = '\x22' ∨ character = '\x27')
  notDigit : character.isDigit = false
  notWord : Segment.isWordStart character = false
  notSymbol : Segment.symbolOf? character = none

/-- The text that a fault takes: the characters before the marked ones, the marked
ones and those behind them, and what stands behind all of these. -/
inductive LexicalFault.Takes :
    List Char → List Char → List Char → List Char → LexicalFault → Prop where
  | illegalCharacter
      (illegal : StartsNothing character) :
      Takes [] [character] [] rest (.illegalCharacter character)
  /-- The digits and dots behind the marked dot are skipped; the first of them is no
  digit. -/
  | trailingDot
      (wholeDigits : isDigits whole = true)
      (noDigit : Stops Char.isDigit trail)
      (isTrail : ∀ character ∈ trail, Segment.isDigitOrDot character = true)
      (ends : Stops Segment.isDigitOrDot rest) :
      Takes whole ['.'] trail rest (.trailingDot (String.ofList whole))
  /-- The marked dot stands behind a number with a fraction. -/
  | multipleDots
      (wholeDigits : isDigits whole = true)
      (fractionDigits : isDigits fraction = true)
      (isTrail : ∀ character ∈ trail, Segment.isDigitOrDot character = true)
      (ends : Stops Segment.isDigitOrDot rest) :
      Takes (whole ++ '.' :: fraction) ['.'] trail rest
        (.multipleDots (String.ofList (whole ++ '.' :: fraction)))
  | unterminatedInlineComment
      (isOpen : ¬ ['/', '#'] <:+: content) :
      Takes [] ('#' :: '/' :: content) [] [] .unterminatedInlineComment
  | unterminatedString
      (unquoted : Unquoted quote content)
      (ends : AtLineEnd rest) :
      Takes [] (quote :: content) [] rest
        (.unterminatedString quote (String.ofList content))

/-- What a segment is, given what stands behind it. -/
def Segment.Fits (rest : List Char) : Segment → Prop
  | .token kind lexeme covered => Spelling kind lexeme covered
  | .blank covered => BlankRun covered
  | .comment covered => CompleteComment covered rest
  | .fault cause lead marked trail => cause.Takes lead marked trail rest

theorem Unquoted.isBlank_eq_false
    {quote : Char}
    {content : List Char}
    (unquoted : Unquoted quote content) :
    Segment.isBlank quote = false := by
  rcases unquoted.1 with rfl | rfl <;> rfl

theorem isBlank_of_isDigits
    {digits : List Char}
    (areDigits : isDigits digits = true) :
    ∃ first later, digits = first :: later ∧ Segment.isBlank first = false := by
  obtain ⟨someDigit, allDigits⟩ := isDigits_iff.mp areDigits
  obtain ⟨first, later, rfl⟩ := List.exists_cons_of_ne_nil someDigit
  exact ⟨first, later, rfl,
    Segment.isBlank_of_isDigit (allDigits first List.mem_cons_self)⟩

namespace Spelling

variable {kind : TokenKind} {lexeme covered : List Char}

/-- No token starts with a blank. -/
theorem starts
    (spelling : Spelling kind lexeme covered) :
    ∃ first later, covered = first :: later ∧ Segment.isBlank first = false := by
  cases spelling with
  | lineBreak => exact ⟨'\n', [], rfl, rfl⟩
  | string unquoted => exact ⟨_, _, rfl, unquoted.isBlank_eq_false⟩
  | whole areDigits => exact isBlank_of_isDigits areDigits
  | fraction wholeDigits fractionDigits =>
      obtain ⟨first, later, rfl, notBlank⟩ := isBlank_of_isDigits wholeDigits
      exact ⟨first, _, rfl, notBlank⟩
  | word isStart areParts => exact ⟨_, _, rfl, Segment.isBlank_of_isWordStart isStart⟩
  | symbol isSymbol =>
      cases kind <;> cases isSymbol <;> exact ⟨_, _, rfl, rfl⟩

/-- A line break is spelled in one way. -/
theorem isBreak
    (spelling : Spelling kind lexeme covered)
    (isBreak : kind = .newline) :
    covered = ['\n'] := by
  cases spelling with
  | lineBreak => rfl
  | word => exact absurd isBreak (TokenKind.ofWord_ne rfl (by decide) _)
  | symbol isSymbol =>
      subst isBreak
      cases isSymbol
  | _ => cases isBreak

theorem quoted
    (spelling : Spelling kind lexeme covered)
    (isString : kind = .string) :
    ∃ quote, Unquoted quote lexeme ∧ covered = quote :: (lexeme ++ [quote]) := by
  cases spelling with
  | string unquoted => exact ⟨_, unquoted, rfl⟩
  | word => exact absurd isString (TokenKind.ofWord_ne rfl (by decide) _)
  | symbol isSymbol =>
      subst isString
      cases isSymbol
  | _ => cases isString

theorem plain
    (spelling : Spelling kind lexeme covered)
    (notString : kind ≠ .string) :
    lexeme = covered := by
  cases spelling with
  | string => exact absurd rfl notString
  | _ => rfl

/-- Nothing that stands in a text is the mark of its end. -/
theorem ne_endOfInput
    (spelling : Spelling kind lexeme covered) :
    kind ≠ .endOfInput := by
  cases spelling with
  | word => exact TokenKind.ofWord_ne rfl (by decide) _
  | symbol isSymbol =>
      rintro rfl
      cases isSymbol
  | _ => exact nofun

end Spelling

/-- A fault marks something, which does not start with a blank. -/
theorem LexicalFault.Takes.marked_eq
    {fault : LexicalFault}
    {lead marked trail rest : List Char}
    (takes : fault.Takes lead marked trail rest) :
    ∃ first later, marked = first :: later ∧ Segment.isBlank first = false := by
  cases takes with
  | illegalCharacter illegal => exact ⟨_, _, rfl, illegal.notBlank⟩
  | trailingDot => exact ⟨_, _, rfl, rfl⟩
  | multipleDots => exact ⟨_, _, rfl, rfl⟩
  | unterminatedInlineComment => exact ⟨_, _, rfl, rfl⟩
  | unterminatedString unquoted => exact ⟨_, _, rfl, unquoted.isBlank_eq_false⟩

namespace Segment

/-! ## Which characters decide -/

section

variable {first : Char}

theorem cut_of_isBlank
    (blankFirst : isBlank first = true)
    (rest : List Char) :
    cut first rest = (.blank (first :: rest.takeWhile isBlank), rest.dropWhile isBlank) := by
  have notBreak : first ≠ '\n' := by
    rintro rfl
    cases blankFirst
  rw [cut, if_neg notBreak, if_pos blankFirst]

theorem cut_sign (rest : List Char) :
    cut '#' rest = cutComment rest :=
  rfl

theorem cut_of_isQuote
    (isQuote : first = '\x22' ∨ first = '\x27')
    (rest : List Char) :
    cut first rest = cutString first rest := by
  rcases isQuote with rfl | rfl <;> rfl

theorem cut_of_isDigit
    (isDigit : first.isDigit = true)
    (rest : List Char) :
    cut first rest = cutNumber first rest := by
  have notBreak : first ≠ '\n' := by
    rintro rfl
    cases isDigit
  have notSign : first ≠ '#' := by
    rintro rfl
    cases isDigit
  have notQuote : ¬ (first = '\x22' ∨ first = '\x27') := by
    rintro (rfl | rfl) <;> cases isDigit
  rw [cut, if_neg notBreak, isBlank_of_isDigit isDigit, if_neg Bool.false_ne_true,
    if_neg notSign, if_neg notQuote, if_pos isDigit]

theorem cut_of_isWordStart
    (isStart : isWordStart first = true)
    (rest : List Char) :
    cut first rest = cutWord first rest := by
  have notBreak : first ≠ '\n' := by
    rintro rfl
    cases isStart
  have notSign : first ≠ '#' := by
    rintro rfl
    cases isStart
  have notQuote : ¬ (first = '\x22' ∨ first = '\x27') := by
    rintro (rfl | rfl) <;> cases isStart
  have notDigit : ¬ first.isDigit = true := by
    intro isDigit
    rw [isWordStart_of_isDigit isDigit] at isStart
    cases isStart
  rw [cut, if_neg notBreak, isBlank_of_isWordStart isStart, if_neg Bool.false_ne_true,
    if_neg notSign, if_neg notQuote, if_neg notDigit, if_pos isStart]

theorem cut_of_startsNothing
    (illegal : StartsNothing first)
    (rest : List Char) :
    cut first rest = cutSymbol first rest := by
  rw [cut, if_neg illegal.notBreak, illegal.notBlank, if_neg Bool.false_ne_true,
    if_neg illegal.notComment, if_neg illegal.notQuote, illegal.notDigit,
    if_neg Bool.false_ne_true, illegal.notWord, if_neg Bool.false_ne_true]

end

/-! ## Comments -/

/-- What closes an inline comment is the first closing mark. -/
theorem closeInline?_eq_some
    {text covered later : List Char}
    (closed : closeInline? text = some (covered, later)) :
    ∃ content, covered = content ++ ['/', '#'] ∧
      ¬ ['/', '#'] <:+: content ++ ['/'] := by
  fun_induction closeInline? text generalizing covered later with
  | case1 =>
      cases closed
  | case2 rest =>
      cases closed
      exact ⟨[], rfl, by simp [List.infix_cons_iff]⟩
  | case3 character rest notMark inductionHypothesis =>
      rw [Option.map_eq_some_iff] at closed
      obtain ⟨⟨tailCovered, tailLater⟩, tailClosed, same⟩ := closed
      cases same
      obtain ⟨content, rfl, isFirst⟩ := inductionHypothesis tailClosed
      refine ⟨character :: content, rfl, ?_⟩
      rw [List.cons_append, List.infix_cons_iff]
      rintro (atFront | behind)
      · obtain ⟨isSlash, isSign⟩ := List.cons_prefix_cons.mp atFront
        have isRest := closeInline?_append tailClosed
        cases content with
        | nil => simp at isSign
        | cons next content =>
            obtain ⟨rfl, _⟩ := List.cons_prefix_cons.mp isSign
            exact notMark _ isSlash.symm isRest.symm
      · exact isFirst behind

/-- A first closing mark closes an inline comment. -/
theorem closeInline?_of_isFirst
    {content : List Char}
    (isFirst : ¬ ['/', '#'] <:+: content ++ ['/'])
    (rest : List Char) :
    closeInline? (content ++ '/' :: '#' :: rest) = some (content ++ ['/', '#'], rest) := by
  induction content with
  | nil => rfl
  | cons character content inductionHypothesis =>
      rw [List.cons_append, List.infix_cons_iff, not_or] at isFirst
      have notMark : ∀ behind, character = '/' →
          content ++ '/' :: '#' :: rest = '#' :: behind → False := by
        intro behind isSlash isSign
        subst isSlash
        apply isFirst.1
        cases content with
        | nil => cases isSign
        | cons next content =>
            cases isSign
            exact ⟨_, rfl⟩
      rw [List.cons_append, closeInline?.eq_3 _ _ notMark, inductionHypothesis isFirst.2]
      rfl

/-- An inline comment is not closed just if it holds no closing mark. -/
theorem closeInline?_eq_none_iff {text : List Char} :
    closeInline? text = none ↔ ¬ ['/', '#'] <:+: text := by
  fun_induction closeInline? text with
  | case1 =>
      simp
  | case2 rest =>
      exact iff_of_false (Option.some_ne_none _) (not_not_intro ⟨[], rest, rfl⟩)
  | case3 character rest notMark inductionHypothesis =>
      have notFront : ¬ ['/', '#'] <+: character :: rest := by
        intro atFront
        obtain ⟨isSlash, later, isSign⟩ := List.cons_prefix_cons.mp atFront
        exact notMark later isSlash.symm isSign.symm
      rw [List.infix_cons_iff, or_iff_right notFront, ← inductionHypothesis,
        Option.map_eq_none_iff]

theorem fits_cutComment (rest : List Char) :
    (cutComment rest).1.Fits (cutComment rest).2 := by
  unfold cutComment
  split
  case h_1 inner =>
    split
    case h_1 covered later closed =>
      obtain ⟨content, rfl, isFirst⟩ := closeInline?_eq_some closed
      exact .inline isFirst
    case h_2 isOpen =>
      exact .unterminatedInlineComment (closeInline?_eq_none_iff.mp isOpen)
  case h_2 notInline =>
    refine .line ?_ ?_ ?_
    · intro isSlash
      cases rest with
      | nil => cases isSlash
      | cons character later =>
          rw [List.takeWhile_cons] at isSlash
          split at isSlash
          · cases isSlash
            exact notInline later rfl
          · cases isSlash
    · intro member
      simpa using List.mem_takeWhile_imp member
    · intro character isNext
      simpa using stops_dropWhile rest character isNext

/-! ## String literals -/

theorem fits_cutString
    {delimiter : Char}
    (isQuote : delimiter = '\x22' ∨ delimiter = '\x27')
    (rest : List Char) :
    (cutString delimiter rest).1.Fits (cutString delimiter rest).2 := by
  unfold cutString
  simp only
  generalize isInside :
    (fun character => character != delimiter && character != '\n') = inside
  have notInside : ∀ character, inside character = false →
      character = delimiter ∨ character = '\n' := by
    intro character isOutside
    subst isInside
    simpa [Classical.or_iff_not_imp_left] using isOutside
  have unquoted : Unquoted delimiter (rest.takeWhile inside) := by
    refine ⟨isQuote, ?_, ?_⟩
    · intro member
      have isInside := List.mem_takeWhile_imp member
      subst inside
      simp at isInside
    · intro member
      have isInside := List.mem_takeWhile_imp member
      subst inside
      simp at isInside
  split
  case h_1 =>
    refine .unterminatedString unquoted ?_
    intro character isNext
    cases isNext
  case h_2 character later behind =>
    split
    case isTrue =>
      exact .string unquoted
    case isFalse notDelimiter =>
      refine .unterminatedString unquoted ?_
      rintro _ ⟨⟩
      have isNext : (rest.dropWhile inside).head? = some character := by
        rw [behind]
        rfl
      have isOutside := stops_dropWhile rest character isNext
      exact (notInside character isOutside).resolve_left notDelimiter

/-- What can stand between two quotes goes up to the second one, or to the end of the
text. -/
theorem cutString_of_unquoted
    {quote : Char}
    {content : List Char}
    (unquoted : Unquoted quote content) :
    cutString quote (content ++ [quote]) =
        (.token .string content (quote :: (content ++ [quote])), []) ∧
      cutString quote content =
        (wholeFault (.unterminatedString quote (String.ofList content))
          (quote :: content), []) := by
  obtain ⟨_, noQuote, noBreak⟩ := unquoted
  unfold cutString
  simp only
  generalize isInside :
    (fun character => character != quote && character != '\n') = inside
  have isRun : ∀ character ∈ content, inside character = true := by
    intro character member
    subst isInside
    simp only [Bool.and_eq_true, bne_iff_ne]
    exact ⟨ne_of_mem_of_not_mem member noQuote, ne_of_mem_of_not_mem member noBreak⟩
  have atQuote : Stops inside [quote] := by
    subst isInside
    exact stops_cons (by simp) []
  constructor
  · rw [takeWhile_append_stop isRun atQuote, dropWhile_append_stop isRun atQuote]
    exact if_pos rfl
  · rw [List.takeWhile_eq_self_iff.mpr isRun, List.dropWhile_eq_nil_iff.mpr isRun]

/-! ## Numbers -/

/-- What is cut off a text that starts with a number. -/
inductive NumberCut : List Char → Segment × List Char → Prop where
  | whole
      (wholeDigits : isDigits whole = true)
      (ends : Stops isDigitOrDot rest) :
      NumberCut (whole ++ rest) (plainToken .int whole, rest)
  | fraction
      (wholeDigits : isDigits whole = true)
      (fractionDigits : isDigits fraction = true)
      (ends : Stops isDigitOrDot rest) :
      NumberCut (whole ++ '.' :: fraction ++ rest)
        (plainToken .float (whole ++ '.' :: fraction), rest)
  | trailingDot
      (wholeDigits : isDigits whole = true)
      (noDigit : Stops Char.isDigit rest) :
      NumberCut (whole ++ '.' :: rest) (cutFaultyNumber .trailingDot whole rest)
  | multipleDots
      (wholeDigits : isDigits whole = true)
      (fractionDigits : isDigits fraction = true) :
      NumberCut (whole ++ '.' :: fraction ++ '.' :: rest)
        (cutFaultyNumber .multipleDots (whole ++ '.' :: fraction) rest)

section

variable {whole fraction trail rest : List Char}

/-- Where neither a digit nor a dot follows, a run of digits and dots ends. -/
theorem stops_isDigitOrDot
    (noDigit : Stops Char.isDigit rest)
    (noDot : ∀ later, rest ≠ '.' :: later) :
    Stops isDigitOrDot rest := by
  intro character isNext
  rw [isDigitOrDot, noDigit character isNext, Bool.false_or, beq_eq_false_iff_ne]
  rintro rfl
  obtain ⟨later, rfl⟩ := List.head?_eq_some_iff.mp isNext
  exact noDot later rfl

theorem stops_isDigit
    (ends : Stops isDigitOrDot rest) :
    Stops Char.isDigit rest :=
  fun character isNext => (Bool.or_eq_false_iff.mp (ends character isNext)).1

theorem stops_dot (rest : List Char) :
    Stops Char.isDigit ('.' :: rest) :=
  stops_cons rfl rest

theorem numberCut_cutFraction
    (wholeDigits : isDigits whole = true)
    (fractionDigits : isDigits fraction = true)
    (noDigit : Stops Char.isDigit rest) :
    NumberCut (whole ++ '.' :: fraction ++ rest) (cutFraction whole fraction rest) := by
  unfold cutFraction
  split
  case h_1 afterDot => exact .multipleDots wholeDigits fractionDigits
  case h_2 noDot =>
    exact .fraction wholeDigits fractionDigits (stops_isDigitOrDot noDigit noDot)

theorem isDigits_takeWhile
    {first : Char}
    (isDigit : first.isDigit = true)
    (rest : List Char) :
    isDigits (first :: rest.takeWhile Char.isDigit) = true :=
  isDigits_iff.mpr ⟨List.cons_ne_nil _ _, List.forall_mem_cons.mpr
    ⟨isDigit, fun _ => List.mem_takeWhile_imp⟩⟩

theorem numberCut_cutNumber
    {first : Char}
    (isDigit : first.isDigit = true)
    (rest : List Char) :
    NumberCut (first :: rest) (cutNumber first rest) := by
  have wholeDigits := isDigits_takeWhile isDigit rest
  have isText : first :: rest =
      first :: rest.takeWhile Char.isDigit ++ rest.dropWhile Char.isDigit := by
    rw [List.cons_append, List.takeWhile_append_dropWhile]
  have noDigit : Stops Char.isDigit (rest.dropWhile Char.isDigit) := stops_dropWhile rest
  rw [isText]
  unfold cutNumber
  simp only
  generalize first :: rest.takeWhile Char.isDigit = whole at wholeDigits
  generalize rest.dropWhile Char.isDigit = behind at noDigit
  split
  case h_1 afterDot =>
    have isBehind := List.takeWhile_append_dropWhile (p := Char.isDigit) (l := afterDot)
    have behindStops : Stops Char.isDigit (afterDot.dropWhile Char.isDigit) :=
      stops_dropWhile afterDot
    split
    case h_1 noFraction =>
      rw [noFraction, List.nil_append] at isBehind
      rw [isBehind] at behindStops
      exact .trailingDot wholeDigits behindStops
    case h_2 digit digits isFraction =>
      have fractionDigits : isDigits (digit :: digits) = true := by
        rw [← isFraction, isDigits_iff]
        exact ⟨by rw [isFraction]; exact List.cons_ne_nil _ _,
          fun _ => List.mem_takeWhile_imp⟩
      have isCut := numberCut_cutFraction wholeDigits fractionDigits behindStops
      rwa [← isFraction, List.append_assoc, List.cons_append, isBehind, isFraction] at isCut
  case h_2 noDot => exact .whole wholeDigits (stops_isDigitOrDot noDigit noDot)

namespace NumberCut

variable {text : List Char} {piece : Segment × List Char}

theorem fits
    (isCut : NumberCut text piece) :
    piece.1.Fits piece.2 := by
  cases isCut with
  | whole wholeDigits _ => exact .whole wholeDigits
  | fraction wholeDigits fractionDigits _ => exact .fraction wholeDigits fractionDigits
  | trailingDot wholeDigits noDigit =>
      exact .trailingDot wholeDigits (stops_takeWhile noDigit)
        (fun _ => List.mem_takeWhile_imp) (stops_dropWhile _)
  | multipleDots wholeDigits fractionDigits =>
      exact .multipleDots wholeDigits fractionDigits
        (fun _ => List.mem_takeWhile_imp) (stops_dropWhile _)

/-- Digits, and what does not go on with them. -/
theorem exists_digits
    (wholeDigits : isDigits whole = true)
    (noDigit : Stops Char.isDigit rest) :
    ∃ first later, whole ++ rest = first :: later ∧ first.isDigit = true ∧
      first :: later.takeWhile Char.isDigit = whole ∧
      later.dropWhile Char.isDigit = rest := by
  obtain ⟨someDigit, allDigits⟩ := isDigits_iff.mp wholeDigits
  obtain ⟨first, later, rfl⟩ := List.exists_cons_of_ne_nil someDigit
  obtain ⟨isDigit, laterDigits⟩ := List.forall_mem_cons.mp allDigits
  exact ⟨first, later ++ rest, rfl, isDigit,
    congrArg (first :: ·) (takeWhile_append_stop laterDigits noDigit),
    dropWhile_append_stop laterDigits noDigit⟩

/-- Digits and a dot with further digits behind it are a number with a fraction, which
another dot makes faulty. -/
theorem cut_fraction
    (wholeDigits : isDigits whole = true)
    (fractionDigits : isDigits fraction = true)
    (noDigit : Stops Char.isDigit rest) :
    ∃ first later, whole ++ '.' :: fraction ++ rest = first :: later ∧
      cut first later = cutFraction whole fraction rest := by
  obtain ⟨first, later, isText, isDigit, isWhole, isBehind⟩ :=
    exists_digits wholeDigits (stops_dot (fraction ++ rest))
  obtain ⟨someDigit, allDigits⟩ := isDigits_iff.mp fractionDigits
  obtain ⟨digit, digits, rfl⟩ := List.exists_cons_of_ne_nil someDigit
  refine ⟨first, later, ?_, ?_⟩
  · rw [← isText, List.append_assoc, List.cons_append]
  · rw [cut_of_isDigit isDigit, cutNumber]
    simp only [isWhole, isBehind]
    rw [takeWhile_append_stop allDigits noDigit, dropWhile_append_stop allDigits noDigit]

/-- What is said to be cut off a text is cut off. -/
theorem exists_cut
    (isCut : NumberCut text piece) :
    ∃ first later, text = first :: later ∧ cut first later = piece := by
  cases isCut with
  | @whole whole rest wholeDigits ends =>
      obtain ⟨first, later, isText, isDigit, isWhole, isBehind⟩ :=
        exists_digits wholeDigits (stops_isDigit ends)
      refine ⟨first, later, isText, ?_⟩
      rw [cut_of_isDigit isDigit, cutNumber]
      simp only [isWhole, isBehind]
      split
      case h_1 => exact absurd (ends '.' rfl) (by decide)
      case h_2 => rfl
  | fraction wholeDigits fractionDigits ends =>
      obtain ⟨first, later, isText, isCut⟩ :=
        cut_fraction wholeDigits fractionDigits (stops_isDigit ends)
      refine ⟨first, later, isText, isCut.trans ?_⟩
      unfold cutFraction
      split
      case h_1 => exact absurd (ends '.' rfl) (by decide)
      case h_2 => rfl
  | trailingDot wholeDigits noDigit =>
      obtain ⟨first, later, isText, isDigit, isWhole, isBehind⟩ :=
        exists_digits wholeDigits (stops_dot _)
      refine ⟨first, later, isText, ?_⟩
      rw [cut_of_isDigit isDigit, cutNumber]
      simp only [isWhole, isBehind]
      rw [takeWhile_of_stops noDigit]
  | multipleDots wholeDigits fractionDigits =>
      exact cut_fraction wholeDigits fractionDigits (stops_dot _)

end NumberCut

end

/-! ## Words and symbols -/

theorem fits_cutWord
    {first : Char}
    (isStart : isWordStart first = true)
    (rest : List Char) :
    (cutWord first rest).1.Fits (cutWord first rest).2 :=
  .word isStart fun _ => List.mem_takeWhile_imp

/-- A symbol is spelled as it stands. -/
theorem fits_symbol
    {kind : TokenKind}
    {covered : List Char}
    (isSymbol : kind.symbol? = some (String.ofList covered))
    (rest : List Char) :
    (plainToken kind covered).Fits rest := by
  have spelling := Spelling.symbol isSymbol
  rwa [String.toList_ofList] at spelling

/-- A character alone, in front of a text that makes no symbol with it. -/
theorem cutSymbol_single
    {first : Char}
    {other : List Char}
    (noPair : symbolBeforeEqualsOf? first = none ∨ other.head? ≠ some '=') :
    cutSymbol first other =
      (match symbolOf? first with
        | some kind => plainToken kind [first]
        | none => wholeFault (.illegalCharacter first) [first], other) := by
  unfold cutSymbol
  simp only
  split
  case h_1 later =>
    rcases noPair with noSymbol | notEquals
    · split
      case h_1 isSymbol =>
        rw [noSymbol] at isSymbol
        cases isSymbol
      case h_2 => rfl
    · exact (notEquals rfl).elim
  case h_2 => rfl

theorem text_single (first : Char) :
    Segment.text
      (match symbolOf? first with
        | some kind => plainToken kind [first]
        | none => wholeFault (.illegalCharacter first) [first]) = [first] := by
  split
  · rfl
  · rfl

/-- A character alone is a symbol or illegal. -/
theorem fits_single
    {first : Char}
    (illegal : symbolOf? first = none → StartsNothing first)
    (rest : List Char) :
    Fits rest
      (match symbolOf? first with
        | some kind => plainToken kind [first]
        | none => wholeFault (.illegalCharacter first) [first]) := by
  split
  case h_1 isSymbol => exact fits_symbol (symbol?_of_symbolOf? isSymbol) rest
  case h_2 noSymbol => exact .illegalCharacter (illegal noSymbol)

theorem fits_cutSymbol
    {first : Char}
    (illegal : symbolOf? first = none → StartsNothing first)
    (rest : List Char) :
    (cutSymbol first rest).1.Fits (cutSymbol first rest).2 := by
  have single := fits_single illegal
  unfold cutSymbol
  simp only
  split
  case h_1 later =>
    split
    case h_1 isSymbol =>
      exact fits_symbol (symbol?_of_symbolBeforeEqualsOf? isSymbol) _
    case h_2 =>
      exact single _
  case h_2 =>
    exact single _

/-! ## What is cut off -/

/-- A segment that is cut off a text is what it is taken for. -/
theorem fits_cut (first : Char) (rest : List Char) :
    (cut first rest).1.Fits (cut first rest).2 := by
  unfold cut
  split
  case isTrue =>
    exact .lineBreak
  case isFalse notBreak =>
  split
  case isTrue isBlank =>
    refine ⟨List.cons_ne_nil _ _, List.forall_mem_cons.mpr ⟨isBlank, ?_⟩⟩
    intro character member
    exact List.mem_takeWhile_imp member
  case isFalse notBlank =>
  split
  case isTrue =>
    exact fits_cutComment rest
  case isFalse notComment =>
  split
  case isTrue isQuote =>
    exact fits_cutString isQuote rest
  case isFalse notQuote =>
  split
  case isTrue isDigit =>
    exact (numberCut_cutNumber isDigit rest).fits
  case isFalse notDigit =>
  split
  case isTrue isStart =>
    exact fits_cutWord isStart rest
  case isFalse notWord =>
    rw [Bool.not_eq_true] at notBlank notDigit notWord
    exact fits_cutSymbol
      (fun noSymbol =>
        ⟨notBreak, notBlank, notComment, notQuote, notDigit, notWord, noSymbol⟩)
      rest

end Segment

/-- Every segment of a text is what it is taken for. -/
theorem fits_of_mem_segments
    {text : List Char}
    {segment : Segment}
    (member : segment ∈ segments text) :
    ∃ rest, segment.Fits rest := by
  obtain ⟨first, rest, rfl⟩ := exists_cut_of_mem_segments member
  exact ⟨_, Segment.fits_cut first rest⟩

/-! ## What fits is cut off on its own -/

/-- A segment at the front of a text, and those behind it. -/
theorem segments_of_cut
    {first : Char}
    {rest later : List Char}
    {segment : Segment}
    (isCut : Segment.cut first rest = (segment, later)) :
    segments (first :: rest) = segment :: segments later := by
  rw [segments, isCut]

/-- A segment that takes a whole text. -/
theorem segments_of_cut_whole
    {first : Char}
    {rest : List Char}
    {segment : Segment}
    (isCut : Segment.cut first rest = (segment, [])) :
    segments (first :: rest) = [segment] := by
  rw [segments_of_cut isCut, segments]

theorem segments_of_numberCut
    {text : List Char}
    {segment : Segment}
    (isCut : Segment.NumberCut text (segment, [])) :
    segments text = [segment] := by
  obtain ⟨first, later, rfl, isFirst⟩ := isCut.exists_cut
  exact segments_of_cut_whole isFirst

/-- A token that is spelled is cut off. -/
theorem Spelling.segments_eq
    {kind : TokenKind}
    {lexeme covered : List Char}
    (spelling : Spelling kind lexeme covered) :
    segments covered = [.token kind lexeme covered] := by
  cases spelling with
  | lineBreak => exact segments_of_cut_whole rfl
  | string unquoted =>
      exact segments_of_cut_whole ((Segment.cut_of_isQuote unquoted.1 _).trans
        (Segment.cutString_of_unquoted unquoted).1)
  | whole areDigits =>
      have isCut := Segment.NumberCut.whole areDigits (stops_nil _)
      rw [List.append_nil] at isCut
      exact segments_of_numberCut isCut
  | fraction wholeDigits fractionDigits =>
      have isCut := Segment.NumberCut.fraction wholeDigits fractionDigits (stops_nil _)
      rw [List.append_nil] at isCut
      exact segments_of_numberCut isCut
  | word isStart areParts =>
      apply segments_of_cut_whole
      rw [Segment.cut_of_isWordStart isStart, Segment.cutWord,
        List.takeWhile_eq_self_iff.mpr areParts, List.dropWhile_eq_nil_iff.mpr areParts]
      rfl
  | symbol isSymbol =>
      cases kind <;> cases isSymbol <;> exact segments_of_cut_whole rfl

/-- Blanks are one segment. -/
theorem BlankRun.segments_eq
    {text : List Char}
    (isBlank : BlankRun text) :
    segments text = [.blank text] := by
  obtain ⟨someBlank, allBlank⟩ := isBlank
  obtain ⟨first, rest, rfl⟩ := List.exists_cons_of_ne_nil someBlank
  obtain ⟨blankFirst, blankRest⟩ := List.forall_mem_cons.mp allBlank
  apply segments_of_cut_whole
  rw [Segment.cut_of_isBlank blankFirst, List.takeWhile_eq_self_iff.mpr blankRest,
    List.dropWhile_eq_nil_iff.mpr blankRest]

/-- A complete comment is one segment. -/
theorem CompleteComment.segments_eq
    {text rest : List Char}
    (isComment : CompleteComment text rest) :
    segments text = [.comment text] := by
  cases isComment with
  | @line content _ notInline noBreak ends =>
      have inLine : ∀ character ∈ content, (character != '\n') = true := by
        intro character member
        rw [bne_iff_ne]
        exact ne_of_mem_of_not_mem member noBreak
      apply segments_of_cut_whole
      rw [Segment.cut_sign]
      unfold Segment.cutComment
      split
      case h_1 => exact absurd rfl notInline
      case h_2 =>
        rw [List.takeWhile_eq_self_iff.mpr inLine, List.dropWhile_eq_nil_iff.mpr inLine]
  | inline isFirst =>
      apply segments_of_cut_whole
      rw [Segment.cut_sign]
      unfold Segment.cutComment
      simp only [Segment.closeInline?_of_isFirst isFirst]

/-- What a fault takes is one segment. -/
theorem LexicalFault.Takes.segments_eq
    {cause : LexicalFault}
    {lead marked trail rest : List Char}
    (takes : cause.Takes lead marked trail rest) :
    segments (lead ++ (marked ++ trail)) = [.fault cause lead marked trail] := by
  cases takes with
  | @illegalCharacter character _ illegal =>
      have noPair : Segment.symbolBeforeEqualsOf? character = none ∨
          ([] : List Char).head? ≠ some '=' := .inr nofun
      have isCut : Segment.cut character [] =
          (Segment.wholeFault (.illegalCharacter character) [character], []) := by
        rw [Segment.cut_of_startsNothing illegal, Segment.cutSymbol_single noPair,
          illegal.notSymbol]
      exact segments_of_cut_whole isCut
  | trailingDot wholeDigits noDigit isTrail ends =>
      have isCut := Segment.NumberCut.trailingDot wholeDigits noDigit
      rw [Segment.cutFaultyNumber, List.takeWhile_eq_self_iff.mpr isTrail,
        List.dropWhile_eq_nil_iff.mpr isTrail] at isCut
      exact segments_of_numberCut isCut
  | @multipleDots _ _ trail _ wholeDigits fractionDigits isTrail ends =>
      have isCut := @Segment.NumberCut.multipleDots _ _ trail wholeDigits fractionDigits
      rw [Segment.cutFaultyNumber, List.takeWhile_eq_self_iff.mpr isTrail,
        List.dropWhile_eq_nil_iff.mpr isTrail] at isCut
      exact segments_of_numberCut isCut
  | unterminatedInlineComment isOpen =>
      rw [List.append_nil, List.nil_append]
      apply segments_of_cut_whole
      rw [Segment.cut_sign]
      unfold Segment.cutComment
      simp only [Segment.closeInline?_eq_none_iff.mpr isOpen]
      rfl
  | unterminatedString unquoted ends =>
      rw [List.append_nil, List.nil_append]
      exact segments_of_cut_whole ((Segment.cut_of_isQuote unquoted.1 _).trans
        (Segment.cutString_of_unquoted unquoted).2)

/-- What fits a description is cut, on its own, into what is described. -/
theorem Segment.Fits.segments_eq
    {segment : Segment}
    {rest : List Char}
    (fits : segment.Fits rest) :
    segments segment.text = [segment] := by
  cases segment with
  | token => exact Spelling.segments_eq fits
  | blank => exact BlankRun.segments_eq fits
  | comment => exact CompleteComment.segments_eq fits
  | fault => exact LexicalFault.Takes.segments_eq fits

/-- No text fits two descriptions. -/
theorem Segment.Fits.unique
    {segment other : Segment}
    {rest later : List Char}
    (fits : segment.Fits rest)
    (otherFits : other.Fits later)
    (sameText : segment.text = other.text) :
    segment = other := by
  have isAlone := fits.segments_eq
  rw [sameText, otherFits.segments_eq] at isAlone
  exact (List.singleton_inj.mp isAlone).symm

/-! ## The sorts of pieces -/

/-- The sorts of pieces that a text is cut into. -/
inductive PieceSort where
  | token
  | blank
  | comment
  | fault
  deriving Repr, DecidableEq

/-- The sort that a segment is of. -/
def Segment.sort : Segment → PieceSort
  | .token _ _ _ => .token
  | .blank _ => .blank
  | .comment _ => .comment
  | .fault _ _ _ _ => .fault

namespace PieceSort

/-- Whether a text, in front of the rest, is a piece of a sort: the text of a token,
blanks, a complete comment, or what a fault takes. -/
def Holds (text rest : List Char) : PieceSort → Prop
  | .token => ∃ kind lexeme, Spelling kind lexeme text
  | .blank => BlankRun text
  | .comment => CompleteComment text rest
  | .fault => ∃ cause lead marked trail,
      text = lead ++ (marked ++ trail) ∧
        LexicalFault.Takes lead marked trail rest cause

/-- Whether a text, in front of the rest, is a piece of one sort and of no other. -/
def HoldsOnly (text rest : List Char) (sort : PieceSort) : Prop :=
  ∀ other : PieceSort, other.Holds text rest ↔ other = sort

theorem holds_iff
    {sort : PieceSort}
    {text rest : List Char} :
    sort.Holds text rest ↔
      ∃ segment : Segment, segment.sort = sort ∧ segment.text = text ∧
        segment.Fits rest := by
  constructor
  · intro holds
    cases sort with
    | token =>
        obtain ⟨kind, lexeme, spelling⟩ := holds
        exact ⟨.token kind lexeme text, rfl, rfl, spelling⟩
    | blank => exact ⟨.blank text, rfl, rfl, holds⟩
    | comment => exact ⟨.comment text, rfl, rfl, holds⟩
    | fault =>
        obtain ⟨cause, lead, marked, trail, rfl, takes⟩ := holds
        exact ⟨.fault cause lead marked trail, rfl, rfl, takes⟩
  · rintro ⟨segment, rfl, rfl, fits⟩
    cases segment with
    | token kind lexeme covered => exact ⟨kind, lexeme, fits⟩
    | blank => exact fits
    | comment => exact fits
    | fault cause lead marked trail => exact ⟨cause, lead, marked, trail, rfl, fits⟩

end PieceSort

/-- The text of a segment that fits is a piece of the sort of the segment only. -/
theorem Segment.Fits.holdsOnly
    {segment : Segment}
    {rest : List Char}
    (fits : segment.Fits rest) :
    segment.sort.HoldsOnly segment.text rest := by
  intro other
  rw [PieceSort.holds_iff]
  constructor
  · rintro ⟨found, rfl, sameText, foundFits⟩
    rw [foundFits.unique fits sameText]
  · rintro rfl
    exact ⟨segment, rfl, rfl, fits⟩

end Scriptlet
