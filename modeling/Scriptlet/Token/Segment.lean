import Scriptlet.Fault.Lexical
import Scriptlet.Token

namespace Scriptlet

/-!
# Segments of a text

A text is first cut into segments without regard to places: tokens, runs of
blanks, comments and faulty stretches.  A segment holds the characters it was cut
from, and the main fact of this module is that nothing is lost: the characters of
the segments, one after the other, are the text.
-/

/-- A piece of a text. -/
inductive Segment where
  /-- A token with its spelling and the characters it was cut from; the two
  differ for string literals only. -/
  | token (kind : TokenKind) (lexeme covered : List Char)
  /-- A run of blanks. -/
  | blank (covered : List Char)
  /-- A complete comment. -/
  | comment (covered : List Char)
  /-- A faulty stretch: the characters before the marked ones, the marked ones,
  and those that are skipped along with them. -/
  | fault (fault : LexicalFault) (lead marked trail : List Char)
  deriving Repr, DecidableEq, Inhabited

namespace Segment

/-- The characters a segment was cut from. -/
def text : Segment → List Char
  | .token _ _ covered => covered
  | .blank covered => covered
  | .comment covered => covered
  | .fault _ lead marked trail => lead ++ (marked ++ trail)

/-- A token that is spelled the way it stands in the text. -/
def plainToken (kind : TokenKind) (covered : List Char) : Segment :=
  .token kind covered covered

/-- A faulty stretch that is marked as a whole. -/
def wholeFault (fault : LexicalFault) (covered : List Char) : Segment :=
  .fault fault [] covered []

@[simp] theorem text_token (kind : TokenKind) (lexeme covered : List Char) :
    (Segment.token kind lexeme covered).text = covered :=
  rfl

@[simp] theorem text_blank (covered : List Char) :
    (Segment.blank covered).text = covered :=
  rfl

@[simp] theorem text_comment (covered : List Char) :
    (Segment.comment covered).text = covered :=
  rfl

@[simp] theorem text_fault
    (fault : LexicalFault)
    (lead marked trail : List Char) :
    (Segment.fault fault lead marked trail).text = lead ++ (marked ++ trail) :=
  rfl

@[simp] theorem text_plainToken (kind : TokenKind) (covered : List Char) :
    (plainToken kind covered).text = covered :=
  rfl

@[simp] theorem text_wholeFault (fault : LexicalFault) (covered : List Char) :
    (wholeFault fault covered).text = covered := by
  simp [wholeFault]

/-! ## Character classes -/

/-- Spaces, tabs and carriage returns separate tokens and mean nothing. -/
def isBlank (character : Char) : Bool :=
  character == ' ' || character == '\t' || character == '\r'

/-- Words start with a letter of the basic alphabet or an underscore. -/
def isWordStart (character : Char) : Bool :=
  character.isAlpha || character == '_'

/-- Words go on with letters, digits and underscores. -/
def isWordPart (character : Char) : Bool :=
  character.isAlphanum || character == '_'

/-- What a faulty number swallows. -/
def isDigitOrDot (character : Char) : Bool :=
  character.isDigit || character == '.'

theorem isDigitOrDot_of_isDigit
    {character : Char}
    (isDigit : character.isDigit = true) :
    isDigitOrDot character = true := by
  rw [isDigitOrDot, isDigit]
  rfl

theorem isBlank_of_isDigit
    {character : Char}
    (isDigit : character.isDigit = true) :
    isBlank character = false := by
  simp only [isBlank, Bool.or_eq_false_iff, beq_eq_false_iff_ne]
  refine ⟨⟨?_, ?_⟩, ?_⟩ <;>
    · rintro rfl
      cases isDigit

theorem isBlank_of_isWordStart
    {character : Char}
    (isStart : isWordStart character = true) :
    isBlank character = false := by
  simp only [isBlank, Bool.or_eq_false_iff, beq_eq_false_iff_ne]
  refine ⟨⟨?_, ?_⟩, ?_⟩ <;>
    · rintro rfl
      cases isStart

theorem isAlpha_of_isDigit
    {character : Char}
    (isDigit : character.isDigit = true) :
    character.isAlpha = false := by
  change (decide (character.val ≥ 48) && decide (character.val ≤ 57)) = true at isDigit
  change (decide (character.val ≥ 65 ∧ character.val ≤ 90) ||
    (decide (character.val ≥ 97) && decide (character.val ≤ 122))) = false
  grind

theorem isWordStart_of_isDigit
    {character : Char}
    (isDigit : character.isDigit = true) :
    isWordStart character = false := by
  rw [isWordStart, Bool.or_eq_false_iff]
  constructor
  · exact isAlpha_of_isDigit isDigit
  · rw [beq_eq_false_iff_ne]
    rintro rfl
    cases isDigit

theorem isWordPart_of_isWordStart
    {character : Char}
    (isStart : isWordStart character = true) :
    isWordPart character = true := by
  rw [isWordStart, Bool.or_eq_true] at isStart
  rw [isWordPart, Bool.or_eq_true, Char.isAlphanum, Bool.or_eq_true]
  exact isStart.imp_left Or.inl

/-- The token a character makes on its own. -/
def symbolOf? (character : Char) : Option TokenKind :=
  if character = '.' then some .dot
  else if character = ',' then some .comma
  else if character = '+' then some .plus
  else if character = '-' then some .dash
  else if character = '*' then some .star
  else if character = '/' then some .slash
  else if character = '(' then some .leftParen
  else if character = ')' then some .rightParen
  else if character = '\x7b' then some .leftBrace
  else if character = '\x7d' then some .rightBrace
  else if character = '=' then some .equal
  else if character = '<' then some .less
  else if character = '>' then some .greater
  else none

/-- The token a character makes together with an equals sign behind it. -/
def symbolBeforeEqualsOf? (character : Char) : Option TokenKind :=
  if character = '=' then some .equalEqual
  else if character = '<' then some .lessEqual
  else if character = '>' then some .greaterEqual
  else if character = '!' then some .bangEqual
  else none

/-! ## One segment

Each function is given what stands behind the character that decided for it, and
gives the segment together with the rest of the text.
-/

/-- The text up to and including the end mark of an inline comment, and the
rest. -/
def closeInline? : List Char → Option (List Char × List Char)
  | [] => none
  | '/' :: '#' :: rest => some (['/', '#'], rest)
  | character :: rest =>
      (closeInline? rest).map fun (covered, later) =>
        (character :: covered, later)

/-- A comment, after its number sign. -/
def cutComment (rest : List Char) : Segment × List Char :=
  match rest with
  | '/' :: inner =>
      match closeInline? inner with
      | some (covered, later) => (.comment ('#' :: '/' :: covered), later)
      | none => (wholeFault .unterminatedInlineComment ('#' :: rest), [])
  | _ =>
      (.comment ('#' :: rest.takeWhile (· != '\n')), rest.dropWhile (· != '\n'))

/-- A string literal, after its opening delimiter. -/
def cutString (delimiter : Char) (rest : List Char) : Segment × List Char :=
  let inside := fun character => character != delimiter && character != '\n'
  let content := rest.takeWhile inside
  let unclosed :=
    wholeFault (.unterminatedString delimiter (String.ofList content))
      (delimiter :: content)
  match rest.dropWhile inside with
  | [] =>
      (unclosed, [])
  | character :: later =>
      if character = delimiter then
        (.token .string content (delimiter :: (content ++ [delimiter])), later)
      else
        (unclosed, character :: later)

/-- A number with a dot that cannot be part of it; the digits and dots behind
that dot are skipped. -/
def cutFaultyNumber
    (fault : String → LexicalFault)
    (number afterDot : List Char) :
    Segment × List Char :=
  (.fault (fault (String.ofList number)) number ['.']
      (afterDot.takeWhile isDigitOrDot),
    afterDot.dropWhile isDigitOrDot)

/-- A number with a fraction, after the first digit of the fraction. -/
def cutFraction (whole fraction rest : List Char) : Segment × List Char :=
  let number := whole ++ '.' :: fraction
  match rest with
  | '.' :: afterDot => cutFaultyNumber .multipleDots number afterDot
  | _ => (plainToken .float number, rest)

/-- A number, after its first digit: digits, and a fraction if a dot with a digit
behind it follows.  A dot that follows the number makes it faulty. -/
def cutNumber (first : Char) (rest : List Char) : Segment × List Char :=
  let whole := first :: rest.takeWhile Char.isDigit
  match rest.dropWhile Char.isDigit with
  | '.' :: afterDot =>
      match afterDot.takeWhile Char.isDigit with
      | [] => cutFaultyNumber .trailingDot whole afterDot
      | digit :: digits =>
          cutFraction whole (digit :: digits) (afterDot.dropWhile Char.isDigit)
  | later =>
      (plainToken .int whole, later)

/-- A word, after its first character. -/
def cutWord (first : Char) (rest : List Char) : Segment × List Char :=
  let word := first :: rest.takeWhile isWordPart
  (plainToken (TokenKind.ofWord (String.ofList word)) word,
    rest.dropWhile isWordPart)

/-- An operator or a delimiter of one or two characters, or a character that
starts no token. -/
def cutSymbol (first : Char) (rest : List Char) : Segment × List Char :=
  let single :=
    match symbolOf? first with
    | some kind => plainToken kind [first]
    | none => wholeFault (.illegalCharacter first) [first]
  match rest with
  | '=' :: later =>
      match symbolBeforeEqualsOf? first with
      | some kind => (plainToken kind [first, '='], later)
      | none => (single, rest)
  | _ =>
      (single, rest)

/-- The segment at the front of a text, given its first character and what stands
behind it. -/
def cut (first : Char) (rest : List Char) : Segment × List Char :=
  if first = '\n' then
    (plainToken .newline ['\n'], rest)
  else if isBlank first then
    (.blank (first :: rest.takeWhile isBlank), rest.dropWhile isBlank)
  else if first = '#' then
    cutComment rest
  else if first = '\x22' ∨ first = '\x27' then
    cutString first rest
  else if first.isDigit then
    cutNumber first rest
  else if isWordStart first then
    cutWord first rest
  else
    cutSymbol first rest

/-! ## Nothing is lost -/

/-- The end mark of an inline comment cuts the text in two. -/
theorem closeInline?_append
    {text covered later : List Char}
    (closed : closeInline? text = some (covered, later)) :
    covered ++ later = text := by
  fun_induction closeInline? text generalizing covered later with
  | case1 => simp at closed
  | case2 rest =>
      simp only [Option.some.injEq, Prod.mk.injEq] at closed
      simp [← closed.1, ← closed.2]
  | case3 character rest _ inductionHypothesis =>
      simp only [Option.map_eq_some_iff, Prod.exists, Prod.mk.injEq] at closed
      obtain ⟨tailCovered, tailLater, tailClosed, rfl, rfl⟩ := closed
      simp [inductionHypothesis tailClosed]

theorem cutComment_append (rest : List Char) :
    (cutComment rest).1.text ++ (cutComment rest).2 = '#' :: rest := by
  unfold cutComment
  split
  · split
    · next closed => simp [closeInline?_append closed]
    · simp
  · simp

theorem cutString_append (delimiter : Char) (rest : List Char) :
    (cutString delimiter rest).1.text ++ (cutString delimiter rest).2 =
      delimiter :: rest := by
  have whole :=
    List.takeWhile_append_dropWhile
      (p := fun character => character != delimiter && character != '\n')
      (l := rest)
  unfold cutString
  simp only
  split
  · next empty =>
      rw [empty] at whole
      simpa using whole
  · next character later behind =>
      rw [behind] at whole
      split
      · next isDelimiter =>
          subst isDelimiter
          simpa using whole
      · simpa using whole

theorem cutFaultyNumber_append
    (fault : String → LexicalFault)
    (number afterDot : List Char) :
    (cutFaultyNumber fault number afterDot).1.text ++
        (cutFaultyNumber fault number afterDot).2 =
      number ++ '.' :: afterDot := by
  simp [cutFaultyNumber]

theorem cutFraction_append (whole fraction rest : List Char) :
    (cutFraction whole fraction rest).1.text ++
        (cutFraction whole fraction rest).2 =
      whole ++ '.' :: (fraction ++ rest) := by
  unfold cutFraction
  simp only
  split
  · simp [cutFaultyNumber_append]
  · simp

theorem cutNumber_append (first : Char) (rest : List Char) :
    (cutNumber first rest).1.text ++ (cutNumber first rest).2 =
      first :: rest := by
  have whole := List.takeWhile_append_dropWhile (p := Char.isDigit) (l := rest)
  unfold cutNumber
  simp only
  split
  · next afterDot behind =>
      rw [behind] at whole
      have fraction :=
        List.takeWhile_append_dropWhile (p := Char.isDigit) (l := afterDot)
      split
      · rw [cutFaultyNumber_append]
        simpa using whole
      · next digit digits digitsFirst =>
          rw [digitsFirst] at fraction
          rw [cutFraction_append, fraction]
          simpa using whole
  · simp

theorem cutWord_append (first : Char) (rest : List Char) :
    (cutWord first rest).1.text ++ (cutWord first rest).2 = first :: rest := by
  simp [cutWord]

theorem cutSymbol_append (first : Char) (rest : List Char) :
    (cutSymbol first rest).1.text ++ (cutSymbol first rest).2 =
      first :: rest := by
  unfold cutSymbol
  simp only
  repeat' split
  all_goals simp

/-- A segment and the rest of the text are the text it was cut from. -/
theorem cut_append (first : Char) (rest : List Char) :
    (cut first rest).1.text ++ (cut first rest).2 = first :: rest := by
  unfold cut
  split
  · next isNewline => simp [isNewline]
  split
  · simp
  split
  · next isNumberSign => simp [isNumberSign, cutComment_append]
  split
  · exact cutString_append first rest
  split
  · exact cutNumber_append first rest
  split
  · exact cutWord_append first rest
  · exact cutSymbol_append first rest

/-- A segment is never empty. -/
theorem cut_text_ne_nil (first : Char) (rest : List Char) :
    (cut first rest).1.text ≠ [] := by
  simp only [cut, cutComment, cutString, cutNumber, cutFraction,
    cutFaultyNumber, cutWord, cutSymbol]
  repeat' split
  all_goals simp

/-- Cutting off a segment makes the text shorter. -/
theorem cut_length_lt (first : Char) (rest : List Char) :
    (cut first rest).2.length < (first :: rest).length := by
  have whole := congrArg List.length (cut_append first rest)
  have nonempty := List.length_pos_iff.mpr (cut_text_ne_nil first rest)
  rw [List.length_append] at whole
  omega

end Segment

/-! ## All segments -/

/-- The segments of a text, from the front to the end. -/
def segments : List Char → List Segment
  | [] => []
  | first :: rest =>
      (Segment.cut first rest).1 :: segments (Segment.cut first rest).2
termination_by text => text.length
decreasing_by exact Segment.cut_length_lt first rest

/-- The characters of the segments of a text, one after the other, are the
text. -/
theorem flatMap_text_segments (text : List Char) :
    (segments text).flatMap Segment.text = text := by
  fun_induction segments text with
  | case1 => rfl
  | case2 first rest inductionHypothesis =>
      rw [List.flatMap_cons, inductionHypothesis, Segment.cut_append]

end Scriptlet
