namespace Scriptlet

/-!
# Source text and places in it

A program is read from a named text.  A `Position` is a place in such a text,
counted three ways at once: by line, by column and by byte.  A `Span` is a
stretch of one text between two places, and every token, every node of a syntax
tree and every diagnostic carries one, so that a report can always show the line
it is about.
-/

/-- A place in a text. -/
structure Position where
  /-- The line, counted from one. -/
  line : Nat
  /-- The characters before the place on its line. -/
  column : Nat
  /-- The bytes before the place in the UTF-8 form of the text. -/
  index : Nat
  deriving Repr, DecidableEq, Inhabited

namespace Position

/-- The place before the first character of a text. -/
def origin : Position :=
  ⟨1, 0, 0⟩

/-- The place right after a character that stands at the given place. -/
def step (position : Position) (character : Char) : Position :=
  if character = '\n' then
    ⟨position.line + 1, 0, position.index + character.utf8Size⟩
  else
    ⟨position.line, position.column + 1, position.index + character.utf8Size⟩

/-- The place right after a text that starts at the given place. -/
def after (position : Position) (text : List Char) : Position :=
  text.foldl step position

/-- Whether the first place comes strictly before the second: by line, then by
column, then by byte. -/
def precedes (first second : Position) : Bool :=
  first.line < second.line ||
    (first.line == second.line &&
      (first.column < second.column ||
        (first.column == second.column && first.index < second.index)))

/-- The later of two places. -/
def latest (first second : Position) : Position :=
  if first.precedes second then second else first

/-- A place as people read it: both line and column counted from one. -/
def display (position : Position) : String :=
  toString position.line ++ ":" ++ toString (position.column + 1)

/-- Nothing is passed by an empty text. -/
@[simp] theorem after_nil (position : Position) :
    position.after [] = position :=
  rfl

/-- A text is passed one character after the other. -/
@[simp] theorem after_cons
    (position : Position)
    (character : Char)
    (text : List Char) :
    position.after (character :: text) = (position.step character).after text :=
  rfl

/-- Passing two texts in a row is passing their concatenation. -/
theorem after_append
    (position : Position)
    (first second : List Char) :
    position.after (first ++ second) = (position.after first).after second := by
  simp [after]

end Position

/-- The rows of a text: what stands between its line breaks. -/
def rows : List Char → List (List Char)
  | [] => [[]]
  | character :: rest =>
      if character = '\n' then
        [] :: rows rest
      else
        match rows rest with
        | [] => [[character]]
        | row :: later => (character :: row) :: later

/-- A row without the carriage return that may close it. -/
def withoutReturn (row : List Char) : List Char :=
  if row.getLast? = some '\r' then row.dropLast else row

/-- The text left after the given number of bytes, if a character starts there. -/
def dropBytes? : Nat → List Char → Option (List Char)
  | 0, text => some text
  | _ + 1, [] => none
  | count + 1, character :: rest =>
      if character.utf8Size ≤ count + 1 then
        dropBytes? (count + 1 - character.utf8Size) rest
      else
        none
termination_by structural _ text => text

/-- The given number of bytes from the front of a text, if a character ends
there. -/
def takeBytes? : Nat → List Char → Option (List Char)
  | 0, _ => some []
  | _ + 1, [] => none
  | count + 1, character :: rest =>
      if character.utf8Size ≤ count + 1 then
        (takeBytes? (count + 1 - character.utf8Size) rest).map (character :: ·)
      else
        none
termination_by structural _ text => text

/-- A named text. -/
structure SourceUnit where
  /-- The name the text goes by in reports. -/
  name : String
  /-- The text itself. -/
  code : String
  deriving Repr, DecidableEq, Inhabited

namespace SourceUnit

/-- The line of the given number, counted from one, without its line break. -/
def line? (unit : SourceUnit) : Nat → Option String
  | 0 => none
  | number + 1 =>
      ((rows unit.code.toList)[number]?).map fun row =>
        String.ofList (withoutReturn row)

end SourceUnit

/-- A stretch of a text from one place up to, and excluding, another. -/
structure Span where
  /-- The place of the first character. -/
  start : Position
  /-- The place after the last character. -/
  stop : Position
  /-- The text both places are in. -/
  source : SourceUnit
  deriving Repr, DecidableEq, Inhabited

namespace Span

/-- The empty stretch at a place. -/
def emptyAt (position : Position) (source : SourceUnit) : Span :=
  ⟨position, position, source⟩

/-- The stretch from the start of one span to the end of another; it is never
made to end before it starts. -/
def through (first last : Span) : Span :=
  ⟨first.start, last.stop.latest first.start, first.source⟩

/-- The line a span starts on. -/
def line (span : Span) : Nat :=
  span.start.line

/-- The name of the text a span is in. -/
def fileName (span : Span) : String :=
  span.source.name

/-- The characters a span covers, if its bytes are a range of whole characters
of its text. -/
def characters? (span : Span) : Option (List Char) :=
  if span.start.index ≤ span.stop.index then
    (dropBytes? span.start.index span.source.code.toList).bind
      (takeBytes? (span.stop.index - span.start.index))
  else
    none

/-- The text a span covers, empty when its bytes are no range of the text. -/
def text (span : Span) : String :=
  String.ofList (span.characters?.getD [])

/-- The name of the text and the place where the span starts. -/
def display (span : Span) : String :=
  span.fileName ++ ":" ++ span.start.display

end Span

end Scriptlet
