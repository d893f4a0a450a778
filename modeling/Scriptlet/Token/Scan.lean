import Scriptlet.Token.Segment

namespace Scriptlet

/-!
# Tokens of a source unit

The segments of a text are given their places, and the tokens and the faults
among them become the tokens and the diagnostics of the text.  The list of tokens
is always closed by an end-of-input token.
-/

namespace Segment

/-- Segments that stand one after the other, each with the place it starts at. -/
def placed : Position → List Segment → List (Position × Segment)
  | _, [] => []
  | start, segment :: later =>
      (start, segment) :: placed (start.after segment.text) later

/-- The place where a token ends.  A line break stays on the line that it
closes. -/
def tokenStop
    (start : Position)
    (kind : TokenKind)
    (covered : List Char) :
    Position :=
  if kind = .newline then
    ⟨start.line, start.column + 1, (start.after covered).index⟩
  else
    start.after covered

/-- The token that a segment is, if it is one. -/
def token? (source : SourceUnit) : Position × Segment → Option Token
  | (start, .token kind lexeme covered) =>
      some
        ⟨kind, String.ofList lexeme,
          ⟨start, tokenStop start kind covered, source⟩⟩
  | _ => none

/-- The diagnostic for a segment, if it is faulty: it points at the marked
characters. -/
def diagnostic? (source : SourceUnit) : Position × Segment → Option Diagnostic
  | (start, .fault cause lead marked _) =>
      some
        (cause.locate
          ⟨start.after lead, (start.after lead).after marked, source⟩)
  | _ => none

end Segment

/-- What cutting up a source unit gives. -/
structure Scan where
  /-- The tokens in order, closed by an end-of-input token. -/
  tokens : List Token
  /-- The reports of all lexical faults in order. -/
  diagnostics : List Diagnostic
  deriving Repr, DecidableEq, Inhabited

namespace SourceUnit

/-- The segments of a source unit with their places. -/
def placedSegments (source : SourceUnit) : List (Position × Segment) :=
  Segment.placed .origin (segments source.code.toList)

/-- The place behind the last character of a source unit. -/
def endPosition (source : SourceUnit) : Position :=
  Position.origin.after source.code.toList

/-- The tokens of a source unit and the reports of its lexical faults. -/
def scan (source : SourceUnit) : Scan where
  tokens :=
    source.placedSegments.filterMap (Segment.token? source) ++
      [Token.endOfInput (Span.emptyAt source.endPosition source)]
  diagnostics := source.placedSegments.filterMap (Segment.diagnostic? source)

end SourceUnit

end Scriptlet
