import Scriptlet.Diagnostic

namespace Scriptlet

/-!
# Lexical faults

What can be wrong with the spelling of a program.  None of these stops the cut
into tokens: all of them are collected and reported together.
-/

/-- What can be wrong with the spelling of a program. -/
inductive LexicalFault where
  /-- A character that starts no token. -/
  | illegalCharacter (character : Char)
  /-- A dot after a whole number, with no digit behind it. -/
  | trailingDot (number : String)
  /-- A second dot in a number. -/
  | multipleDots (number : String)
  /-- An inline comment that is never closed. -/
  | unterminatedInlineComment
  /-- A string that runs into the end of its line. -/
  | unterminatedString (delimiter : Char) (content : String)
  deriving Repr, DecidableEq, Inhabited

namespace LexicalFault

/-- The kind of error a fault is reported as. -/
def kind : LexicalFault → ErrorKind
  | .illegalCharacter _ => .illegalCharacter
  | .trailingDot _ => .trailingDot
  | .multipleDots _ => .multipleDots
  | .unterminatedInlineComment => .unterminatedInlineComment
  | .unterminatedString _ _ => .unterminatedString

/-- What went wrong. -/
def message : LexicalFault → String
  | .illegalCharacter character =>
      "illegal character '" ++ String.singleton character ++ "'"
  | .trailingDot _ =>
      "trailing dots are not allowed"
  | .multipleDots _ =>
      "more than one dot while defining a float is not allowed"
  | .unterminatedInlineComment =>
      "the inline comment was never closed"
  | .unterminatedString _ _ =>
      "the string was never closed"

/-- What could be done about a fault. -/
def tip : LexicalFault → Option String
  | .illegalCharacter _ =>
      none
  | .trailingDot number =>
      some ("To define a float add a zero after: '" ++ number ++ ".0'")
  | .multipleDots number =>
      some ("Remove the dot: '" ++ number ++ "'")
  | .unterminatedInlineComment =>
      some "Add '/#' to close the inline comment"
  | .unterminatedString delimiter content =>
      let quoted :=
        if delimiter = '\x22' then
          "'\"" ++ content ++ "\"'"
        else
          "\"'" ++ content ++ "'\""
      some ("Add a closing quote to the end of the string: " ++ quoted)

/-- The report of a fault at a place. -/
def locate (fault : LexicalFault) (span : Span) : Diagnostic where
  kind := fault.kind
  message := fault.message
  tip := fault.tip
  span := span
  stack := none

end LexicalFault

end Scriptlet
