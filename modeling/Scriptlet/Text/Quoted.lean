import Scriptlet.Text.Hidden

namespace Scriptlet.Text

/-!
# Quoted text

A text between double quotes, in which everything that could be misread is
escaped.
-/

/-- The digits of a code point in base sixteen. -/
def hexadecimal (number : Nat) : String :=
  String.ofList (Nat.toDigits 16 number)

/-- How one character is written inside quotes. -/
def escaped (character : Char) : String :=
  if character = '\x00' then "\\0"
  else if character = '\t' then "\\t"
  else if character = '\r' then "\\r"
  else if character = '\n' then "\\n"
  else if character = '\x22' then "\\\""
  else if character = '\\' then "\\\\"
  else if isHidden character then
    "\\u\x7b" ++ hexadecimal character.toNat ++ "\x7d"
  else
    String.singleton character

/-- A text between double quotes. -/
def quoted (text : String) : String :=
  "\"" ++ String.join (text.toList.map escaped) ++ "\""

/-- Quoted texts between square brackets, separated by commas. -/
def quotedList (texts : List String) : String :=
  "[" ++ String.intercalate ", " (texts.map quoted) ++ "]"

end Scriptlet.Text
