namespace Scriptlet.Text

/-!
# White space around a line

Lines typed at the prompt are freed of white space at both ends.  White space is
the Unicode property of that name.
-/

/-- Whether a character is white space: the controls from tab to carriage
return, the space, the next line control, and the spaces and separators of the
other scripts. -/
def isBlank (character : Char) : Bool :=
  let code := character.toNat
  (0x9 ≤ code && code ≤ 0xd) || code == 0x20 || code == 0x85 || code == 0xa0 ||
    code == 0x1680 || (0x2000 ≤ code && code ≤ 0x200a) || code == 0x2028 ||
    code == 0x2029 || code == 0x202f || code == 0x205f || code == 0x3000

/-- A text without the white space at its two ends. -/
def trimmed (text : String) : String :=
  String.ofList
    (((text.toList.dropWhile isBlank).reverse.dropWhile isBlank).reverse)

end Scriptlet.Text
