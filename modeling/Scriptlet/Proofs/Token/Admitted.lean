import Scriptlet.Proofs.Grammar.JoinedTexts
import Scriptlet.Proofs.Tree.Forms

namespace Scriptlet

/-!
# The spellings of scanned tokens

An identifier that is cut off a text is a word that is not reserved, and a symbol or a
reserved word is spelled the one way that its kind is.  A number that is read from a token
is finite.
-/

namespace TokenKind

/-- Whether tokens of a kind may have a spelling: names are no reserved words, and some
kinds have one spelling only. -/
structure Admits (kind : TokenKind) (text : String) : Prop where
  isName : kind = .identifier → IsName text
  isOnly : ∀ only, kind.spelling? = some only → text = only

/-- A kind with one spelling admits this one. -/
theorem admits_spelling
    {kind : TokenKind}
    {text : String}
    (isSpelling : kind.spelling? = some text) :
    kind.Admits text := by
  constructor
  · rintro rfl
    cases isSpelling
  · intro only isOnly
    exact Option.some.inj (isSpelling.symm.trans isOnly)

/-- A kind with all sorts of spellings that is not the one of names admits anything. -/
theorem admits_any
    (kind : TokenKind)
    (notName : kind ≠ .identifier)
    (noSpelling : kind.spelling? = none)
    (text : String) :
    kind.Admits text := by
  constructor
  · exact fun isName => absurd isName notName
  · intro only isOnly
    rw [noSpelling] at isOnly
    cases isOnly

theorem spelling?_of_symbol?
    {kind : TokenKind}
    {symbol : String}
    (isSymbol : kind.symbol? = some symbol) :
    kind.spelling? = some symbol := by
  rw [spelling?, isSymbol, Option.some_or]

theorem spelling?_of_keyword?
    {kind : TokenKind}
    {keyword : String}
    (isKeyword : kind.keyword? = some keyword) :
    kind.spelling? = some keyword := by
  have noSymbol : kind.symbol? = none := by
    cases kind <;> first | rfl | cases isKeyword
  rw [spelling?, noSymbol, Option.none_or, isKeyword]

/-- The kind of a word admits the word. -/
theorem ofWord_admits
    {word : String}
    (starts : ∃ first rest, word.toList = first :: rest ∧
      Segment.isWordStart first = true)
    (inside : ∀ character ∈ word.toList, Segment.isWordPart character = true) :
    (ofWord word).Admits word := by
  by_cases isName : ofWord word = .identifier
  · constructor
    · exact fun _ => ⟨starts, inside, isName⟩
    · intro only isOnly
      rw [isName] at isOnly
      cases isOnly
  · exact admits_spelling (spelling?_of_keyword? (keyword?_ofWord word isName))

end TokenKind

/-! ## Tokens that are cut off a text -/

/-- What is spelled as a token is spelled as tokens of its kind may be. -/
theorem Spelling.admits
    {kind : TokenKind}
    {lexeme covered : List Char}
    (spelling : Spelling kind lexeme covered) :
    kind.Admits (String.ofList lexeme) := by
  cases spelling with
  | lineBreak => exact TokenKind.admits_any .newline (by decide) rfl _
  | string => exact TokenKind.admits_any .string (by decide) rfl _
  | whole => exact TokenKind.admits_any .int (by decide) rfl _
  | fraction => exact TokenKind.admits_any .float (by decide) rfl _
  | word isStart areParts =>
      apply TokenKind.ofWord_admits
      · exact ⟨_, _, String.toList_ofList, isStart⟩
      · rw [String.toList_ofList]
        exact List.forall_mem_cons.mpr
          ⟨Segment.isWordPart_of_isWordStart isStart, areParts⟩
  | symbol isSymbol =>
      rw [String.ofList_toList]
      exact TokenKind.admits_spelling (TokenKind.spelling?_of_symbol? isSymbol)

namespace Token

/-- Whether a token is spelled as tokens of its kind may be. -/
def IsAdmitted (token : Token) : Prop :=
  token.kind.Admits token.lexeme

/-- The tokens of a source are spelled as tokens of their kinds may be. -/
theorem isAdmitted_of_mem
    {source : SourceUnit}
    {token : Token}
    (member : token ∈ source.bodyTokens) :
    token.IsAdmitted := by
  obtain ⟨⟨place, segment⟩, isPlaced, isToken⟩ := List.mem_filterMap.mp member
  obtain ⟨rest, fits⟩ := fits_of_mem_segments (Segment.mem_of_mem_placed isPlaced)
  cases segment with
  | token kind lexeme covered =>
      cases isToken
      exact Spelling.admits fits
  | _ => cases isToken

/-- A number that is read from a token is finite. -/
theorem isFinite_of_literal?
    {token : Token}
    {value : Literal}
    (isLiteral : token.literal? = some value) :
    value.IsFinite := by
  cases value with
  | float number =>
      have isFloat : token.kind = .float := kind_of_literal? isLiteral
      rw [literal?, isFloat, Option.map_eq_some_iff] at isLiteral
      obtain ⟨_, isRead, isNumber⟩ := isLiteral
      obtain rfl := Literal.float.inj isNumber
      obtain ⟨_, _, isRounded⟩ := Option.bind_eq_some_iff.mp isRead
      obtain ⟨isFinite, isValue⟩ := Option.ite_none_right_eq_some.mp isRounded
      exact Option.some.inj isValue ▸ isFinite
  | _ => trivial

end Token

end Scriptlet
