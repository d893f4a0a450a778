import Scriptlet.Proofs.Decimal.FloatText
import Scriptlet.Proofs.Tree.Bracketed
import Scriptlet.Token.Segment
import Scriptlet.Tree.Expression

namespace Scriptlet

/-!
# The texts of names and literals

A name is a word that is not reserved, and the text of a literal is a number or one of the
reserved words for the truth values.  None of these texts holds a bracket, a space or an
equals sign, and from each of them the name or the literal can be told.
-/

/-! ## Items -/

/-- Spaces end an item, and an equals sign ends an attribute. -/
def endsPart (character : Char) : Bool :=
  character == ' ' || character == '='

/-- Whether a text is one item among others, and also one side of an equals sign. -/
structure IsPart (text : String) : Prop where
  someText : text ≠ ""
  isSealed : Sealed endsPart 0 text.toList

theorem IsPart.isItem
    {text : String}
    (isPart : IsPart text) :
    IsItem text := by
  refine ⟨isPart.someText, isPart.isSealed.weaken fun character isSpace => ?_⟩
  rw [endsPart, isSpace, Bool.true_or]

theorem isPart_bracketed
    {items : List String}
    (areItems : ∀ item ∈ items, IsItem item) :
    IsPart (bracketed items) :=
  ⟨bracketed_ne_empty items, sealed_bracketed areItems⟩

/-- Whether a text has no brackets, spaces and equals signs. -/
structure IsWord (text : String) : Prop where
  someText : text ≠ ""
  isPlain : ∀ character ∈ text.toList,
    character ≠ '(' ∧ character ≠ ')' ∧ endsPart character = false

theorem IsWord.isPart
    {text : String}
    (isWord : IsWord text) :
    IsPart text :=
  ⟨isWord.someText, .of_plain isWord.isPlain⟩

/-- Characters of a class that has no brackets, spaces and equals signs. -/
theorem isWord_of_all
    {inClass : Char → Bool}
    (excludes : ∀ character, inClass character = true →
      character ∉ ['(', ')', ' ', '='])
    {text : String}
    (someText : text ≠ "")
    (allInside : ∀ character ∈ text.toList, inClass character = true) :
    IsWord text := by
  refine ⟨someText, fun character member => ?_⟩
  simpa [endsPart] using excludes character (allInside character member)

/-! ## Names -/

/-- Whether a text is a word that is not reserved. -/
structure IsName (text : String) : Prop where
  starts : ∃ first rest, text.toList = first :: rest ∧ Segment.isWordStart first = true
  inside : ∀ character ∈ text.toList, Segment.isWordPart character = true
  notReserved : TokenKind.ofWord text = .identifier

theorem isWordPart_excludes
    (character : Char)
    (isWordPart : Segment.isWordPart character = true) :
    character ∉ ['(', ')', ' ', '=', '.'] := by
  intro member
  have noneInside : ∀ mark ∈ ['(', ')', ' ', '=', '.'],
      Segment.isWordPart mark = false := by
    simp [Segment.isWordPart]
  rw [noneInside character member] at isWordPart
  cases isWordPart

namespace IsName

variable {text : String} (isName : IsName text)
include isName

theorem isWord : IsWord text := by
  obtain ⟨first, rest, isText, _⟩ := isName.starts
  refine isWord_of_all (fun character isInside member => ?_) ?_ isName.inside
  · exact isWordPart_excludes character isInside (List.mem_append_left ['.'] member)
  · rintro rfl
    cases isText

theorem noDot : '.' ∉ text.toList := by
  intro member
  exact isWordPart_excludes '.' (isName.inside '.' member) (by decide)

end IsName

/-! ## Literals -/

/-- Whether a literal is anything but an infinite number or none. -/
def Literal.IsFinite : Literal → Prop
  | .float number => number.isFinite = true
  | _ => True

/-- Whether a text starts like a number. -/
def StartsNumber (text : String) : Prop :=
  ∃ first rest, text.toList = first :: rest ∧ (first = '-' ∨ first.isDigit = true)

theorem isNumeral_excludes
    (character : Char)
    (numeral : isNumeral character = true) :
    character ∉ ['(', ')', ' ', '='] := by
  intro member
  have noneInside : ∀ mark ∈ ['(', ')', ' ', '='], isNumeral mark = false := by
    simp [isNumeral]
  rw [noneInside character member] at numeral
  cases numeral

theorem IsName.not_startsNumber
    {text : String}
    (isName : IsName text) :
    ¬StartsNumber text := by
  rintro ⟨first, rest, isText, isStart⟩
  obtain ⟨wordStart, later, sameText, isWordStart⟩ := isName.starts
  cases isText.symm.trans sameText
  rcases isStart with rfl | isDigit
  · cases isWordStart
  · rw [Segment.isWordStart_of_isDigit isDigit] at isWordStart
    cases isWordStart

theorem startsNumber_of_numerals
    {text : String}
    (startsNumber : StartsNumber text)
    (numerals : ∀ character ∈ text.toList, isNumeral character = true) :
    IsWord text := by
  refine isWord_of_all isNumeral_excludes ?_ numerals
  rintro rfl
  obtain ⟨_, _, isText, _⟩ := startsNumber
  cases isText

theorem startsNumber_int (value : Int) :
    StartsNumber (toString value) := by
  have someText : (toString value).toList ≠ [] := by
    rw [toList_toString]
    split
    · exact Nat.toDigits_ne_nil
    · exact List.cons_ne_nil _ _
  obtain ⟨first, rest, isText⟩ := List.exists_cons_of_ne_nil someText
  have member : first ∈ (toString value).toList := isText ▸ List.mem_cons_self
  exact ⟨first, rest, isText, isDigit_of_mem_toString member⟩

theorem startsNumber_float
    {number : Float}
    (finite : number.isFinite = true) :
    StartsNumber (floatText number) := by
  obtain ⟨digit, rest, isText, isDigit⟩ := (fractional_magnitudeText finite).first
  rcases toList_floatText finite with isPositive | isNegative
  · exact ⟨digit, rest, isPositive.trans isText, .inr isDigit⟩
  · exact ⟨'-', _, isNegative, .inl rfl⟩

theorem numerals_floatText
    {number : Float}
    (finite : number.isFinite = true) :
    ∀ character ∈ (floatText number).toList, isNumeral character = true := by
  have numerals := (fractional_magnitudeText finite).numerals
  rcases toList_floatText finite with isPositive | isNegative
  · rw [isPositive]
    exact numerals
  · rw [isNegative]
    exact List.forall_mem_cons.mpr ⟨rfl, numerals⟩

theorem int_ne_floatText
    {number : Float}
    (finite : number.isFinite = true)
    (value : Int) :
    toString value ≠ floatText number := by
  intro same
  have marked : '.' ∈ (floatText number).toList ∨ 'e' ∈ (floatText number).toList := by
    have marked := (fractional_magnitudeText finite).marked
    rcases toList_floatText finite with isPositive | isNegative
    · rwa [isPositive]
    · rw [isNegative]
      exact marked.imp (List.mem_cons_of_mem _) (List.mem_cons_of_mem _)
  rw [← same] at marked
  rcases marked with isPoint | isExponent
  · rcases isDigit_of_mem_toString isPoint with isMinus | isDigit
    · cases isMinus
    · cases isDigit
  · rcases isDigit_of_mem_toString isExponent with isMinus | isDigit
    · cases isMinus
    · cases isDigit

theorem toString_bool (truth : Bool) :
    toString truth = if truth then "true" else "false" := by
  cases truth <;> rfl

theorem not_startsNumber_bool (truth : Bool) :
    ¬StartsNumber (toString truth) := by
  rintro ⟨first, rest, isText, isStart⟩
  cases truth with
  | false =>
      cases isText
      rcases isStart with isMinus | isDigit
      · cases isMinus
      · cases isDigit
  | true =>
      cases isText
      rcases isStart with isMinus | isDigit
      · cases isMinus
      · cases isDigit

namespace Literal

theorem isWord_display
    {value : Literal}
    (finite : value.IsFinite) :
    IsWord value.display := by
  cases value with
  | int number =>
      exact startsNumber_of_numerals (startsNumber_int _) fun _ member =>
        isNumeral_of_mem_toString member
  | float number =>
      exact startsNumber_of_numerals (startsNumber_float finite) (numerals_floatText finite)
  | bool truth =>
      rw [display, toString_bool]
      cases truth with
      | false => exact ⟨by simp, by simp [endsPart]⟩
      | true => exact ⟨by simp, by simp [endsPart]⟩

theorem startsNumber_display
    {value : Literal}
    (finite : value.IsFinite)
    (notBool : ∀ truth, value ≠ .bool truth) :
    StartsNumber value.display := by
  cases value with
  | int => exact startsNumber_int _
  | float => exact startsNumber_float finite
  | bool truth => exact absurd rfl (notBool truth)

/-- A truth value has the text of no number. -/
theorem eq_of_display_bool
    {value : Literal}
    (finite : value.IsFinite)
    {truth : Bool}
    (sameText : value.display = (Literal.bool truth).display) :
    value = .bool truth := by
  cases value with
  | bool other =>
      rw [display, display, toString_bool, toString_bool] at sameText
      cases truth <;> cases other <;> simp_all
  | _ =>
      have startsNumber := startsNumber_display finite nofun
      rw [sameText] at startsNumber
      exact absurd startsNumber (not_startsNumber_bool truth)

/-- A literal is determined by its text. -/
theorem display_injective
    {value other : Literal}
    (finite : value.IsFinite)
    (otherFinite : other.IsFinite)
    (sameText : value.display = other.display) :
    value = other := by
  cases value with
  | bool truth => exact (eq_of_display_bool otherFinite sameText.symm).symm
  | int number =>
      cases other with
      | bool truth => exact eq_of_display_bool finite sameText
      | float => exact absurd sameText (int_ne_floatText otherFinite _)
      | int otherNumber =>
          have sameNumber : number.toInt = otherNumber.toInt := by
            have readsBack := readWhole?_toString number.toInt
            rw [show toString number.toInt = toString otherNumber.toInt from sameText,
              readWhole?_toString] at readsBack
            exact (Option.some.inj readsBack).symm
          rw [Int64.toInt_inj.mp sameNumber]
  | float number =>
      cases other with
      | bool truth => exact eq_of_display_bool finite sameText
      | int => exact absurd sameText.symm (int_ne_floatText finite _)
      | float => rw [floatText_injective finite otherFinite sameText]

/-- No literal has the text of a name. -/
theorem display_ne_name
    {value : Literal}
    (finite : value.IsFinite)
    {name : String}
    (isName : IsName name) :
    value.display ≠ name := by
  rintro rfl
  cases value with
  | int => exact isName.not_startsNumber (startsNumber_int _)
  | float => exact isName.not_startsNumber (startsNumber_float finite)
  | bool truth =>
      have notReserved := isName.notReserved
      cases truth with
      | false => cases notReserved
      | true => cases notReserved

end Literal

end Scriptlet
