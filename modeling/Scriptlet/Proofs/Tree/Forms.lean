import Scriptlet.Proofs.Tree.Bare
import Scriptlet.Proofs.Tree.LeafTexts

namespace Scriptlet

/-!
# The text forms of expressions

The text form of an expression is a word, or a list of items in brackets of which the first
tells what kind of expression it is.  The other items are names and the text forms of its
parts; only an attribute is joined to its object by a dot, and to what is assigned to it by
an equals sign.  So the text form determines the expression up to spans.
-/

/-! ## Operators -/

/-- The text that tokens of a kind are spelled with, if there is only one. -/
def TokenKind.spelling? (kind : TokenKind) : Option String :=
  kind.symbol?.or kind.keyword?

/-- The kinds of operators. -/
def operatorKinds : List TokenKind :=
  TokenKind.all.filter fun kind => kind.isUnary || kind.level?.isSome

/-- The texts of operators. -/
def operatorTexts : List String :=
  operatorKinds.filterMap TokenKind.spelling?

/-- Whether an operator is one, and spelled as operators of its kind are. -/
structure Operator.IsSpelled (operator : Operator) : Prop where
  isOperator : operator.kind ∈ operatorKinds
  isText : operator.kind.spelling? = some operator.lexeme

theorem Operator.IsSpelled.mem_texts
    {operator : Operator}
    (spelled : operator.IsSpelled) :
    operator.lexeme ∈ operatorTexts :=
  List.mem_filterMap.mpr ⟨operator.kind, spelled.isOperator, spelled.isText⟩

/-- No two kinds of operators are spelled alike. -/
theorem spelling?_injective :
    ∀ kind ∈ operatorKinds, ∀ other ∈ operatorKinds,
      kind.spelling? = other.spelling? → kind = other := by
  decide +kernel

theorem Operator.IsSpelled.eq_of_lexeme
    {operator other : Operator}
    (spelled : operator.IsSpelled)
    (otherSpelled : other.IsSpelled)
    (sameText : operator.lexeme = other.lexeme) :
    operator = other := by
  obtain ⟨kind, lexeme⟩ := operator
  obtain ⟨otherKind, otherLexeme⟩ := other
  obtain rfl : lexeme = otherLexeme := sameText
  have sameKind := spelling?_injective kind spelled.isOperator otherKind
    otherSpelled.isOperator (spelled.isText.trans otherSpelled.isText.symm)
  rw [sameKind]

/-- The texts of operators and of the marks that stand first in other forms are items. -/
theorem isItem_of_all
    {text : String}
    (someText : text ≠ "")
    (isPlain : (text.toList.all fun character =>
      character != '(' && character != ')' && character != ' ') = true) :
    IsItem text := by
  refine ⟨someText, .of_plain fun character member => ?_⟩
  simpa [and_assoc] using List.all_eq_true.mp isPlain character member

theorem isItem_operator :
    ∀ text ∈ operatorTexts, IsItem text := by
  have areItems : ∀ text ∈ operatorTexts, text ≠ "" ∧
      (text.toList.all fun character =>
        character != '(' && character != ')' && character != ' ') = true := by
    decide +kernel
  intro text member
  exact isItem_of_all (areItems text member).1 (areItems text member).2

/-! ## Forms -/

/-- The form of a text: a word, or items in brackets. -/
inductive Form where
  | word (text : String)
  | list (items : List String)

namespace Form

/-- The text of a form. -/
def text : Form → String
  | .word text => text
  | .list items => bracketed items

/-- Whether a form can be told from its text. -/
def IsLegible : Form → Prop
  | .word text => IsWord text
  | .list items => ∀ item ∈ items, IsItem item

theorem IsLegible.isPart
    {form : Form}
    (legible : form.IsLegible) :
    IsPart form.text := by
  cases form with
  | word text => exact IsWord.isPart legible
  | list items => exact isPart_bracketed legible

theorem word_ne_bracketed
    {text : String}
    (isWord : IsWord text)
    (items : List String) :
    text ≠ bracketed items := by
  rintro rfl
  have member : '(' ∈ (bracketed items).toList := by
    simp [bracketed]
  exact (isWord.isPlain '(' member).1 rfl

/-- A form is determined by its text. -/
theorem text_injective
    {form other : Form}
    (legible : form.IsLegible)
    (otherLegible : other.IsLegible)
    (sameText : form.text = other.text) :
    form = other := by
  cases form with
  | word text =>
      cases other with
      | word otherText => exact congrArg Form.word sameText
      | list items => exact absurd sameText (word_ne_bracketed legible items)
  | list items =>
      cases other with
      | word otherText => exact absurd sameText.symm (word_ne_bracketed otherLegible items)
      | list otherItems =>
          rw [bracketed_injective legible otherLegible sameText]

end Form

/-! ## What a list is -/

/-- What a form may be the form of. -/
inductive Construct where
  | word
  | assignment
  | attribute
  | setting
  | grouping
  | call
  | operation
  | declaration (constant : Bool)
  | block
  | loop
  | conditional
  | branch
  | lastResort
  | breaking
  | continuing
  | returning
  | function
  deriving DecidableEq

/-- What a list is, by its first item. -/
def Construct.ofMark : String → Construct
  | "=" => .assignment
  | "get" => .attribute
  | "set" => .setting
  | "group" => .grouping
  | "call" => .call
  | "var" => .declaration false
  | "const" => .declaration true
  | "block" => .block
  | "while" => .loop
  | "if" => .conditional
  | "elif" => .branch
  | "else" => .lastResort
  | "break" => .breaking
  | "continue" => .continuing
  | "return" => .returning
  | "function" => .function
  | _ => .operation

/-- What a form is. -/
def Form.construct : Form → Construct
  | .word _ => .word
  | .list [] => .operation
  | .list (mark :: _) => .ofMark mark

theorem ofMark_operator :
    ∀ text ∈ operatorTexts, Construct.ofMark text = .operation := by
  decide +kernel

theorem isItem_mark
    {mark : String}
    (isMark : Construct.ofMark mark ≠ .operation) :
    IsItem mark := by
  unfold Construct.ofMark at isMark
  split at isMark
  case h_17 => exact absurd rfl isMark
  all_goals exact isItem_of_all (by simp) (by simp)

theorem forall_mem_pair
    {first second : String}
    (firstItem : IsItem first)
    (secondItem : IsItem second) :
    ∀ item ∈ [first, second], IsItem item :=
  List.forall_mem_cons.mpr ⟨firstItem, List.forall_mem_singleton.mpr secondItem⟩

theorem forall_mem_triple
    {first second third : String}
    (firstItem : IsItem first)
    (secondItem : IsItem second)
    (thirdItem : IsItem third) :
    ∀ item ∈ [first, second, third], IsItem item :=
  List.forall_mem_cons.mpr ⟨firstItem, forall_mem_pair secondItem thirdItem⟩

/-! ## The forms of expressions -/

namespace Expression

mutual

/-- Whether an expression can be told from its text: its names are no reserved words, its
operators are spelled as such, and its numbers are finite. -/
def Legible : Expression → Prop
  | .literal value _ => value.IsFinite
  | .reference name _ => IsName name
  | .assign name value _ => IsName name ∧ value.Legible
  | .getAttribute object name _ => object.Legible ∧ IsName name
  | .setAttribute object name value _ => object.Legible ∧ IsName name ∧ value.Legible
  | .unary operator operand _ => operator.IsSpelled ∧ operand.Legible
  | .binary left operator right _ =>
      (operator.IsSpelled ∧ ∃ level, operator.kind.level? = some level ∧ 3 ≤ level) ∧
        left.Legible ∧ right.Legible
  | .logical left operator right _ =>
      (operator.IsSpelled ∧ ∃ level, operator.kind.level? = some level ∧ level < 3) ∧
        left.Legible ∧ right.Legible
  | .grouping inner _ => inner.Legible
  | .call callee arguments _ => callee.Legible ∧ AllLegible arguments

/-- Whether all expressions of a list can be told from their texts. -/
def AllLegible : List Expression → Prop
  | [] => True
  | expression :: rest => expression.Legible ∧ AllLegible rest

end

/-- The text of an attribute with its object. -/
def attributeText (object : Expression) (name : String) : String :=
  object.display ++ "." ++ name

/-- The form of the text of an expression. -/
def form : Expression → Form
  | .literal value _ => .word value.display
  | .reference name _ => .word name
  | .assign name value _ => .list ["=", name, value.display]
  | .getAttribute object name _ => .list ["get", object.attributeText name]
  | .setAttribute object name value _ =>
      .list ["set", object.attributeText name ++ "=" ++ value.display]
  | .unary operator operand _ => .list [operator.lexeme, operand.display]
  | .binary left operator right _ =>
      .list [operator.lexeme, left.display, right.display]
  | .logical left operator right _ =>
      .list [operator.lexeme, left.display, right.display]
  | .grouping inner _ => .list ["group", inner.display]
  | .call callee arguments _ =>
      .list ["call", callee.display, bracketed (displayAll arguments)]

theorem display_eq (expression : Expression) :
    expression.display = expression.form.text := by
  apply String.toList_inj.mp
  cases expression <;>
    simp [display, form, Form.text, attributeText, bracketed,
      String.intercalate_cons_cons]

/-- What the text form of an expression is. -/
def construct : Expression → Construct
  | .literal _ _ => .word
  | .reference _ _ => .word
  | .assign _ _ _ => .assignment
  | .getAttribute _ _ _ => .attribute
  | .setAttribute _ _ _ _ => .setting
  | .unary _ _ _ => .operation
  | .binary _ _ _ _ => .operation
  | .logical _ _ _ _ => .operation
  | .grouping _ _ => .grouping
  | .call _ _ _ => .call

theorem construct_form
    {expression : Expression}
    (legible : expression.Legible) :
    expression.form.construct = expression.construct := by
  cases expression with
  | unary => exact ofMark_operator _ legible.1.mem_texts
  | binary => exact ofMark_operator _ legible.1.1.mem_texts
  | logical => exact ofMark_operator _ legible.1.1.mem_texts
  | _ => rfl

/-! ## Legible expressions have legible forms -/

/-- An attribute with its object is one side of an equals sign. -/
theorem isPart_attributeText
    {object : Expression}
    {name : String}
    (objectPart : IsPart object.display)
    (isName : IsName name) :
    IsPart (object.attributeText name) := by
  have dot : Sealed endsPart 0 ".".toList := .of_plain (by simp [endsPart])
  constructor
  · intro isEmpty
    have noText := congrArg String.toList isEmpty
    simp [attributeText] at noText
  · rw [attributeText, String.toList_append, String.toList_append]
    exact (objectPart.isSealed.append dot).append isName.isWord.isPart.isSealed

/-- Both sides of an equals sign are one item. -/
theorem isItem_setting
    {target text : String}
    (targetPart : IsPart target)
    (textPart : IsPart text) :
    IsItem (target ++ "=" ++ text) := by
  have sign : Sealed (· == ' ') 0 "=".toList := .of_plain (by simp)
  constructor
  · intro isEmpty
    have noText := congrArg String.toList isEmpty
    simp at noText
  · rw [String.toList_append, String.toList_append]
    exact (targetPart.isItem.isSealed.append sign).append textPart.isItem.isSealed

theorem isPart_of_form
    {expression : Expression}
    (legible : expression.form.IsLegible) :
    IsPart expression.display :=
  expression.display_eq ▸ legible.isPart

mutual

theorem legible_form : ∀ expression : Expression,
    expression.Legible → expression.form.IsLegible
  | .literal _ _, finite => Literal.isWord_display finite
  | .reference _ _, isName => isName.isWord
  | .assign _ value _, ⟨isName, legible⟩ =>
      forall_mem_triple (isItem_mark (by decide)) isName.isWord.isPart.isItem
        (isPart_of_form (legible_form value legible)).isItem
  | .getAttribute object _ _, ⟨legible, isName⟩ =>
      forall_mem_pair (isItem_mark (by decide))
        (isPart_attributeText (isPart_of_form (legible_form object legible)) isName).isItem
  | .setAttribute object _ value _, ⟨objectLegible, isName, legible⟩ =>
      forall_mem_pair (isItem_mark (by decide))
        (isItem_setting
          (isPart_attributeText (isPart_of_form (legible_form object objectLegible)) isName)
          (isPart_of_form (legible_form value legible)))
  | .unary _ operand _, ⟨spelled, legible⟩ =>
      forall_mem_pair (isItem_operator _ spelled.mem_texts)
        (isPart_of_form (legible_form operand legible)).isItem
  | .binary left _ right _, ⟨⟨spelled, _⟩, leftLegible, rightLegible⟩ =>
      forall_mem_triple (isItem_operator _ spelled.mem_texts)
        (isPart_of_form (legible_form left leftLegible)).isItem
        (isPart_of_form (legible_form right rightLegible)).isItem
  | .logical left _ right _, ⟨⟨spelled, _⟩, leftLegible, rightLegible⟩ =>
      forall_mem_triple (isItem_operator _ spelled.mem_texts)
        (isPart_of_form (legible_form left leftLegible)).isItem
        (isPart_of_form (legible_form right rightLegible)).isItem
  | .grouping inner _, legible =>
      forall_mem_pair (isItem_mark (by decide))
        (isPart_of_form (legible_form inner legible)).isItem
  | .call callee arguments _, ⟨calleeLegible, legible⟩ =>
      forall_mem_triple (isItem_mark (by decide))
        (isPart_of_form (legible_form callee calleeLegible)).isItem
        (isItem_bracketed (areItems_displayAll arguments legible))

theorem areItems_displayAll : ∀ expressions : List Expression,
    AllLegible expressions → ∀ item ∈ displayAll expressions, IsItem item
  | [], _ => nofun
  | expression :: rest, ⟨legible, restLegible⟩ =>
      List.forall_mem_cons.mpr
        ⟨(isPart_of_form (legible_form expression legible)).isItem,
          areItems_displayAll rest restLegible⟩

end

/-- The text of an expression is an item, and one side of an equals sign. -/
theorem isPart_display
    {expression : Expression}
    (legible : expression.Legible) :
    IsPart expression.display :=
  isPart_of_form (legible_form expression legible)

/-! ## The parts of items -/

/-- What stands in front of the last mark and what stands behind it. -/
theorem append_mark_inj
    {mark : Char}
    {front other behind otherBehind : List Char}
    (isLast : mark ∉ behind)
    (otherIsLast : mark ∉ otherBehind)
    (same : front ++ mark :: behind = other ++ mark :: otherBehind) :
    front = other ∧ behind = otherBehind := by
  rcases List.append_eq_append_iff.mp same with
    ⟨between, rfl, isBehind⟩ | ⟨between, rfl, isBehind⟩
  · cases between with
    | nil => exact ⟨(List.append_nil _).symm, (List.cons.inj isBehind).2⟩
    | cons first between =>
        obtain ⟨_, rfl⟩ := List.cons.inj isBehind
        exact absurd (List.mem_append_right _ List.mem_cons_self) isLast
  · cases between with
    | nil => exact ⟨List.append_nil _, (List.cons.inj isBehind).2.symm⟩
    | cons first between =>
        obtain ⟨_, rfl⟩ := List.cons.inj isBehind
        exact absurd (List.mem_append_right _ List.mem_cons_self) otherIsLast

/-- Where an attribute begins behind its object is determined by the text. -/
theorem attributeText_injective
    {object other : Expression}
    {name otherName : String}
    (isName : IsName name)
    (otherIsName : IsName otherName)
    (sameText : object.attributeText name = other.attributeText otherName) :
    object.display = other.display ∧ name = otherName := by
  have same := congrArg String.toList sameText
  simp only [attributeText, String.toList_append, List.append_assoc] at same
  obtain ⟨sameObject, sameName⟩ := append_mark_inj isName.noDot otherIsName.noDot same
  exact ⟨String.toList_inj.mp sameObject, String.toList_inj.mp sameName⟩

/-- Where the assigned expression begins is determined by the text. -/
theorem setting_injective
    {target other text otherText : String}
    (targetPart : IsPart target)
    (otherPart : IsPart other)
    (sameText : target ++ "=" ++ text = other ++ "=" ++ otherText) :
    target = other ∧ text = otherText := by
  have endsTarget (rest : List Char) : EndsItem endsPart ('=' :: rest) := by
    simp [EndsItem, endsPart]
  have same := congrArg String.toList sameText
  simp only [String.toList_append, List.append_assoc] at same
  obtain ⟨sameTarget, sameRest⟩ := targetPart.isSealed.append_inj otherPart.isSealed
    (endsTarget _) (endsTarget _) same
  have sameValue := (List.cons.inj sameRest).2
  exact ⟨String.toList_inj.mp sameTarget, String.toList_inj.mp sameValue⟩

/-! ## Expressions with one text -/

/-- The connectives have levels of their own. -/
theorem not_binary_of_logical
    {operator : Operator}
    (isLogical : operator.IsSpelled ∧
      ∃ level, operator.kind.level? = some level ∧ level < 3) :
    ¬(operator.IsSpelled ∧ ∃ level, operator.kind.level? = some level ∧ 3 ≤ level) := by
  rintro ⟨_, level, hasLevel, isHigh⟩
  obtain ⟨_, otherLevel, hasOther, isLow⟩ := isLogical
  cases hasLevel.symm.trans hasOther
  exact absurd isLow (Nat.not_lt.mpr isHigh)

/-- Expressions with one text have one form and are nodes of one kind. -/
theorem alike_of_display
    {expression other : Expression}
    (legible : expression.Legible)
    (otherLegible : other.Legible)
    (sameText : expression.display = other.display) :
    expression.form = other.form ∧ expression.construct = other.construct := by
  rw [display_eq, display_eq] at sameText
  have sameForm := Form.text_injective (legible_form expression legible)
    (legible_form other otherLegible) sameText
  refine ⟨sameForm, ?_⟩
  rw [← construct_form legible, sameForm, construct_form otherLegible]

mutual

/-- Expressions with one text are equal up to spans. -/
theorem bare_eq_of_display : ∀ expression other : Expression,
    expression.Legible → other.Legible → expression.display = other.display →
    expression.bare = other.bare
  | .literal value span, other, finite, otherLegible, sameText => by
      have legible : (Expression.literal value span).Legible := finite
      obtain ⟨sameForm, sameConstruct⟩ := alike_of_display legible otherLegible sameText
      cases other with
      | literal otherValue otherSpan =>
          obtain rfl := Literal.display_injective finite otherLegible sameText
          rfl
      | reference name otherSpan =>
          exact absurd sameText (Literal.display_ne_name finite otherLegible)
      | _ => cases sameConstruct
  | .reference name span, other, isName, otherLegible, sameText => by
      have legible : (Expression.reference name span).Legible := isName
      obtain ⟨sameForm, sameConstruct⟩ := alike_of_display legible otherLegible sameText
      cases other with
      | literal value otherSpan =>
          exact absurd sameText.symm (Literal.display_ne_name otherLegible isName)
      | reference otherName otherSpan =>
          obtain rfl : name = otherName := sameText
          rfl
      | _ => cases sameConstruct
  | .assign name value span, other, legible, otherLegible, sameText => by
      obtain ⟨sameForm, sameConstruct⟩ := alike_of_display legible otherLegible sameText
      cases other with
      | assign otherName otherValue otherSpan =>
          obtain ⟨rfl, sameValue⟩ : name = otherName ∧
              value.display = otherValue.display := by
            simpa [form] using sameForm
          exact congrArg (Expression.assign name · Span.nowhere)
            (bare_eq_of_display value otherValue legible.2 otherLegible.2 sameValue)
      | _ => cases sameConstruct
  | .getAttribute object name span, other, legible, otherLegible, sameText => by
      obtain ⟨sameForm, sameConstruct⟩ := alike_of_display legible otherLegible sameText
      cases other with
      | getAttribute otherObject otherName otherSpan =>
          have sameItem :
              object.attributeText name = otherObject.attributeText otherName := by
            simpa [form] using sameForm
          obtain ⟨sameObject, rfl⟩ :=
            attributeText_injective legible.2 otherLegible.2 sameItem
          exact congrArg (Expression.getAttribute · name Span.nowhere)
            (bare_eq_of_display object otherObject legible.1 otherLegible.1 sameObject)
      | _ => cases sameConstruct
  | .setAttribute object name value span, other, legible, otherLegible, sameText => by
      obtain ⟨sameForm, sameConstruct⟩ := alike_of_display legible otherLegible sameText
      cases other with
      | setAttribute otherObject otherName otherValue otherSpan =>
          obtain ⟨objectLegible, isName, valueLegible⟩ := legible
          obtain ⟨otherObjectLegible, otherIsName, otherValueLegible⟩ := otherLegible
          have sameItem : object.attributeText name ++ "=" ++ value.display =
              otherObject.attributeText otherName ++ "=" ++ otherValue.display := by
            simpa only [form, Form.list.injEq, List.cons.injEq, true_and, and_true]
              using sameForm
          obtain ⟨sameTarget, sameValue⟩ := setting_injective
            (isPart_attributeText (isPart_display objectLegible) isName)
            (isPart_attributeText (isPart_display otherObjectLegible) otherIsName)
            sameItem
          obtain ⟨sameObject, rfl⟩ := attributeText_injective isName otherIsName sameTarget
          exact congrArg₂ (Expression.setAttribute · name · Span.nowhere)
            (bare_eq_of_display object otherObject objectLegible otherObjectLegible
              sameObject)
            (bare_eq_of_display value otherValue valueLegible otherValueLegible sameValue)
      | _ => cases sameConstruct
  | .unary operator operand span, other, legible, otherLegible, sameText => by
      obtain ⟨sameForm, sameConstruct⟩ := alike_of_display legible otherLegible sameText
      cases other with
      | unary otherOperator otherOperand otherSpan =>
          obtain ⟨sameOperator, sameOperand⟩ :
              operator.lexeme = otherOperator.lexeme ∧
                operand.display = otherOperand.display := by
            simpa [form] using sameForm
          obtain rfl := legible.1.eq_of_lexeme otherLegible.1 sameOperator
          exact congrArg (Expression.unary operator · Span.nowhere)
            (bare_eq_of_display operand otherOperand legible.2 otherLegible.2 sameOperand)
      | binary | logical => simp [form] at sameForm
      | _ => cases sameConstruct
  | .binary left operator right span, other, legible, otherLegible, sameText => by
      obtain ⟨sameForm, sameConstruct⟩ := alike_of_display legible otherLegible sameText
      cases other with
      | binary otherLeft otherOperator otherRight otherSpan =>
          obtain ⟨sameOperator, sameLeft, sameRight⟩ :
              operator.lexeme = otherOperator.lexeme ∧ left.display = otherLeft.display ∧
                right.display = otherRight.display := by
            simpa [form] using sameForm
          obtain rfl := legible.1.1.eq_of_lexeme otherLegible.1.1 sameOperator
          exact congrArg₂ (Expression.binary · operator · Span.nowhere)
            (bare_eq_of_display left otherLeft legible.2.1 otherLegible.2.1 sameLeft)
            (bare_eq_of_display right otherRight legible.2.2 otherLegible.2.2 sameRight)
      | logical otherLeft otherOperator otherRight otherSpan =>
          have sameOperator := (List.cons.inj (Form.list.inj sameForm)).1
          obtain rfl := legible.1.1.eq_of_lexeme otherLegible.1.1 sameOperator
          exact absurd legible.1 (not_binary_of_logical otherLegible.1)
      | unary => simp [form] at sameForm
      | _ => cases sameConstruct
  | .logical left operator right span, other, legible, otherLegible, sameText => by
      obtain ⟨sameForm, sameConstruct⟩ := alike_of_display legible otherLegible sameText
      cases other with
      | logical otherLeft otherOperator otherRight otherSpan =>
          obtain ⟨sameOperator, sameLeft, sameRight⟩ :
              operator.lexeme = otherOperator.lexeme ∧ left.display = otherLeft.display ∧
                right.display = otherRight.display := by
            simpa [form] using sameForm
          obtain rfl := legible.1.1.eq_of_lexeme otherLegible.1.1 sameOperator
          exact congrArg₂ (Expression.logical · operator · Span.nowhere)
            (bare_eq_of_display left otherLeft legible.2.1 otherLegible.2.1 sameLeft)
            (bare_eq_of_display right otherRight legible.2.2 otherLegible.2.2 sameRight)
      | binary otherLeft otherOperator otherRight otherSpan =>
          have sameOperator := (List.cons.inj (Form.list.inj sameForm)).1
          obtain rfl := legible.1.1.eq_of_lexeme otherLegible.1.1 sameOperator
          exact absurd otherLegible.1 (not_binary_of_logical legible.1)
      | unary => simp [form] at sameForm
      | _ => cases sameConstruct
  | .grouping inner span, other, innerLegible, otherLegible, sameText => by
      have legible : (Expression.grouping inner span).Legible := innerLegible
      obtain ⟨sameForm, sameConstruct⟩ := alike_of_display legible otherLegible sameText
      cases other with
      | grouping otherInner otherSpan =>
          have sameInner : inner.display = otherInner.display := by
            simpa [form] using sameForm
          exact congrArg (Expression.grouping · Span.nowhere)
            (bare_eq_of_display inner otherInner innerLegible otherLegible sameInner)
      | _ => cases sameConstruct
  | .call callee arguments span, other, legible, otherLegible, sameText => by
      obtain ⟨sameForm, sameConstruct⟩ := alike_of_display legible otherLegible sameText
      cases other with
      | call otherCallee otherArguments otherSpan =>
          obtain ⟨sameCallee, sameList⟩ : callee.display = otherCallee.display ∧
              bracketed (displayAll arguments) = bracketed (displayAll otherArguments) := by
            simpa [form] using sameForm
          have sameTexts := bracketed_injective
            (areItems_displayAll arguments legible.2)
            (areItems_displayAll otherArguments otherLegible.2) sameList
          rw [bare, mapSpans, mapSpans, mapSpansOfEach_eq_map, mapSpansOfEach_eq_map]
          exact congrArg₂ (Expression.call · · Span.nowhere)
            (bare_eq_of_display callee otherCallee legible.1 otherLegible.1 sameCallee)
            (bareEach_eq_of_display arguments otherArguments legible.2 otherLegible.2
              sameTexts)
      | _ => cases sameConstruct

theorem bareEach_eq_of_display : ∀ expressions others : List Expression,
    AllLegible expressions → AllLegible others →
    displayAll expressions = displayAll others →
    expressions.map bare = others.map bare
  | [], [], _, _, _ => rfl
  | expression :: rest, other :: otherRest, ⟨legible, restLegible⟩,
      ⟨otherLegible, otherRestLegible⟩, sameTexts => by
      obtain ⟨sameText, sameRest⟩ := List.cons.inj sameTexts
      rw [List.map_cons, List.map_cons,
        bare_eq_of_display expression other legible otherLegible sameText,
        bareEach_eq_of_display rest otherRest restLegible otherRestLegible sameRest]

end

end Expression

end Scriptlet
