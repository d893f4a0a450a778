import Scriptlet.Grammar.Program
import Mathlib.Data.List.Forall2

namespace Scriptlet

/-!
# Trees as words

A tree determines the tokens it can be written with, up to what a reader does not
look at: where a token stands, and how a number is spelled.  A `Word` is what is
left of a token then.  The words of a tree are those of its parts with its own
keywords, operators, commas, parentheses and braces between them.
-/

/-- A token, less its place and the spelling of its number. -/
inductive Word where
  /-- A keyword, a delimiter or a line break. -/
  | mark (kind : TokenKind)
  | operator (operator : Operator)
  | name (text : String)
  | literal (value : Literal)

/-- The literal that a token spells on its own. -/
def Token.literal? (token : Token) : Option Literal :=
  match token.kind with
  | .int => (readInt? token.lexeme).map .int
  | .float => (readFloat? token.lexeme).map .float
  | .trueKeyword => some (.bool true)
  | .falseKeyword => some (.bool false)
  | _ => none

/-- Whether a token can stand for a word: marks are compared by kind, operators
and names also by spelling, and literals by value. -/
def Token.Spells (token : Token) : Word → Prop
  | .mark kind => token.kind = kind
  | .operator operator => token.operator = operator
  | .name text => token.kind = .identifier ∧ token.lexeme = text
  | .literal value => token.literal? = some value

/-- The kind of the tokens that spell a literal. -/
def Literal.tokenKind : Literal → TokenKind
  | .int _ => .int
  | .float _ => .float
  | .bool true => .trueKeyword
  | .bool false => .falseKeyword

theorem Literal.isUnary_tokenKind (literal : Literal) :
    literal.tokenKind.isUnary = false := by
  cases literal with
  | int number => rfl
  | float number => rfl
  | bool truth => cases truth <;> rfl

/-- The kind of the tokens that spell a word. -/
def Word.kind : Word → TokenKind
  | .mark kind => kind
  | .operator written => written.kind
  | .name _ => .identifier
  | .literal value => value.tokenKind

theorem Token.kind_of_literal?
    {token : Token}
    {value : Literal}
    (isLiteral : token.literal? = some value) :
    token.kind = value.tokenKind := by
  unfold literal? at isLiteral
  split at isLiteral
  case h_5 =>
    cases isLiteral
  case h_1 | h_2 =>
    obtain ⟨number, _, rfl⟩ := Option.map_eq_some_iff.mp isLiteral
    assumption
  case h_3 | h_4 =>
    cases isLiteral
    assumption

theorem Token.Spells.kind_eq
    {token : Token}
    {word : Word}
    (spells : token.Spells word) :
    token.kind = word.kind := by
  cases word with
  | mark kind =>
      exact spells
  | operator operator =>
      exact congrArg Operator.kind spells
  | name text =>
      exact spells.1
  | literal value =>
      exact Token.kind_of_literal? spells

/-- A single token is an expression if it spells a literal or a name. -/
theorem Parser.atom_eq_ok_iff
    {token : Token}
    {result : Expression} :
    Parser.atom token = .ok result ↔
      (∃ value, token.literal? = some value ∧
        result = .literal value token.span) ∨
      (token.kind = .identifier ∧
        result = .reference token.lexeme token.span) := by
  have literal_eq_ok
      (value? : Option Literal) :
      Parser.literal token value? = .ok result ↔
        ∃ value, value? = some value ∧
          result = .literal value token.span := by
    cases value? <;> simp [Parser.literal, eq_comm]
  have ok_eq_ok
      (expected : Expression) :
      (Except.ok expected : Except SyntaxFault Expression) = .ok result ↔
        result = expected := by
    simp [eq_comm]
  unfold Parser.atom Token.literal?
  split
  case h_6 notName =>
    simp [show token.kind ≠ .identifier from notName]
  all_goals simp [*]

/-! ## Expressions -/

/-- Several parts with commas between them. -/
def commaSeparated (parts : List (List Word)) : List Word :=
  [Word.mark .comma].intercalate parts

@[simp] theorem commaSeparated_nil :
    commaSeparated [] = [] :=
  rfl

@[simp] theorem commaSeparated_singleton (part : List Word) :
    commaSeparated [part] = part := by
  simp [commaSeparated]

theorem commaSeparated_cons
    (first : List Word)
    {others : List (List Word)}
    (someOthers : others ≠ []) :
    commaSeparated (first :: others) =
      first ++ .mark .comma :: commaSeparated others := by
  obtain ⟨second, rest, rfl⟩ := List.exists_cons_of_ne_nil someOthers
  simp [commaSeparated]

namespace Expression

mutual

/-- The words of an expression. -/
def words : Expression → List Word
  | .literal value _ => [.literal value]
  | .reference name _ => [.name name]
  | .assign name value _ => .name name :: .mark .equal :: value.words
  | .getAttribute object name _ => object.words ++ [.mark .dot, .name name]
  | .setAttribute object name value _ =>
      object.words ++ .mark .dot :: .name name :: .mark .equal :: value.words
  | .unary operator operand _ => .operator operator :: operand.words
  | .binary left operator right _ =>
      left.words ++ .operator operator :: right.words
  | .logical left operator right _ =>
      left.words ++ .operator operator :: right.words
  | .grouping inner _ =>
      .mark .leftParen :: inner.words ++ [.mark .rightParen]
  | .call callee arguments _ =>
      callee.words ++
        .mark .leftParen :: commaSeparated (wordsOfEach arguments) ++
        [.mark .rightParen]

/-- The words of several expressions, one after the other. -/
def wordsOfEach : List Expression → List (List Word)
  | [] => []
  | expression :: rest => expression.words :: wordsOfEach rest

end

@[simp] theorem wordsOfEach_eq_nil_iff {expressions : List Expression} :
    wordsOfEach expressions = [] ↔ expressions = [] := by
  cases expressions <;> simp [wordsOfEach]

end Expression

/-! ## Statements -/

/-- The words of the parameters of a function. -/
def parameterWords (names : List String) : List Word :=
  .mark .leftParen :: commaSeparated (names.map fun name => [.name name]) ++
    [.mark .rightParen]

namespace Statement

mutual

/-- The words of a statement.  The separator stands behind every statement of a
body. -/
def words (separator : List Word) : Statement → List Word
  | .expression inner => inner.words
  | .declaration constant name initializer _ =>
      .mark (if constant then .constKeyword else .varKeyword) :: .name name ::
        .mark .equal :: initializer.words
  | .block body _ =>
      .mark .leftBrace :: bodyWords separator body ++ [.mark .rightBrace]
  | .whileLoop condition body _ =>
      .mark .whileKeyword :: condition.words ++ body.words separator
  | .conditional branches otherwise _ =>
      branchWords separator .ifKeyword branches ++
        otherwiseWords separator otherwise
  | .breakLoop _ => [.mark .breakKeyword]
  | .continueLoop _ => [.mark .continueKeyword]
  | .returnValue none _ => [.mark .returnKeyword]
  | .returnValue (some value) _ => .mark .returnKeyword :: value.words
  | .function name parameters body _ =>
      .mark .functionKeyword :: .name name :: parameterWords parameters ++
        .mark .leftBrace :: bodyWords separator body ++ [.mark .rightBrace]

/-- The words of the statements of a body. -/
def bodyWords (separator : List Word) : List Statement → List Word
  | [] => []
  | statement :: rest =>
      statement.words separator ++ separator ++ bodyWords separator rest

/-- The words of branches, of which the first has the given keyword. -/
def branchWords (separator : List Word) :
    TokenKind →
    List (Expression × Statement) →
    List Word
  | _, [] => []
  | keyword, (condition, body) :: rest =>
      .mark keyword :: condition.words ++ body.words separator ++
        branchWords separator .elifKeyword rest

/-- The words of the last resort of a conditional. -/
def otherwiseWords (separator : List Word) : Option Statement → List Word
  | none => []
  | some body => .mark .elseKeyword :: body.words separator

end

end Statement

end Scriptlet
