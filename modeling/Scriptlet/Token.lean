import Scriptlet.Source

namespace Scriptlet

/-!
# Tokens

The words of the language: what kinds there are, how each kind is named and
spelled, and how a token is shown in a listing.
-/

/-- The kinds of tokens. -/
inductive TokenKind where
  | plus
  | dash
  | star
  | slash
  | leftParen
  | rightParen
  | leftBrace
  | rightBrace
  | equal
  | equalEqual
  | bangEqual
  | greater
  | greaterEqual
  | less
  | lessEqual
  | dot
  | comma
  | int
  | float
  | string
  | identifier
  | notKeyword
  | trueKeyword
  | falseKeyword
  | varKeyword
  | constKeyword
  | whileKeyword
  | continueKeyword
  | breakKeyword
  | functionKeyword
  | returnKeyword
  | ifKeyword
  | elifKeyword
  | elseKeyword
  | andKeyword
  | orKeyword
  | newline
  | endOfInput
  deriving Repr, DecidableEq, Inhabited

namespace TokenKind

/-- Every kind, in the order of declaration. -/
def all : List TokenKind :=
  [.plus, .dash, .star, .slash, .leftParen, .rightParen, .leftBrace,
    .rightBrace, .equal, .equalEqual, .bangEqual, .greater, .greaterEqual,
    .less, .lessEqual, .dot, .comma, .int, .float, .string, .identifier,
    .notKeyword, .trueKeyword, .falseKeyword, .varKeyword, .constKeyword,
    .whileKeyword, .continueKeyword, .breakKeyword, .functionKeyword,
    .returnKeyword, .ifKeyword, .elifKeyword, .elseKeyword, .andKeyword,
    .orKeyword, .newline, .endOfInput]

/-- The name of a kind, as error messages quote it. -/
def name : TokenKind → String
  | .plus => "PLUS"
  | .dash => "DASH"
  | .star => "STAR"
  | .slash => "SLASH"
  | .leftParen => "LPAREN"
  | .rightParen => "RPAREN"
  | .leftBrace => "LCURLYBRACKET"
  | .rightBrace => "RCURLYBRACKET"
  | .equal => "SINGLE_EQUALS"
  | .equalEqual => "EQUALS"
  | .bangEqual => "NOT_EQUALS"
  | .greater => "GREATER_THAN"
  | .greaterEqual => "GREATER_THAN_EQUALS"
  | .less => "LESS_THAN"
  | .lessEqual => "LESS_THAN_EQUALS"
  | .dot => "DOT"
  | .comma => "COMMA"
  | .int => "INT"
  | .float => "FLOAT"
  | .string => "STRING"
  | .identifier => "IDENTIFIER"
  | .notKeyword => "NOT"
  | .trueKeyword => "TRUE"
  | .falseKeyword => "FALSE"
  | .varKeyword => "VAR"
  | .constKeyword => "CONST"
  | .whileKeyword => "WHILE"
  | .continueKeyword => "CONTINUE"
  | .breakKeyword => "BREAK"
  | .functionKeyword => "FUNCTION"
  | .returnKeyword => "RETURN"
  | .ifKeyword => "IF"
  | .elifKeyword => "ELIF"
  | .elseKeyword => "ELSE"
  | .andKeyword => "AND"
  | .orKeyword => "OR"
  | .newline => "NEWLINE"
  | .endOfInput => "EOF"

/-- The kind of a given name. -/
def ofName? (name : String) : Option TokenKind :=
  all.find? fun kind => kind.name == name

/-- The spelling of an operator or a delimiter. -/
def symbol? : TokenKind → Option String
  | .plus => some "+"
  | .dash => some "-"
  | .star => some "*"
  | .slash => some "/"
  | .leftParen => some "("
  | .rightParen => some ")"
  | .leftBrace => some "\x7b"
  | .rightBrace => some "\x7d"
  | .equal => some "="
  | .equalEqual => some "=="
  | .bangEqual => some "!="
  | .greater => some ">"
  | .greaterEqual => some ">="
  | .less => some "<"
  | .lessEqual => some "<="
  | .dot => some "."
  | .comma => some ","
  | _ => none

/-- The spelling of a reserved word. -/
def keyword? : TokenKind → Option String
  | .notKeyword => some "not"
  | .trueKeyword => some "true"
  | .falseKeyword => some "false"
  | .varKeyword => some "var"
  | .constKeyword => some "const"
  | .whileKeyword => some "while"
  | .continueKeyword => some "continue"
  | .breakKeyword => some "break"
  | .functionKeyword => some "function"
  | .returnKeyword => some "return"
  | .ifKeyword => some "if"
  | .elifKeyword => some "elif"
  | .elseKeyword => some "else"
  | .andKeyword => some "and"
  | .orKeyword => some "or"
  | _ => none

/-- Whether tokens of a kind are reserved words. -/
def isKeyword (kind : TokenKind) : Bool :=
  kind.keyword?.isSome

/-- The kind of a word: a reserved word if it is spelled like one, and an
identifier otherwise. -/
def ofWord (word : String) : TokenKind :=
  (all.find? fun kind => kind.keyword? == some word).getD .identifier

end TokenKind

/-- One word of a program. -/
structure Token where
  /-- What kind of word it is. -/
  kind : TokenKind
  /-- How it is spelled; a string literal without its quotes. -/
  lexeme : String
  /-- Where it stands. -/
  span : Span
  deriving Repr, DecidableEq, Inhabited

namespace Token

/-- How a token is shown in a listing of tokens. -/
def display (token : Token) : String :=
  match token.kind with
  | .int | .float | .identifier =>
      "(" ++ token.kind.name ++ ": " ++ token.lexeme ++ ")"
  | .string =>
      "(" ++ token.kind.name ++ ": \"" ++ token.lexeme ++ "\")"
  | .newline | .endOfInput =>
      "(" ++ token.kind.name ++ ")"
  | kind =>
      match kind.symbol? with
      | some symbol => symbol
      | none => "(KEYWORD: " ++ token.lexeme ++ ")"

/-- The token that closes a list of tokens, with the empty spelling. -/
def endOfInput (span : Span) : Token :=
  ⟨.endOfInput, "", span⟩

end Token

end Scriptlet
