namespace Scriptlet

/-!
# Kinds of errors

Every error has a kind, whose text opens its report, and every kind belongs to
the stage of a run that raises it.
-/

/-- The stage of a run that an error is raised in. -/
inductive ErrorFamily where
  /-- Cutting the text into tokens. -/
  | lexical
  /-- Reading the tokens as statements. -/
  | syntactic
  /-- Running the statements. -/
  | runtime
  deriving Repr, DecidableEq, Inhabited

/-- The kinds of errors. -/
inductive ErrorKind where
  | illegalCharacter
  | trailingDot
  | multipleDots
  | unterminatedInlineComment
  | unterminatedString
  | expectedToken
  | invalidTokenType
  | tooBigValue
  | breakOutsideOfLoop
  | continueOutsideOfLoop
  | returnOutsideOfFunction
  | invalidOpToken
  | value
  | divisionByZero
  | variableAlreadyDeclared
  | undefinedVariable
  | constantVariableAssignment
  | invalidAttribute
  | unableToAssignAttribute
  | invalidCall
  | argument
  deriving Repr, DecidableEq, Inhabited

namespace ErrorKind

/-- Every kind, in the order of declaration. -/
def all : List ErrorKind :=
  [.illegalCharacter, .trailingDot, .multipleDots, .unterminatedInlineComment,
    .unterminatedString, .expectedToken, .invalidTokenType, .tooBigValue,
    .breakOutsideOfLoop, .continueOutsideOfLoop, .returnOutsideOfFunction,
    .invalidOpToken, .value, .divisionByZero, .variableAlreadyDeclared,
    .undefinedVariable, .constantVariableAssignment, .invalidAttribute,
    .unableToAssignAttribute, .invalidCall, .argument]

/-- The family of a kind. -/
def family : ErrorKind → ErrorFamily
  | .illegalCharacter | .trailingDot | .multipleDots
  | .unterminatedInlineComment | .unterminatedString =>
      .lexical
  | .expectedToken | .invalidTokenType | .tooBigValue | .breakOutsideOfLoop
  | .continueOutsideOfLoop | .returnOutsideOfFunction =>
      .syntactic
  | .invalidOpToken | .value | .divisionByZero | .variableAlreadyDeclared
  | .undefinedVariable | .constantVariableAssignment | .invalidAttribute
  | .unableToAssignAttribute | .invalidCall | .argument =>
      .runtime

/-- The text of a kind, as reports show it. -/
def display : ErrorKind → String
  | .illegalCharacter => "Illegal character error"
  | .trailingDot => "Trailing dot error"
  | .multipleDots => "Multiple dots error"
  | .unterminatedInlineComment => "Unterminated inline comment error"
  | .unterminatedString => "Unterminated string error"
  | .expectedToken => "Expected token error"
  | .invalidTokenType => "Invalid token type error"
  | .tooBigValue => "Too big value error"
  | .breakOutsideOfLoop => "Break outside of loop error"
  | .continueOutsideOfLoop => "Continue outside of loop error"
  | .returnOutsideOfFunction => "Return outside of function error"
  | .invalidOpToken => "Invalid op token error"
  | .value => "Value error"
  | .divisionByZero => "Division by zero error"
  | .variableAlreadyDeclared => "Variable already declared error"
  | .undefinedVariable => "Undefined variable error"
  | .constantVariableAssignment => "Constant variable assignment error"
  | .invalidAttribute => "Invalid attribute error"
  | .unableToAssignAttribute => "Unable to assign attribute error"
  | .invalidCall => "Invalid call error"
  | .argument => "Argument error"

/-- The kind with a given text. -/
def ofDisplay? (text : String) : Option ErrorKind :=
  all.find? fun kind => kind.display == text

end ErrorKind

end Scriptlet
