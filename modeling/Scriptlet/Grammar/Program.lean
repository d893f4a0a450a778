import Scriptlet.Decimal.Read
import Scriptlet.Grammar.Level
import Scriptlet.Grammar.Parser
import Scriptlet.Tree.Statement

namespace Scriptlet

/-!
# The grammar of programs

Statements are separated by line breaks; the last one of a block may be closed by
the brace instead, and the last one of a program by the end of the input.

* program: declarations up to the end of the input
* declaration: `var` or `const`, a name, `=` and an expression; or `function`, a
  name, names in parentheses and a block; or a statement
* statement: a block in braces; `while`, an expression and a statement; `if`, an
  expression and a statement, further `elif` branches and an `else` branch;
  `break`; `continue`; `return` with or without an expression; or an expression
* expression: an assignment, or operators between operands by their levels

Every function takes the number of steps it may use; `Program.parse` computes it
from the number of tokens.
-/

/-- What is open around the tokens that are read. -/
structure Surroundings where
  /-- A block whose brace may close the statement. -/
  inBlock : Bool
  /-- A loop that can be left. -/
  inLoop : Bool
  /-- A function that can be left. -/
  inFunction : Bool
  deriving Repr, DecidableEq, Inhabited

namespace Surroundings

/-- Nothing is open around a program. -/
def outermost : Surroundings :=
  ⟨false, false, false⟩

/-- Inside the braces of a block. -/
def insideBlock (surroundings : Surroundings) : Surroundings :=
  { surroundings with inBlock := true }

/-- Inside the body of a loop. -/
def insideLoop (surroundings : Surroundings) : Surroundings :=
  { surroundings with inLoop := true }

/-- Inside the body of a function; a loop around the function does not reach
into it. -/
def insideFunction (surroundings : Surroundings) : Surroundings :=
  { surroundings with inLoop := false, inFunction := true }

/-- Whether a token of the given kind closes a statement without being part of
it. -/
def closedBy (surroundings : Surroundings) : TokenKind → Bool
  | .newline | .endOfInput => true
  | .rightBrace => surroundings.inBlock
  | _ => false

/-- Whether a token of the given kind closes a list of statements. -/
def endedBy (surroundings : Surroundings) : TokenKind → Bool
  | .endOfInput => true
  | .rightBrace => surroundings.inBlock
  | _ => false

end Surroundings

namespace Parser

/-! ## Parts that need no recursion -/

/-- The literal that a token spells, or the fault if its number is too big. -/
def literal (token : Token) (value? : Option Literal) :
    Except SyntaxFault Expression :=
  match value? with
  | some value => .ok (.literal value token.span)
  | none => .error (.tooBigValue token.kind)

/-- The expression that a token is on its own: a literal or a name. -/
def atom (token : Token) : Except SyntaxFault Expression :=
  match token.kind with
  | .int => literal token ((readInt? token.lexeme).map .int)
  | .float => literal token ((readFloat? token.lexeme).map .float)
  | .trueKeyword => .ok (.literal (.bool true) token.span)
  | .falseKeyword => .ok (.literal (.bool false) token.span)
  | .identifier => .ok (.reference token.lexeme token.span)
  | kind => .error (.invalidToken kind)

/-- What was found at a token, or the fault there. -/
def foundAt (token : Token) (found : Except SyntaxFault α) : Parser α :=
  match found with
  | .ok value => pure value
  | .error fault => refuse fault token

/-- The end of a statement: a line break, which is consumed, or a token that
closes the statement. -/
def terminate (surroundings : Surroundings) : Parser Unit := do
  let token ← peek
  if token.kind = .newline then
    let _ ← advance
    pure ()
  else if surroundings.closedBy token.kind then
    pure ()
  else
    refuse (.expectedToken .newline token.kind) token

/-- A statement that is only allowed in some surroundings. -/
def allowed
    (condition : Bool)
    (fault : SyntaxFault)
    (token : Token) :
    Parser Unit :=
  if condition then pure () else refuse fault token

/-- Names with commas between them, at least one. -/
def parameterNames : Parser (List String)
  | stop, tokens =>
      match tokens with
      | [] => .refused (.expectedToken .identifier stop.kind) stop
      | name :: rest =>
          if name.kind = .identifier then
            match rest with
            | [] => .done [name.lexeme] []
            | separator :: later =>
                if separator.kind = .comma then
                  (parameterNames stop later).andThen fun names final =>
                    .done (name.lexeme :: names) final
                else
                  .done [name.lexeme] (separator :: later)
          else
            .refused (.expectedToken .identifier name.kind) name
termination_by structural _ tokens => tokens

/-- The names in the parentheses of a function. -/
def parameters : Parser (List String) := do
  let _ ← expect .leftParen
  if (← peekKind) = .rightParen then
    let _ ← advance
    pure []
  else
    let names ← parameterNames
    let _ ← expect .rightParen
    pure names

/-! ## Expressions -/

mutual

/-- An expression. -/
def expression : Nat → Parser Expression
  | 0 => exhausted
  | fuel + 1 => do
      let target ← operation fuel 1
      if (← peekKind) = .equal then
        match target with
        | .reference name span =>
            let _ ← advance
            let value ← expression fuel
            pure (.ofAssign name span value)
        | .getAttribute object name span =>
            let _ ← advance
            let value ← expression fuel
            pure (.ofSetAttribute object name span value)
        | _ => pure target
      else
        pure target

/-- Operands with operators of at least the given level between them. -/
def operation : Nat → Nat → Parser Expression
  | 0, _ => exhausted
  | fuel + 1, level =>
      if level < unaryLevel then do
        let first ← operation fuel (level + 1)
        operationTail fuel level first
      else
        unary fuel

/-- What has been read of an operation, extended by the operators of its
level. -/
def operationTail : Nat → Nat → Expression → Parser Expression
  | 0, _, _ => exhausted
  | fuel + 1, level, left => do
      if (← peekKind).level? = some level then
        let operator ← advance
        let right ← operation fuel (level + 1)
        operationTail fuel level (left.combine operator right)
      else
        pure left

/-- Signs and negations before a call. -/
def unary : Nat → Parser Expression
  | 0 => exhausted
  | fuel + 1 => do
      if (← peekKind).isUnary then
        let operator ← advance
        let operand ← unary fuel
        pure (.ofUnary operator operand)
      else
        let callee ← primary fuel
        callTail fuel callee

/-- What has been read of a call, extended by attributes and arguments. -/
def callTail : Nat → Expression → Parser Expression
  | 0, _ => exhausted
  | fuel + 1, callee => do
      if ← accept .dot then
        let name ← expect .identifier
        callTail fuel (.ofGetAttribute callee name.lexeme name.span)
      else if ← accept .leftParen then
        let given ← arguments fuel
        let closing ← expect .rightParen
        callTail fuel (.ofCall callee given closing.span)
      else
        pure callee

/-- The arguments of a call, up to the closing parenthesis. -/
def arguments : Nat → Parser (List Expression)
  | 0 => exhausted
  | fuel + 1 => do
      if (← peekKind) = .rightParen then
        pure []
      else
        argumentList fuel

/-- Expressions with commas between them, at least one. -/
def argumentList : Nat → Parser (List Expression)
  | 0 => exhausted
  | fuel + 1 => do
      let first ← expression fuel
      if ← accept .comma then
        let rest ← argumentList fuel
        pure (first :: rest)
      else
        pure [first]

/-- What stands for itself: a single token, or an expression in parentheses. -/
def primary : Nat → Parser Expression
  | 0 => exhausted
  | fuel + 1 => do
      let token ← advance
      if token.kind = .leftParen then
        let inner ← expression fuel
        let closing ← expect .rightParen
        pure (.ofGrouping token.span inner closing.span)
      else
        foundAt token (atom token)

end

/-! ## Statements -/

/-- A variable or a constant, from its keyword on. -/
def variableDeclaration (fuel : Nat) : Parser Statement := do
  let keyword ← advance
  let name ← expect .identifier
  let _ ← expect .equal
  let initializer ← expression fuel
  pure
    (.declaration (keyword.kind = .constKeyword) name.lexeme initializer
      (keyword.span.through initializer.span))

/-- A return statement, from its keyword on. -/
def returnStatement (fuel : Nat) (surroundings : Surroundings) :
    Parser Statement := do
  let keyword ← advance
  allowed surroundings.inFunction .returnOutsideFunction keyword
  if surroundings.closedBy (← peekKind) then
    pure (.returnValue none keyword.span)
  else
    let value ← expression fuel
    pure (.returnValue (some value) (keyword.span.through value.span))

/-- The statement that the last branch of a conditional runs. -/
def lastBranch
    (first : Statement)
    (others : List (Expression × Statement))
    (otherwise : Option Statement) :
    Statement :=
  match otherwise with
  | some body => body
  | none =>
      match others.getLast? with
      | some (_, body) => body
      | none => first

mutual

/-- A declaration or any other statement. -/
def declaration : Nat → Surroundings → Parser Statement
  | 0, _ => exhausted
  | fuel + 1, surroundings => do
      let kind ← peekKind
      if kind = .varKeyword ∨ kind = .constKeyword then
        variableDeclaration fuel
      else if kind = .functionKeyword then
        let keyword ← advance
        let name ← expect .identifier
        let names ← parameters
        let body ← block fuel surroundings.insideFunction
        pure
          (.function name.lexeme names body.1 (keyword.span.through body.2))
      else
        statement fuel surroundings

/-- A statement that declares nothing. -/
def statement : Nat → Surroundings → Parser Statement
  | 0, _ => exhausted
  | fuel + 1, surroundings => do
      let kind ← peekKind
      if kind = .leftBrace then
        let body ← block fuel surroundings
        pure (.block body.1 body.2)
      else if kind = .whileKeyword then
        let keyword ← advance
        let condition ← expression fuel
        let body ← statement fuel surroundings.insideLoop
        pure (.whileLoop condition body (keyword.span.through body.span))
      else if kind = .ifKeyword then
        let keyword ← advance
        let condition ← expression fuel
        let body ← statement fuel surroundings
        let more ← branches fuel surroundings
        pure
          (.conditional ((condition, body) :: more.1) more.2
            (keyword.span.through (lastBranch body more.1 more.2).span))
      else if kind = .breakKeyword then
        let keyword ← advance
        allowed surroundings.inLoop .breakOutsideLoop keyword
        pure (.breakLoop keyword.span)
      else if kind = .continueKeyword then
        let keyword ← advance
        allowed surroundings.inLoop .continueOutsideLoop keyword
        pure (.continueLoop keyword.span)
      else if kind = .returnKeyword then
        returnStatement fuel surroundings
      else
        let inner ← expression fuel
        pure (.expression inner)

/-- The further branches of a conditional; each may also start the next line. -/
def branches :
    Nat →
    Surroundings →
    Parser (List (Expression × Statement) × Option Statement)
  | 0, _ => exhausted
  | fuel + 1, surroundings => do
      skipNewlineBeforeBranch
      if ← accept .elifKeyword then
        let condition ← expression fuel
        let body ← statement fuel surroundings
        let more ← branches fuel surroundings
        pure ((condition, body) :: more.1, more.2)
      else if ← accept .elseKeyword then
        let body ← statement fuel surroundings
        pure ([], some body)
      else
        pure ([], none)

/-- Statements in braces, and the stretch from brace to brace. -/
def block : Nat → Surroundings → Parser (List Statement × Span)
  | 0, _ => exhausted
  | fuel + 1, surroundings => do
      let opening ← expect .leftBrace
      let body ← statements fuel surroundings.insideBlock
      let closing ← expect .rightBrace
      pure (body, opening.span.through closing.span)

/-- Statements up to the end of their block or of the input. -/
def statements : Nat → Surroundings → Parser (List Statement)
  | 0, _ => exhausted
  | fuel + 1, surroundings => do
      skipNewlines
      if surroundings.endedBy (← peekKind) then
        pure []
      else
        let first ← declaration fuel surroundings
        terminate surroundings
        let rest ← statements fuel surroundings
        pure (first :: rest)

end

end Parser

end Scriptlet
