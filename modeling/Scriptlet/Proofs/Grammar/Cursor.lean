import Scriptlet.Grammar.Program

namespace Scriptlet

/-!
# Reading by places

A list of tokens can be read as it is, from its first token to its last, with a number that
says which token comes next.  Tokens are looked up by their places, and a lookup outside of
the list is a failure of its own.  All places that are looked at or moved to are noted down,
in the order of time and whatever becomes of the reading.

The grammar is that of reading from the front of a list, one function for another.
-/

namespace Cursor

/-- How reading by places ends. -/
inductive Ending (α : Type) where
  /-- A value was read, and this is the place of the next token. -/
  | done (value : α) (current : Nat)
  /-- The tokens cannot go on like this from the given token on. -/
  | refused (fault : SyntaxFault) (token : Token)
  /-- The allowed number of steps is used up. -/
  | exhausted
  /-- A token was looked up outside of the list. -/
  | outOfBounds

/-- How reading came to its end, and all places on the way. -/
structure Reading (α : Type) where
  ending : Ending α
  places : List Nat

end Cursor

/-- A way of reading by places, given all tokens and the place of the next one. -/
abbrev Cursor (α : Type) :=
  List Token → Nat → Cursor.Reading α

namespace Cursor

/-- Going on behind what was read. -/
def Reading.andThen (first : Reading α) (next : α → Nat → Reading β) : Reading β :=
  match first.ending with
  | .done value current =>
      ⟨(next value current).ending, first.places ++ (next value current).places⟩
  | .refused fault token => ⟨.refused fault token, first.places⟩
  | .exhausted => ⟨.exhausted, first.places⟩
  | .outOfBounds => ⟨.outOfBounds, first.places⟩

instance : Monad Cursor where
  pure value := fun _ current => ⟨.done value current, []⟩
  bind first next := fun tokens current =>
    (first tokens current).andThen fun value reached => next value tokens reached

@[simp] theorem pure_apply (value : α) (tokens : List Token) (current : Nat) :
    (pure value : Cursor α) tokens current = ⟨.done value current, []⟩ :=
  rfl

@[simp] theorem bind_apply
    (first : Cursor α)
    (next : α → Cursor β)
    (tokens : List Token)
    (current : Nat) :
    (first >>= next) tokens current =
      (first tokens current).andThen fun value reached => next value tokens reached :=
  rfl

@[simp] theorem done_andThen
    (value : α)
    (current : Nat)
    (places : List Nat)
    (next : α → Nat → Reading β) :
    (⟨.done value current, places⟩ : Reading α).andThen next =
      ⟨(next value current).ending, places ++ (next value current).places⟩ :=
  rfl

/-- Using up the allowed steps. -/
def exhausted : Cursor α :=
  fun _ _ => ⟨.exhausted, []⟩

/-- A fault at a token. -/
def refuse (fault : SyntaxFault) (token : Token) : Cursor α :=
  fun _ _ => ⟨.refused fault token, []⟩

/-- The next token, which stays where it is. -/
def peek : Cursor Token :=
  fun tokens current =>
    match tokens[current]? with
    | some token => ⟨.done token current, [current]⟩
    | none => ⟨.outOfBounds, [current]⟩

/-- The kind of the next token, which stays where it is. -/
def peekKind : Cursor TokenKind := do
  let token ← peek
  pure token.kind

/-- The token behind the next one, or the next one again if it is the last of the list. -/
def peekNext : Cursor Token :=
  fun tokens current =>
    match tokens[current + 1]? with
    | some token => ⟨.done token current, [current + 1]⟩
    | none => ⟨(peek tokens current).ending, [current + 1, current]⟩

/-- Moves to the place behind. -/
def move : Cursor Unit :=
  fun _ current => ⟨.done () (current + 1), [current + 1]⟩

/-- The next token, which is consumed unless it is the end of the input. -/
def advance : Cursor Token := do
  let token ← peek
  if token.kind = .endOfInput then
    pure token
  else
    move
    pure token

/-- A token of the given kind, which is consumed; any other is a fault. -/
def expect (expected : TokenKind) : Cursor Token := do
  let found ← peek
  if found.kind = expected then
    advance
  else
    refuse (.expectedToken expected found.kind) found

/-- Whether the next token is of the given kind; if so it is consumed. -/
def accept (expected : TokenKind) : Cursor Bool := do
  if (← peekKind) = expected then
    let _ ← advance
    pure true
  else
    pure false

/-- Skips line breaks, in a number of rounds. -/
def skipNewlinesUpTo : Nat → Cursor Unit
  | 0 => exhausted
  | rounds + 1 => do
      if ← accept .newline then
        skipNewlinesUpTo rounds
      else
        pure ()

/-- Skips line breaks; there are as many rounds as there are tokens. -/
def skipNewlines : Cursor Unit :=
  fun tokens => skipNewlinesUpTo tokens.length tokens

/-- Skips a single line break in front of a further branch of a conditional. -/
def skipNewlineBeforeBranch : Cursor Unit := do
  if (← peekKind) = .newline then
    let next ← peekNext
    if next.kind = .elifKeyword ∨ next.kind = .elseKeyword then
      let _ ← advance
      pure ()
    else
      pure ()
  else
    pure ()

/-! ## Parts that need no recursion -/

/-- What was found at a token, or the fault there. -/
def foundAt (token : Token) (found : Except SyntaxFault α) : Cursor α :=
  match found with
  | .ok value => pure value
  | .error fault => refuse fault token

/-- The end of a statement: a line break, which is consumed, or a token that closes the
statement. -/
def terminate (surroundings : Surroundings) : Cursor Unit := do
  let token ← peek
  if token.kind = .newline then
    let _ ← advance
    pure ()
  else if surroundings.closedBy token.kind then
    pure ()
  else
    refuse (.expectedToken .newline token.kind) token

/-- A statement that is only allowed in some surroundings. -/
def allowed
    (condition : Bool)
    (fault : SyntaxFault)
    (token : Token) :
    Cursor Unit :=
  if condition then pure () else refuse fault token

/-- Names with commas between them, at least one, in a number of rounds. -/
def parameterNamesUpTo : Nat → Cursor (List String)
  | 0 => exhausted
  | rounds + 1 => do
      let name ← expect .identifier
      if ← accept .comma then
        let names ← parameterNamesUpTo rounds
        pure (name.lexeme :: names)
      else
        pure [name.lexeme]

/-- Names with commas between them; there are as many rounds as there are tokens. -/
def parameterNames : Cursor (List String) :=
  fun tokens => parameterNamesUpTo tokens.length tokens

/-- The names in the parentheses of a function. -/
def parameters : Cursor (List String) := do
  let _ ← expect .leftParen
  if (← peekKind) = .rightParen then
    let _ ← advance
    pure []
  else
    let names ← parameterNames
    let _ ← expect .rightParen
    pure names

/-! ## Expressions -/

mutual

/-- An expression. -/
def expression : Nat → Cursor Expression
  | 0 => exhausted
  | fuel + 1 => do
      let target ← operation fuel 1
      if (← peekKind) = .equal then
        match target with
        | .reference name span =>
            let _ ← advance
            let value ← expression fuel
            pure (.ofAssign name span value)
        | .getAttribute object name span =>
            let _ ← advance
            let value ← expression fuel
            pure (.ofSetAttribute object name span value)
        | _ => pure target
      else
        pure target

/-- Operands with operators of at least the given level between them. -/
def operation : Nat → Nat → Cursor Expression
  | 0, _ => exhausted
  | fuel + 1, level =>
      if level < unaryLevel then do
        let first ← operation fuel (level + 1)
        operationTail fuel level first
      else
        unary fuel

/-- What has been read of an operation, extended by the operators of its level. -/
def operationTail : Nat → Nat → Expression → Cursor Expression
  | 0, _, _ => exhausted
  | fuel + 1, level, left => do
      if (← peekKind).level? = some level then
        let operator ← advance
        let right ← operation fuel (level + 1)
        operationTail fuel level (left.combine operator right)
      else
        pure left

/-- Signs and negations before a call. -/
def unary : Nat → Cursor Expression
  | 0 => exhausted
  | fuel + 1 => do
      if (← peekKind).isUnary then
        let operator ← advance
        let operand ← unary fuel
        pure (.ofUnary operator operand)
      else
        let callee ← primary fuel
        callTail fuel callee

/-- What has been read of a call, extended by attributes and arguments. -/
def callTail : Nat → Expression → Cursor Expression
  | 0, _ => exhausted
  | fuel + 1, callee => do
      if ← accept .dot then
        let name ← expect .identifier
        callTail fuel (.ofGetAttribute callee name.lexeme name.span)
      else if ← accept .leftParen then
        let given ← arguments fuel
        let closing ← expect .rightParen
        callTail fuel (.ofCall callee given closing.span)
      else
        pure callee

/-- The arguments of a call, up to the closing parenthesis. -/
def arguments : Nat → Cursor (List Expression)
  | 0 => exhausted
  | fuel + 1 => do
      if (← peekKind) = .rightParen then
        pure []
      else
        argumentList fuel

/-- Expressions with commas between them, at least one. -/
def argumentList : Nat → Cursor (List Expression)
  | 0 => exhausted
  | fuel + 1 => do
      let first ← expression fuel
      if ← accept .comma then
        let rest ← argumentList fuel
        pure (first :: rest)
      else
        pure [first]

/-- What stands for itself: a single token, or an expression in parentheses. -/
def primary : Nat → Cursor Expression
  | 0 => exhausted
  | fuel + 1 => do
      let token ← advance
      if token.kind = .leftParen then
        let inner ← expression fuel
        let closing ← expect .rightParen
        pure (.ofGrouping token.span inner closing.span)
      else
        foundAt token (Parser.atom token)

end

/-! ## Statements -/

/-- A variable or a constant, from its keyword on. -/
def variableDeclaration (fuel : Nat) : Cursor Statement := do
  let keyword ← advance
  let name ← expect .identifier
  let _ ← expect .equal
  let initializer ← expression fuel
  pure
    (.declaration (keyword.kind = .constKeyword) name.lexeme initializer
      (keyword.span.through initializer.span))

/-- A return statement, from its keyword on. -/
def returnStatement (fuel : Nat) (surroundings : Surroundings) : Cursor Statement := do
  let keyword ← advance
  allowed surroundings.inFunction .returnOutsideFunction keyword
  if surroundings.closedBy (← peekKind) then
    pure (.returnValue none keyword.span)
  else
    let value ← expression fuel
    pure (.returnValue (some value) (keyword.span.through value.span))

mutual

/-- A declaration or any other statement. -/
def declaration : Nat → Surroundings → Cursor Statement
  | 0, _ => exhausted
  | fuel + 1, surroundings => do
      let kind ← peekKind
      if kind = .varKeyword ∨ kind = .constKeyword then
        variableDeclaration fuel
      else if kind = .functionKeyword then
        let keyword ← advance
        let name ← expect .identifier
        let names ← parameters
        let body ← block fuel surroundings.insideFunction
        pure
          (.function name.lexeme names body.1 (keyword.span.through body.2))
      else
        statement fuel surroundings

/-- A statement that declares nothing. -/
def statement : Nat → Surroundings → Cursor Statement
  | 0, _ => exhausted
  | fuel + 1, surroundings => do
      let kind ← peekKind
      if kind = .leftBrace then
        let body ← block fuel surroundings
        pure (.block body.1 body.2)
      else if kind = .whileKeyword then
        let keyword ← advance
        let condition ← expression fuel
        let body ← statement fuel surroundings.insideLoop
        pure (.whileLoop condition body (keyword.span.through body.span))
      else if kind = .ifKeyword then
        let keyword ← advance
        let condition ← expression fuel
        let body ← statement fuel surroundings
        let more ← branches fuel surroundings
        pure
          (.conditional ((condition, body) :: more.1) more.2
            (keyword.span.through (Parser.lastBranch body more.1 more.2).span))
      else if kind = .breakKeyword then
        let keyword ← advance
        allowed surroundings.inLoop .breakOutsideLoop keyword
        pure (.breakLoop keyword.span)
      else if kind = .continueKeyword then
        let keyword ← advance
        allowed surroundings.inLoop .continueOutsideLoop keyword
        pure (.continueLoop keyword.span)
      else if kind = .returnKeyword then
        returnStatement fuel surroundings
      else
        let inner ← expression fuel
        pure (.expression inner)

/-- The further branches of a conditional; each may also start the next line. -/
def branches :
    Nat →
    Surroundings →
    Cursor (List (Expression × Statement) × Option Statement)
  | 0, _ => exhausted
  | fuel + 1, surroundings => do
      skipNewlineBeforeBranch
      if ← accept .elifKeyword then
        let condition ← expression fuel
        let body ← statement fuel surroundings
        let more ← branches fuel surroundings
        pure ((condition, body) :: more.1, more.2)
      else if ← accept .elseKeyword then
        let body ← statement fuel surroundings
        pure ([], some body)
      else
        pure ([], none)

/-- Statements in braces, and the stretch from brace to brace. -/
def block : Nat → Surroundings → Cursor (List Statement × Span)
  | 0, _ => exhausted
  | fuel + 1, surroundings => do
      let opening ← expect .leftBrace
      let body ← statements fuel surroundings.insideBlock
      let closing ← expect .rightBrace
      pure (body, opening.span.through closing.span)

/-- Statements up to the end of their block or of the input. -/
def statements : Nat → Surroundings → Cursor (List Statement)
  | 0, _ => exhausted
  | fuel + 1, surroundings => do
      skipNewlines
      if surroundings.endedBy (← peekKind) then
        pure []
      else
        let first ← declaration fuel surroundings
        terminate surroundings
        let rest ← statements fuel surroundings
        pure (first :: rest)

end

end Cursor

end Scriptlet
