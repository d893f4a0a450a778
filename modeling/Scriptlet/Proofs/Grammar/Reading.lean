import Scriptlet.Grammar.Program

namespace Scriptlet

/-!
# Readings

The grammar as a set of rules, without steps and without faults: a rule says that
a part of a program is read from tokens, and which tokens are left behind it.
Every rule looks at the tokens it consumes and at most at the kind of the token
behind them.

The later modules reason by induction on readings.  That tokens are accepted as a
program exactly if the program can be read from them is the matter of
`Proofs.Grammar.AcceptedPrograms`.
-/

/-- The kind of the next token, or that of the end of the input if no token is
left. -/
def nextKind : List Token → TokenKind
  | [] => .endOfInput
  | token :: _ => token.kind

@[simp] theorem nextKind_nil :
    nextKind [] = .endOfInput :=
  rfl

@[simp] theorem nextKind_cons (token : Token) (rest : List Token) :
    nextKind (token :: rest) = token.kind :=
  rfl

/-- The tokens behind the line breaks at the front. -/
def skipBreaks (tokens : List Token) : List Token :=
  tokens.dropWhile fun token => token.kind = .newline

/-- The tokens without the line break that may stand in front of a further branch
of a conditional. -/
def skipBranchBreak : List Token → List Token
  | first :: second :: rest =>
      if first.kind = .newline ∧
          (second.kind = .elifKeyword ∨ second.kind = .elseKeyword) then
        second :: rest
      else
        first :: second :: rest
  | tokens => tokens

theorem skipBranchBreak_cons_of_ne
    {token : Token}
    (notBreak : token.kind ≠ .newline)
    (rest : List Token) :
    skipBranchBreak (token :: rest) = token :: rest := by
  cases rest <;> simp [skipBranchBreak, notBreak]

theorem skipBreaks_of_ne
    {tokens : List Token}
    (notBreak : nextKind tokens ≠ .newline) :
    skipBreaks tokens = tokens := by
  cases tokens with
  | nil => rfl
  | cons token rest =>
      exact List.dropWhile_cons_of_neg (by simpa using notBreak)

theorem skipBreaks_cons_of_ne
    {token : Token}
    (notBreak : token.kind ≠ .newline)
    (rest : List Token) :
    skipBreaks (token :: rest) = token :: rest :=
  skipBreaks_of_ne notBreak

theorem skipBreaks_cons_of_eq
    {token : Token}
    (isBreak : token.kind = .newline)
    (rest : List Token) :
    skipBreaks (token :: rest) = skipBreaks rest :=
  List.dropWhile_cons_of_pos (by simpa using isBreak)

theorem nextKind_skipBreaks_ne (tokens : List Token) :
    nextKind (skipBreaks tokens) ≠ .newline := by
  induction tokens with
  | nil => exact nofun
  | cons token rest inductionHypothesis =>
      by_cases isBreak : token.kind = .newline
      · rw [skipBreaks_cons_of_eq isBreak]
        exact inductionHypothesis
      · rw [skipBreaks_cons_of_ne isBreak]
        exact isBreak

/-- Whether tokens start with a line break that no further branch follows. -/
def EndsLine : List Token → Prop
  | [] => False
  | token :: later =>
      token.kind = .newline ∧ nextKind later ≠ .elifKeyword ∧
        nextKind later ≠ .elseKeyword

namespace EndsLine

theorem nextKind_eq
    {rest : List Token}
    (ends : EndsLine rest) :
    nextKind rest = .newline := by
  cases rest with
  | nil => exact ends.elim
  | cons token later => exact ends.1

theorem skipBranchBreak_eq
    {rest : List Token}
    (ends : EndsLine rest) :
    skipBranchBreak rest = rest := by
  cases rest with
  | nil => rfl
  | cons first later =>
      obtain ⟨_, notElif, notElse⟩ := ends
      cases later with
      | nil => rfl
      | cons second later =>
          rw [nextKind_cons] at notElif notElse
          simp [skipBranchBreak, notElif, notElse]

end EndsLine

/-- Whether an equals sign behind the expression makes it an assignment. -/
def Expression.isTarget : Expression → Bool
  | .reference _ _ => true
  | .getAttribute _ _ _ => true
  | _ => false

/-! ## Expressions -/

/-- What the rules for expressions read.  The tails extend what has been read
before them. -/
inductive ExpressionPart where
  | expression (result : Expression)
  | operation (level : Nat) (result : Expression)
  | operationTail (level : Nat) (left result : Expression)
  | unary (result : Expression)
  | callTail (callee result : Expression)
  | arguments (results : List Expression)
  | argumentList (results : List Expression)
  | primary (result : Expression)

/-- The rules for expressions: a part, the tokens it is read from and the tokens
that are left. -/
inductive ExpressionPart.ReadFrom :
    ExpressionPart → List Token → List Token → Prop where
  /-- An equals sign behind anything but a target is left for others. -/
  | plain
      (target : ReadFrom (.operation 1 result) tokens rest)
      (notAssigned : nextKind rest = .equal → result.isTarget = false) :
      ReadFrom (.expression result) tokens rest
  | assign
      (target : ReadFrom (.operation 1 (.reference name span)) tokens
        (equals :: later))
      (isEqual : equals.kind = .equal)
      (assigned : ReadFrom (.expression value) later rest) :
      ReadFrom (.expression (.ofAssign name span value)) tokens rest
  | setAttribute
      (target : ReadFrom (.operation 1 (.getAttribute object name span)) tokens
        (equals :: later))
      (isEqual : equals.kind = .equal)
      (assigned : ReadFrom (.expression value) later rest) :
      ReadFrom (.expression (.ofSetAttribute object name span value)) tokens rest
  | operands
      (isBinary : level < unaryLevel)
      (first : ReadFrom (.operation (level + 1) left) tokens later)
      (tail : ReadFrom (.operationTail level left result) later rest) :
      ReadFrom (.operation level result) tokens rest
  | operand
      (notBinary : ¬ level < unaryLevel)
      (operand : ReadFrom (.unary result) tokens rest) :
      ReadFrom (.operation level result) tokens rest
  | noOperator
      (otherLevel : (nextKind tokens).level? ≠ some level) :
      ReadFrom (.operationTail level left left) tokens tokens
  | operator
      (hasLevel : operator.kind.level? = some level)
      (second : ReadFrom (.operation (level + 1) right) tokens later)
      (tail : ReadFrom (.operationTail level (left.combine operator right) result)
        later rest) :
      ReadFrom (.operationTail level left result) (operator :: tokens) rest
  | sign
      (isUnary : operator.kind.isUnary = true)
      (operand : ReadFrom (.unary value) tokens rest) :
      ReadFrom (.unary (.ofUnary operator value)) (operator :: tokens) rest
  | noSign
      (notUnary : (nextKind tokens).isUnary = false)
      (first : ReadFrom (.primary callee) tokens later)
      (tail : ReadFrom (.callTail callee result) later rest) :
      ReadFrom (.unary result) tokens rest
  | noCall
      (notDot : nextKind tokens ≠ .dot)
      (notParen : nextKind tokens ≠ .leftParen) :
      ReadFrom (.callTail callee callee) tokens tokens
  | getAttribute
      (isDot : dot.kind = .dot)
      (isName : name.kind = .identifier)
      (tail : ReadFrom
        (.callTail (.ofGetAttribute callee name.lexeme name.span) result)
        tokens rest) :
      ReadFrom (.callTail callee result) (dot :: name :: tokens) rest
  | call
      (isOpening : opening.kind = .leftParen)
      (arguments : ReadFrom (.arguments given) tokens (closing :: later))
      (isClosing : closing.kind = .rightParen)
      (tail : ReadFrom (.callTail (.ofCall callee given closing.span) result)
        later rest) :
      ReadFrom (.callTail callee result) (opening :: tokens) rest
  | noArguments
      (atClosing : nextKind tokens = .rightParen) :
      ReadFrom (.arguments []) tokens tokens
  | someArguments
      (given : ReadFrom (.argumentList results) tokens rest) :
      ReadFrom (.arguments results) tokens rest
  | lastArgument
      (last : ReadFrom (.expression result) tokens rest)
      (notComma : nextKind rest ≠ .comma) :
      ReadFrom (.argumentList [result]) tokens rest
  | moreArguments
      (first : ReadFrom (.expression result) tokens (comma :: later))
      (isComma : comma.kind = .comma)
      (others : ReadFrom (.argumentList results) later rest) :
      ReadFrom (.argumentList (result :: results)) tokens rest
  | grouping
      (isOpening : opening.kind = .leftParen)
      (content : ReadFrom (.expression enclosed) tokens (closing :: rest))
      (isClosing : closing.kind = .rightParen) :
      ReadFrom (.primary (.ofGrouping opening.span enclosed closing.span))
        (opening :: tokens) rest
  | atom
      (isAtom : Parser.atom token = .ok result) :
      ReadFrom (.primary result) (token :: rest) rest

/-! ## Statements -/

/-- Names with commas between them, at least one. -/
inductive NamesReadFrom : List String → List Token → List Token → Prop where
  | last
      (isName : name.kind = .identifier)
      (notComma : nextKind rest ≠ .comma) :
      NamesReadFrom [name.lexeme] (name :: rest) rest
  | more
      (isName : name.kind = .identifier)
      (isComma : comma.kind = .comma)
      (others : NamesReadFrom names tokens rest) :
      NamesReadFrom (name.lexeme :: names) (name :: comma :: tokens) rest

/-- The names in the parentheses of a function. -/
inductive ParametersReadFrom : List String → List Token → List Token → Prop where
  | none
      (isOpening : opening.kind = .leftParen)
      (isClosing : closing.kind = .rightParen) :
      ParametersReadFrom [] (opening :: closing :: rest) rest
  | some
      (isOpening : opening.kind = .leftParen)
      (given : NamesReadFrom names tokens (closing :: rest))
      (isClosing : closing.kind = .rightParen) :
      ParametersReadFrom names (opening :: tokens) rest

/-- The end of a statement: a line break, which is consumed, or a token that
closes the statement. -/
inductive EndsStatement (around : Surroundings) :
    List Token → List Token → Prop where
  | newline
      (isBreak : token.kind = .newline) :
      EndsStatement around (token :: rest) rest
  | closed
      (notBreak : nextKind tokens ≠ .newline)
      (isClosed : around.closedBy (nextKind tokens) = true) :
      EndsStatement around tokens tokens

/-- What the rules for statements read, and what is open around it. -/
inductive StatementPart where
  | declaration (around : Surroundings) (result : Statement)
  | statement (around : Surroundings) (result : Statement)
  | branches
      (around : Surroundings) (others : List (Expression × Statement))
      (otherwise : Option Statement)
  | block (around : Surroundings) (body : List Statement) (span : Span)
  | statements (around : Surroundings) (body : List Statement)

/-- The rules for statements: a part, the tokens it is read from and the tokens
that are left. -/
inductive StatementPart.ReadFrom :
    StatementPart → List Token → List Token → Prop where
  | variableDeclaration
      (isVariable :
        keyword.kind = .varKeyword ∨ keyword.kind = .constKeyword)
      (isName : name.kind = .identifier)
      (isEqual : equals.kind = .equal)
      (value : (ExpressionPart.expression initializer).ReadFrom tokens rest) :
      ReadFrom
        (.declaration around
          (.declaration (keyword.kind = .constKeyword) name.lexeme initializer
            (keyword.span.through initializer.span)))
        (keyword :: name :: equals :: tokens) rest
  | functionDeclaration
      (isFunction : keyword.kind = .functionKeyword)
      (isName : name.kind = .identifier)
      (parameters : ParametersReadFrom names tokens later)
      (block : ReadFrom (.block around.insideFunction body span) later rest) :
      ReadFrom
        (.declaration around
          (.function name.lexeme names body (keyword.span.through span)))
        (keyword :: name :: tokens) rest
  | simple
      (statement : ReadFrom (.statement around result) tokens rest) :
      ReadFrom (.declaration around result) tokens rest
  | block
      (block : ReadFrom (.block around body span) tokens rest) :
      ReadFrom (.statement around (.block body span)) tokens rest
  | whileLoop
      (isWhile : keyword.kind = .whileKeyword)
      (test : (ExpressionPart.expression condition).ReadFrom tokens later)
      (repeated : ReadFrom (.statement around.insideLoop body) later rest) :
      ReadFrom
        (.statement around
          (.whileLoop condition body (keyword.span.through body.span)))
        (keyword :: tokens) rest
  | conditional
      (isIf : keyword.kind = .ifKeyword)
      (test : (ExpressionPart.expression condition).ReadFrom tokens afterTest)
      (chosen : ReadFrom (.statement around body) afterTest afterBody)
      (more : ReadFrom (.branches around others otherwise) afterBody rest) :
      ReadFrom
        (.statement around
          (.conditional ((condition, body) :: others) otherwise
            (keyword.span.through
              (Parser.lastBranch body others otherwise).span)))
        (keyword :: tokens) rest
  | breakLoop
      (isBreak : keyword.kind = .breakKeyword)
      (inLoop : around.inLoop = true) :
      ReadFrom (.statement around (.breakLoop keyword.span))
        (keyword :: rest) rest
  | continueLoop
      (isContinue : keyword.kind = .continueKeyword)
      (inLoop : around.inLoop = true) :
      ReadFrom (.statement around (.continueLoop keyword.span))
        (keyword :: rest) rest
  | returnNothing
      (isReturn : keyword.kind = .returnKeyword)
      (inFunction : around.inFunction = true)
      (isClosed : around.closedBy (nextKind rest) = true) :
      ReadFrom (.statement around (.returnValue none keyword.span))
        (keyword :: rest) rest
  | returnValue
      (isReturn : keyword.kind = .returnKeyword)
      (inFunction : around.inFunction = true)
      (result : (ExpressionPart.expression value).ReadFrom tokens rest) :
      ReadFrom
        (.statement around
          (.returnValue (some value) (keyword.span.through value.span)))
        (keyword :: tokens) rest
  | expression
      (inner : (ExpressionPart.expression result).ReadFrom tokens rest) :
      ReadFrom (.statement around (.expression result)) tokens rest
  | elifBranch
      (atBranch : skipBranchBreak tokens = keyword :: afterKeyword)
      (isElif : keyword.kind = .elifKeyword)
      (test : (ExpressionPart.expression condition).ReadFrom afterKeyword
        afterTest)
      (chosen : ReadFrom (.statement around body) afterTest afterBody)
      (more : ReadFrom (.branches around others otherwise) afterBody rest) :
      ReadFrom (.branches around ((condition, body) :: others) otherwise)
        tokens rest
  | elseBranch
      (atBranch : skipBranchBreak tokens = keyword :: afterKeyword)
      (isElse : keyword.kind = .elseKeyword)
      (chosen : ReadFrom (.statement around body) afterKeyword rest) :
      ReadFrom (.branches around [] (some body)) tokens rest
  | noBranch
      (notElif : nextKind (skipBranchBreak tokens) ≠ .elifKeyword)
      (notElse : nextKind (skipBranchBreak tokens) ≠ .elseKeyword) :
      ReadFrom (.branches around [] none) tokens tokens
  | braces
      (isOpening : opening.kind = .leftBrace)
      (content : ReadFrom (.statements around.insideBlock body) tokens
        (closing :: rest))
      (isClosing : closing.kind = .rightBrace) :
      ReadFrom (.block around body (opening.span.through closing.span))
        (opening :: tokens) rest
  | noStatement
      (isEnded : around.endedBy (nextKind (skipBreaks tokens)) = true) :
      ReadFrom (.statements around []) tokens (skipBreaks tokens)
  | moreStatements
      (first : ReadFrom (.declaration around result) (skipBreaks tokens) later)
      (ends : EndsStatement around later next)
      (others : ReadFrom (.statements around results) next rest) :
      ReadFrom (.statements around (result :: results)) tokens rest

end Scriptlet
