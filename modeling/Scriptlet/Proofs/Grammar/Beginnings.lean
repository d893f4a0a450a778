import Scriptlet.Proofs.Grammar.Following

namespace Scriptlet

/-!
# Beginnings of parts

Tokens begin a part if further tokens complete them to it.  Wherever a function of the
grammar is in the middle of its part, the tokens that it has consumed begin the part:
open parentheses and braces can be closed, and `true`, a name or an empty block stands
for whatever is still missing.
-/

/-- A token of a kind, with the empty spelling, to complete other tokens. -/
def Token.ofKind (kind : TokenKind) : Token :=
  ⟨kind, "", Span.emptyAt .origin ⟨"", ""⟩⟩

/-! ## Expressions -/

namespace ExpressionPart

/-- Whether tokens begin a part: further tokens complete them to a part of the kind, in
front of everything that closes it. -/
def Begun (part : α → ExpressionPart) (used : List Token) : Prop :=
  ∃ added, ∀ rest, ∃ value, (part value).ClosedBy (nextKind rest) →
    (part value).ReadFrom (used ++ (added ++ rest)) rest

theorem noOperator_of_closed
    {kind : TokenKind}
    (closed : kind.extendsExpression = false)
    (level : Nat) :
    kind.level? ≠ some level := by
  intro hasLevel
  simp [TokenKind.extendsExpression, hasLevel] at closed

theorem noCall_of_closed
    {callee : Expression}
    {rest : List Token}
    (closed : (nextKind rest).extendsExpression = false) :
    (callTail callee callee).ReadFrom rest rest := by
  apply ReadFrom.noCall <;> intro isKind <;> rw [isKind] at closed <;> cases closed

theorem plain_of_closed
    {result : Expression}
    {tokens rest : List Token}
    (read : (operation 1 result).ReadFrom tokens rest)
    (closed : (nextKind rest).extendsExpression = false) :
    (expression result).ReadFrom tokens rest := by
  refine .plain read fun isEqual => ?_
  rw [isEqual] at closed
  cases closed

theorem notUnary_of_primary
    {result : Expression}
    {tokens rest : List Token}
    (read : (primary result).ReadFrom tokens rest) :
    (nextKind tokens).isUnary = false := by
  cases read with
  | grouping isOpening _ _ =>
      rw [nextKind_cons, isOpening]
      rfl
  | atom isAtom =>
      rcases Parser.atom_eq_ok_iff.mp isAtom with
        ⟨value, isLiteral, _⟩ | ⟨isName, _⟩
      · rw [nextKind_cons, Token.kind_of_literal? isLiteral]
        exact value.isUnary_tokenKind
      · rw [nextKind_cons, isName]
        rfl

/-- The literal `true`, in front of everything that closes an expression. -/
theorem readFrom_true
    {rest : List Token}
    (closed : (nextKind rest).extendsExpression = false) :
    (expression (.literal (.bool true) (Token.ofKind .trueKeyword).span)).ReadFrom
      (Token.ofKind .trueKeyword :: rest) rest := by
  have readBack : (Expression.literal (.bool true) _).ReadBack
      [Token.ofKind .trueKeyword] :=
    .of_primary rfl fun _ => .atom rfl
  exact readBack.expression (Nat.succ_pos _) closed

namespace Begun

variable {used more later : List Token}

/-! ### What stands for itself -/

theorem primary_nil : Begun primary [] :=
  ⟨[Token.ofKind .trueKeyword], fun _ => ⟨_, fun _ => .atom rfl⟩⟩

theorem grouping
    {opening : Token}
    (isOpening : opening.kind = .leftParen)
    (inner : Begun expression used) :
    Begun primary (opening :: used) := by
  obtain ⟨added, reads⟩ := inner
  refine ⟨added ++ [Token.ofKind .rightParen], fun rest => ?_⟩
  obtain ⟨value, read⟩ := reads (Token.ofKind .rightParen :: rest)
  exact ⟨_, fun _ => by simpa using ReadFrom.grouping isOpening (read rfl) rfl⟩

theorem grouping_closing
    {opening : Token}
    {inner : Expression}
    (isOpening : opening.kind = .leftParen)
    (read : (expression inner).ReadFrom (used ++ later) later) :
    Begun primary (opening :: used) :=
  ⟨[Token.ofKind .rightParen], fun _ => ⟨_, fun _ =>
    .grouping isOpening (read.replaced _ (.inr rfl)) rfl⟩⟩

theorem expression_nil : Begun expression [] :=
  ⟨[Token.ofKind .trueKeyword], fun _ => ⟨_, readFrom_true⟩⟩

/-! ### Signs, calls and attributes -/

theorem sign
    {operator : Token}
    (isUnary : operator.kind.isUnary = true)
    (operand : Begun unary used) :
    Begun unary (operator :: used) := by
  obtain ⟨added, reads⟩ := operand
  refine ⟨added, fun rest => ?_⟩
  obtain ⟨value, read⟩ := reads rest
  exact ⟨_, fun closed => .sign isUnary (read closed)⟩

theorem unary_of_primary
    (first : Begun primary used) :
    Begun unary used := by
  obtain ⟨added, reads⟩ := first
  refine ⟨added, fun rest => ?_⟩
  obtain ⟨callee, read⟩ := reads rest
  exact ⟨callee, fun closed =>
    .noSign (notUnary_of_primary (read closed)) (read closed)
      (noCall_of_closed closed)⟩

theorem unary_of_callTail
    {callee : Expression}
    (read : (primary callee).ReadFrom (used ++ (more ++ later)) (more ++ later))
    (notEmpty : more ≠ [])
    (tail : Begun (callTail callee) more) :
    Begun unary (used ++ more) := by
  obtain ⟨added, reads⟩ := tail
  refine ⟨added, fun rest => ?_⟩
  obtain ⟨result, readTail⟩ := reads rest
  refine ⟨result, fun closed => ?_⟩
  have first := read.replaced (more ++ (added ++ rest))
    (.inl (nextKind_append notEmpty _ _))
  rw [List.append_assoc]
  exact .noSign (notUnary_of_primary first) first (readTail closed)

theorem callTail_dot
    {callee : Expression}
    {dot : Token}
    (isDot : dot.kind = .dot) :
    Begun (callTail callee) [dot] :=
  ⟨[Token.ofKind .identifier], fun _ =>
    ⟨_, fun closed => .getAttribute isDot rfl (noCall_of_closed closed)⟩⟩

theorem getAttribute
    {callee : Expression}
    {dot name : Token}
    (isDot : dot.kind = .dot)
    (isName : name.kind = .identifier)
    (tail : Begun (callTail (.ofGetAttribute callee name.lexeme name.span)) more) :
    Begun (callTail callee) (dot :: name :: more) := by
  obtain ⟨added, reads⟩ := tail
  refine ⟨added, fun rest => ?_⟩
  obtain ⟨result, read⟩ := reads rest
  exact ⟨result, fun closed => .getAttribute isDot isName (read closed)⟩

theorem call_arguments
    {callee : Expression}
    {opening : Token}
    (isOpening : opening.kind = .leftParen)
    (given : Begun arguments used) :
    Begun (callTail callee) (opening :: used) := by
  obtain ⟨added, reads⟩ := given
  refine ⟨added ++ [Token.ofKind .rightParen], fun rest => ?_⟩
  obtain ⟨results, read⟩ := reads (Token.ofKind .rightParen :: rest)
  exact ⟨_, fun closed => by
    simpa using ReadFrom.call isOpening (read rfl) rfl (noCall_of_closed closed)⟩

theorem call_closing
    {callee : Expression}
    {given : List Expression}
    {opening : Token}
    (isOpening : opening.kind = .leftParen)
    (read : (arguments given).ReadFrom (used ++ later) later) :
    Begun (callTail callee) (opening :: used) :=
  ⟨[Token.ofKind .rightParen], fun _ => ⟨_, fun closed =>
    .call isOpening (read.replaced _ (.inr rfl)) rfl (noCall_of_closed closed)⟩⟩

theorem call
    {callee : Expression}
    {given : List Expression}
    {opening closing : Token}
    (isOpening : opening.kind = .leftParen)
    (read : (arguments given).ReadFrom (used ++ later) later)
    (isClosing : closing.kind = .rightParen)
    (tail : Begun (callTail (.ofCall callee given closing.span)) more) :
    Begun (callTail callee) (opening :: (used ++ closing :: more)) := by
  obtain ⟨added, reads⟩ := tail
  refine ⟨added, fun rest => ?_⟩
  obtain ⟨result, readTail⟩ := reads rest
  refine ⟨result, fun closed => ?_⟩
  have readGiven := read.replaced (closing :: (more ++ (added ++ rest)))
    (.inr isClosing)
  simpa using ReadFrom.call isOpening readGiven isClosing (readTail closed)

theorem arguments_of_list
    (given : Begun argumentList used) :
    Begun arguments used := by
  obtain ⟨added, reads⟩ := given
  refine ⟨added, fun rest => ?_⟩
  obtain ⟨results, read⟩ := reads rest
  exact ⟨results, fun closed => .someArguments (read closed)⟩

theorem lastArgument
    (last : Begun expression used) :
    Begun argumentList used := by
  obtain ⟨added, reads⟩ := last
  refine ⟨added, fun rest => ?_⟩
  obtain ⟨value, read⟩ := reads rest
  refine ⟨[value], fun isClosing : nextKind rest = .rightParen => ?_⟩
  apply ReadFrom.lastArgument
  · apply read
    rw [isClosing]
    rfl
  · rw [isClosing]
    decide

theorem moreArguments
    {first : Expression}
    {comma : Token}
    (read : (expression first).ReadFrom (used ++ comma :: later) (comma :: later))
    (isComma : comma.kind = .comma)
    (others : Begun argumentList more) :
    Begun argumentList (used ++ comma :: more) := by
  obtain ⟨added, reads⟩ := others
  refine ⟨added, fun rest => ?_⟩
  obtain ⟨results, readOthers⟩ := reads rest
  refine ⟨first :: results, fun closed => ?_⟩
  have readFirst := read.replaced (comma :: (more ++ (added ++ rest)))
    (.inl rfl)
  simpa using ReadFrom.moreArguments readFirst isComma (readOthers closed)

/-! ### Operators -/

variable {level : Nat}

theorem operation_of_operand
    (isBinary : level < unaryLevel)
    (first : Begun (operation (level + 1)) used) :
    Begun (operation level) used := by
  obtain ⟨added, reads⟩ := first
  refine ⟨added, fun rest => ?_⟩
  obtain ⟨left, read⟩ := reads rest
  exact ⟨left, fun closed =>
    .operands isBinary (read closed)
      (.noOperator (noOperator_of_closed closed level))⟩

theorem operation_of_tail
    {left : Expression}
    (isBinary : level < unaryLevel)
    (read : (operation (level + 1) left).ReadFrom (used ++ (more ++ later))
      (more ++ later))
    (notEmpty : more ≠ [])
    (tail : Begun (operationTail level left) more) :
    Begun (operation level) (used ++ more) := by
  obtain ⟨added, reads⟩ := tail
  refine ⟨added, fun rest => ?_⟩
  obtain ⟨result, readTail⟩ := reads rest
  refine ⟨result, fun closed => ?_⟩
  have first := read.replaced (more ++ (added ++ rest))
    (.inl (nextKind_append notEmpty _ _))
  rw [List.append_assoc]
  exact .operands isBinary first (readTail closed)

theorem operation_of_unary
    (notBinary : ¬ level < unaryLevel)
    (operand : Begun unary used) :
    Begun (operation level) used := by
  obtain ⟨added, reads⟩ := operand
  refine ⟨added, fun rest => ?_⟩
  obtain ⟨value, read⟩ := reads rest
  exact ⟨value, fun closed => .operand notBinary (read closed)⟩

theorem operator_operand
    {left : Expression}
    {operator : Token}
    (hasLevel : operator.kind.level? = some level)
    (second : Begun (operation (level + 1)) used) :
    Begun (operationTail level left) (operator :: used) := by
  obtain ⟨added, reads⟩ := second
  refine ⟨added, fun rest => ?_⟩
  obtain ⟨right, read⟩ := reads rest
  exact ⟨_, fun closed =>
    .operator hasLevel (read closed)
      (.noOperator (noOperator_of_closed closed level))⟩

theorem operator_tail
    {left right : Expression}
    {operator : Token}
    (hasLevel : operator.kind.level? = some level)
    (read : (operation (level + 1) right).ReadFrom (used ++ (more ++ later))
      (more ++ later))
    (notEmpty : more ≠ [])
    (tail : Begun (operationTail level (left.combine operator right)) more) :
    Begun (operationTail level left) (operator :: (used ++ more)) := by
  obtain ⟨added, reads⟩ := tail
  refine ⟨added, fun rest => ?_⟩
  obtain ⟨result, readTail⟩ := reads rest
  refine ⟨result, fun closed => ?_⟩
  have second := read.replaced (more ++ (added ++ rest))
    (.inl (nextKind_append notEmpty _ _))
  rw [List.cons_append, List.append_assoc]
  exact .operator hasLevel second (readTail closed)

/-! ### Assignments -/

theorem expression_of_operation
    (target : Begun (operation 1) used) :
    Begun expression used := by
  obtain ⟨added, reads⟩ := target
  refine ⟨added, fun rest => ?_⟩
  obtain ⟨value, read⟩ := reads rest
  exact ⟨value, fun closed => plain_of_closed (read closed) closed⟩

theorem assign
    {name : String}
    {span : Span}
    {equals : Token}
    (read : (operation 1 (.reference name span)).ReadFrom (used ++ equals :: later)
      (equals :: later))
    (isEqual : equals.kind = .equal)
    (assigned : Begun expression more) :
    Begun expression (used ++ equals :: more) := by
  obtain ⟨added, reads⟩ := assigned
  refine ⟨added, fun rest => ?_⟩
  obtain ⟨value, readValue⟩ := reads rest
  refine ⟨.ofAssign name span value, fun closed => ?_⟩
  have target := read.replaced (equals :: (more ++ (added ++ rest)))
    (.inl rfl)
  simpa using ReadFrom.assign target isEqual (readValue closed)

theorem setAttribute
    {object : Expression}
    {name : String}
    {span : Span}
    {equals : Token}
    (read : (operation 1 (.getAttribute object name span)).ReadFrom
      (used ++ equals :: later) (equals :: later))
    (isEqual : equals.kind = .equal)
    (assigned : Begun expression more) :
    Begun expression (used ++ equals :: more) := by
  obtain ⟨added, reads⟩ := assigned
  refine ⟨added, fun rest => ?_⟩
  obtain ⟨value, readValue⟩ := reads rest
  refine ⟨.ofSetAttribute object name span value, fun closed => ?_⟩
  have target := read.replaced (equals :: (more ++ (added ++ rest)))
    (.inl rfl)
  simpa using ReadFrom.setAttribute target isEqual (readValue closed)

end Begun

end ExpressionPart

/-! ## Names -/

/-- Whether further tokens complete tokens to names with commas between them. -/
def NamesBegun (used : List Token) : Prop :=
  ∃ added, ∀ rest, nextKind rest ≠ .comma →
    ∃ names, NamesReadFrom names (used ++ (added ++ rest)) rest

theorem NamesBegun.nil : NamesBegun [] :=
  ⟨[Token.ofKind .identifier], fun _ notComma => ⟨_, .last rfl notComma⟩⟩

theorem NamesBegun.more
    {name comma : Token}
    {used : List Token}
    (isName : name.kind = .identifier)
    (isComma : comma.kind = .comma)
    (others : NamesBegun used) :
    NamesBegun (name :: comma :: used) := by
  obtain ⟨added, reads⟩ := others
  refine ⟨added, fun rest notComma => ?_⟩
  obtain ⟨names, read⟩ := reads rest notComma
  exact ⟨_, .more isName isComma read⟩

/-- Whether further tokens complete tokens to names in parentheses. -/
def ParametersBegun (used : List Token) : Prop :=
  ∃ added, ∀ rest, ∃ names, ParametersReadFrom names (used ++ (added ++ rest)) rest

namespace ParametersBegun

variable {used later : List Token} {opening : Token}

theorem nil : ParametersBegun [] :=
  ⟨[Token.ofKind .leftParen, Token.ofKind .rightParen], fun _ => ⟨_, .none rfl rfl⟩⟩

theorem names
    (isOpening : opening.kind = .leftParen)
    (given : NamesBegun used) :
    ParametersBegun (opening :: used) := by
  obtain ⟨added, reads⟩ := given
  refine ⟨added ++ [Token.ofKind .rightParen], fun rest => ?_⟩
  obtain ⟨names, read⟩ := reads (Token.ofKind .rightParen :: rest) nofun
  exact ⟨names, by simpa using ParametersReadFrom.some isOpening read rfl⟩

theorem closing
    {names : List String}
    (isOpening : opening.kind = .leftParen)
    (read : NamesReadFrom names (used ++ later) later) :
    ParametersBegun (opening :: used) :=
  ⟨[Token.ofKind .rightParen], fun _ => ⟨_, .some isOpening (read.replaced _ nofun) rfl⟩⟩

end ParametersBegun

/-! ## Statements -/

namespace StatementPart

/-- Whether no token of the given kind goes on with a part, as it ends the statements
around it. -/
def ClosedBy : StatementPart → TokenKind → Prop
  | .declaration around _, kind => around.endedBy kind = true
  | .statement around _, kind => around.endedBy kind = true
  | .branches around _ _, kind => around.endedBy kind = true
  | .block _ _ _, _ => True
  | .statements around _, kind => around.endedBy kind = true

/-- Whether tokens begin a part: further tokens complete them to a part of the kind, in
front of everything that closes it. -/
def Begun (part : α → StatementPart) (used : List Token) : Prop :=
  ∃ added, ∀ rest, ∃ value, (part value).ClosedBy (nextKind rest) →
    (part value).ReadFrom (used ++ (added ++ rest)) rest

/-- Further branches, given as a pair. -/
def branchesOf
    (around : Surroundings)
    (result : List (Expression × Statement) × Option Statement) :
    StatementPart :=
  .branches around result.1 result.2

/-- A block, given as a pair. -/
def blockOf (around : Surroundings) (result : List Statement × Span) : StatementPart :=
  .block around result.1 result.2

/-- The braces of an empty block. -/
def emptyBraces : List Token :=
  [Token.ofKind .leftBrace, Token.ofKind .rightBrace]

theorem exists_readFrom_emptyBraces (around : Surroundings) (rest : List Token) :
    ∃ span, (block around [] span).ReadFrom (emptyBraces ++ rest) rest :=
  ⟨_, .braces rfl (.noStatement rfl) rfl⟩

theorem exists_statement_readFrom_emptyBraces
    (around : Surroundings)
    (rest : List Token) :
    ∃ body, (statement around body).ReadFrom (emptyBraces ++ rest) rest := by
  obtain ⟨span, read⟩ := exists_readFrom_emptyBraces around rest
  exact ⟨_, .block read⟩

/-- No branch follows where a list of statements ends. -/
theorem noBranch_of_ended
    {around : Surroundings}
    {rest : List Token}
    (isEnded : around.endedBy (nextKind rest) = true) :
    (branches around [] none).ReadFrom rest rest := by
  have notBranch := nextKind_skipBranchBreak rest
  rw [if_neg fun skipped =>
    (Surroundings.closedBy_of_endedBy isEnded).1 skipped.1] at notBranch
  apply ReadFrom.noBranch <;> rw [notBranch] <;> intro isBranch <;>
    rw [isBranch] at isEnded <;> cases isEnded

/-- Whether tokens begin a condition, what it guards and the further branches of a
conditional. -/
def GuardedBegun (around : Surroundings) (used : List Token) : Prop :=
  ∃ added, ∀ rest, ∃ condition body others otherwise,
    around.endedBy (nextKind rest) = true →
      ∃ afterTest afterBody,
        (ExpressionPart.expression condition).ReadFrom (used ++ (added ++ rest))
          afterTest ∧
        (statement around body).ReadFrom afterTest afterBody ∧
        (branches around others otherwise).ReadFrom afterBody rest

namespace Begun

variable {around : Surroundings} {used more later : List Token}

/-! ### Declarations -/

section

variable {keyword name equals : Token}

theorem variable_value
    (isVariable : keyword.kind = .varKeyword ∨ keyword.kind = .constKeyword)
    (isName : name.kind = .identifier)
    (isEqual : equals.kind = .equal)
    (value : ExpressionPart.Begun .expression used) :
    Begun (declaration around) (keyword :: name :: equals :: used) := by
  obtain ⟨added, reads⟩ := value
  refine ⟨added, fun rest => ?_⟩
  obtain ⟨initializer, read⟩ := reads rest
  exact ⟨_, fun isEnded =>
    .variableDeclaration isVariable isName isEqual
      (read (Surroundings.not_extendsExpression_of_endedBy isEnded))⟩

theorem variable_name
    (isVariable : keyword.kind = .varKeyword ∨ keyword.kind = .constKeyword)
    (isName : name.kind = .identifier) :
    Begun (declaration around) [keyword, name] := by
  have begun : Begun (declaration around) [keyword, name, Token.ofKind .equal] :=
    variable_value isVariable isName rfl .expression_nil
  obtain ⟨added, reads⟩ := begun
  exact ⟨Token.ofKind .equal :: added, reads⟩

theorem variable_keyword
    (isVariable : keyword.kind = .varKeyword ∨ keyword.kind = .constKeyword) :
    Begun (declaration around) [keyword] := by
  have begun : Begun (declaration around) [keyword, Token.ofKind .identifier] :=
    variable_name isVariable rfl
  obtain ⟨added, reads⟩ := begun
  exact ⟨Token.ofKind .identifier :: added, reads⟩

theorem function_body
    {names : List String}
    (isFunction : keyword.kind = .functionKeyword)
    (isName : name.kind = .identifier)
    (read : ParametersReadFrom names (used ++ later) later)
    (body : Begun (blockOf around.insideFunction) more) :
    Begun (declaration around) (keyword :: name :: (used ++ more)) := by
  obtain ⟨added, reads⟩ := body
  refine ⟨added, fun rest => ?_⟩
  obtain ⟨⟨body, span⟩, readBody⟩ := reads rest
  have declared := ReadFrom.functionDeclaration isFunction isName
    (read.replaced (more ++ (added ++ rest))) (readBody trivial)
  exact ⟨_, fun _ => by simpa using declared⟩

theorem function_parameters
    (isFunction : keyword.kind = .functionKeyword)
    (isName : name.kind = .identifier)
    (parameters : ParametersBegun used) :
    Begun (declaration around) (keyword :: name :: used) := by
  obtain ⟨added, reads⟩ := parameters
  refine ⟨added ++ emptyBraces, fun rest => ?_⟩
  obtain ⟨names, read⟩ := reads (emptyBraces ++ rest)
  obtain ⟨span, readBody⟩ := exists_readFrom_emptyBraces around.insideFunction rest
  have declared := ReadFrom.functionDeclaration isFunction isName read readBody
  exact ⟨_, fun _ => by simpa using declared⟩

theorem function_keyword
    (isFunction : keyword.kind = .functionKeyword) :
    Begun (declaration around) [keyword] := by
  have begun : Begun (declaration around) [keyword, Token.ofKind .identifier] :=
    function_parameters isFunction rfl .nil
  obtain ⟨added, reads⟩ := begun
  exact ⟨Token.ofKind .identifier :: added, reads⟩

theorem simple
    (begun : Begun (statement around) used) :
    Begun (declaration around) used := by
  obtain ⟨added, reads⟩ := begun
  refine ⟨added, fun rest => ?_⟩
  obtain ⟨result, read⟩ := reads rest
  exact ⟨result, fun isEnded => .simple (read isEnded)⟩

end

/-! ### Blocks -/

section

variable {opening : Token}

theorem block_nil : Begun (blockOf around) [] := by
  refine ⟨emptyBraces, fun rest => ?_⟩
  obtain ⟨span, read⟩ := exists_readFrom_emptyBraces around rest
  exact ⟨([], span), fun _ => read⟩

theorem block_content
    (isOpening : opening.kind = .leftBrace)
    (content : Begun (statements around.insideBlock) used) :
    Begun (blockOf around) (opening :: used) := by
  obtain ⟨added, reads⟩ := content
  refine ⟨added ++ [Token.ofKind .rightBrace], fun rest => ?_⟩
  obtain ⟨body, read⟩ := reads (Token.ofKind .rightBrace :: rest)
  rw [List.append_assoc added]
  exact ⟨(body, _), fun _ => .braces isOpening (read rfl) rfl⟩

theorem block_closing
    {body : List Statement}
    (isOpening : opening.kind = .leftBrace)
    (read : (statements around.insideBlock body).ReadFrom (used ++ later) later) :
    Begun (blockOf around) (opening :: used) :=
  ⟨[Token.ofKind .rightBrace], fun rest => ⟨(body, _), fun _ =>
    .braces isOpening (read.replaced (Token.ofKind .rightBrace :: rest) rfl)
      rfl⟩⟩

end

/-! ### Statements -/

section

variable {keyword : Token} {condition : Expression}

/-- An empty block stands for a statement that is missing. -/
theorem statement_nil : Begun (statement around) [] := by
  refine ⟨emptyBraces, fun rest => ?_⟩
  obtain ⟨body, read⟩ := exists_statement_readFrom_emptyBraces around rest
  exact ⟨body, fun _ => read⟩

theorem statement_of_block
    (begun : Begun (blockOf around) used) :
    Begun (statement around) used := by
  obtain ⟨added, reads⟩ := begun
  refine ⟨added, fun rest => ?_⟩
  obtain ⟨⟨body, span⟩, read⟩ := reads rest
  exact ⟨_, fun _ => .block (read trivial)⟩

theorem expression
    (begun : ExpressionPart.Begun .expression used) :
    Begun (statement around) used := by
  obtain ⟨added, reads⟩ := begun
  refine ⟨added, fun rest => ?_⟩
  obtain ⟨result, read⟩ := reads rest
  exact ⟨_, fun isEnded =>
    .expression (read (Surroundings.not_extendsExpression_of_endedBy isEnded))⟩

theorem returnValue
    (isReturn : keyword.kind = .returnKeyword)
    (inFunction : around.inFunction = true)
    (value : ExpressionPart.Begun .expression used) :
    Begun (statement around) (keyword :: used) := by
  obtain ⟨added, reads⟩ := value
  refine ⟨added, fun rest => ?_⟩
  obtain ⟨result, read⟩ := reads rest
  exact ⟨_, fun isEnded =>
    .returnValue isReturn inFunction
      (read (Surroundings.not_extendsExpression_of_endedBy isEnded))⟩

theorem whileLoop_test
    (isWhile : keyword.kind = .whileKeyword)
    (test : ExpressionPart.Begun .expression used) :
    Begun (statement around) (keyword :: used) := by
  obtain ⟨added, reads⟩ := test
  refine ⟨added ++ emptyBraces, fun rest => ?_⟩
  obtain ⟨condition, readTest⟩ := reads (emptyBraces ++ rest)
  obtain ⟨body, readBody⟩ :=
    exists_statement_readFrom_emptyBraces around.insideLoop rest
  have repeated := ReadFrom.whileLoop isWhile (readTest rfl) readBody
  exact ⟨_, fun _ => by simpa using repeated⟩

/-- The statement behind a condition: if nothing of it is there yet, an empty block
does not go on with the condition. -/
theorem behind_condition
    (readTest : (ExpressionPart.expression condition).ReadFrom
      (used ++ (more ++ later)) (more ++ later))
    (body : Begun (statement around) more) :
    ∃ added, ∀ rest, ∃ result, around.endedBy (nextKind rest) = true →
      (ExpressionPart.expression condition).ReadFrom
          (used ++ (more ++ (added ++ rest))) (more ++ (added ++ rest)) ∧
        (statement around result).ReadFrom (more ++ (added ++ rest)) rest := by
  cases more with
  | nil =>
      refine ⟨emptyBraces, fun rest => ?_⟩
      obtain ⟨result, read⟩ := exists_statement_readFrom_emptyBraces around rest
      exact ⟨result, fun _ => ⟨readTest.replaced _ (.inr rfl), read⟩⟩
  | cons token more =>
      obtain ⟨added, reads⟩ := body
      refine ⟨added, fun rest => ?_⟩
      obtain ⟨result, read⟩ := reads rest
      exact ⟨result, fun isEnded => ⟨readTest.replaced _ (.inl rfl), read isEnded⟩⟩

theorem whileLoop_body
    (isWhile : keyword.kind = .whileKeyword)
    (readTest : (ExpressionPart.expression condition).ReadFrom
      (used ++ (more ++ later)) (more ++ later))
    (body : Begun (statement around.insideLoop) more) :
    Begun (statement around) (keyword :: (used ++ more)) := by
  obtain ⟨added, reads⟩ := body.behind_condition readTest
  refine ⟨added, fun rest => ?_⟩
  obtain ⟨result, read⟩ := reads rest
  rw [List.cons_append, List.append_assoc]
  exact ⟨_, fun isEnded => .whileLoop isWhile (read isEnded).1 (read isEnded).2⟩

end

end Begun

/-! ### Conditionals -/

namespace GuardedBegun

variable
  {around : Surroundings}
  {used more later : List Token}
  {condition : Expression}

theorem test
    (test : ExpressionPart.Begun .expression used) :
    GuardedBegun around used := by
  obtain ⟨added, reads⟩ := test
  refine ⟨added ++ emptyBraces, fun rest => ?_⟩
  obtain ⟨condition, readTest⟩ := reads (emptyBraces ++ rest)
  obtain ⟨body, readBody⟩ := exists_statement_readFrom_emptyBraces around rest
  rw [List.append_assoc added]
  exact ⟨_, _, _, _, fun isEnded =>
    ⟨_, _, readTest rfl, readBody, noBranch_of_ended isEnded⟩⟩

theorem body
    (readTest : (ExpressionPart.expression condition).ReadFrom
      (used ++ (more ++ later)) (more ++ later))
    (begun : Begun (statement around) more) :
    GuardedBegun around (used ++ more) := by
  obtain ⟨added, reads⟩ := begun.behind_condition readTest
  refine ⟨added, fun rest => ?_⟩
  obtain ⟨result, read⟩ := reads rest
  rw [List.append_assoc]
  exact ⟨_, _, _, _, fun isEnded =>
    ⟨_, _, (read isEnded).1, (read isEnded).2, noBranch_of_ended isEnded⟩⟩

theorem branches
    {chosen : Statement}
    {usedBody : List Token}
    (readTest : (ExpressionPart.expression condition).ReadFrom
      (used ++ (usedBody ++ (more ++ later))) (usedBody ++ (more ++ later)))
    (readBody : (statement around chosen).ReadFrom (usedBody ++ (more ++ later))
      (more ++ later))
    (someWord : ∃ token ∈ more, token.kind ≠ .newline)
    (begun : Begun (branchesOf around) more) :
    GuardedBegun around (used ++ (usedBody ++ more)) := by
  obtain ⟨added, reads⟩ := begun
  refine ⟨added, fun rest => ?_⟩
  obtain ⟨⟨others, otherwise⟩, readMore⟩ := reads rest
  have sameStart := StartsAlike.of_word someWord later (added ++ rest)
  have testHere := readTest.replaced (usedBody ++ (more ++ (added ++ rest)))
    (.inl (nextKind_append (readBody.ne_nil rfl) _ _))
  have bodyHere := readBody.replaced (more ++ (added ++ rest)) (.inl sameStart)
  rw [List.append_assoc, List.append_assoc]
  exact ⟨_, _, _, _, fun isEnded => ⟨_, _, testHere, bodyHere, readMore isEnded⟩⟩

end GuardedBegun

namespace Begun

variable {around : Surroundings} {used more later : List Token}

section

variable {keyword : Token}

theorem conditional
    (isIf : keyword.kind = .ifKeyword)
    (guarded : GuardedBegun around used) :
    Begun (statement around) (keyword :: used) := by
  obtain ⟨added, reads⟩ := guarded
  refine ⟨added, fun rest => ?_⟩
  obtain ⟨condition, body, others, otherwise, read⟩ := reads rest
  refine ⟨.conditional ((condition, body) :: others) otherwise
    (keyword.span.through (Parser.lastBranch body others otherwise).span),
    fun isEnded => ?_⟩
  obtain ⟨afterTest, afterBody, readTest, readBody, readMore⟩ := read isEnded
  exact .conditional isIf readTest readBody readMore

variable
  {breaks : List Token}
  (behindBreaks :
    ∀ other, skipBranchBreak (breaks ++ keyword :: other) = keyword :: other)

include behindBreaks

theorem elifBranch
    (isElif : keyword.kind = .elifKeyword)
    (guarded : GuardedBegun around used) :
    Begun (branchesOf around) (breaks ++ keyword :: used) := by
  obtain ⟨added, reads⟩ := guarded
  refine ⟨added, fun rest => ?_⟩
  obtain ⟨condition, body, others, otherwise, read⟩ := reads rest
  refine ⟨((condition, body) :: others, otherwise), fun isEnded => ?_⟩
  obtain ⟨afterTest, afterBody, readTest, readBody, readMore⟩ := read isEnded
  rw [List.append_assoc]
  exact .elifBranch (behindBreaks _) isElif readTest readBody readMore

theorem elseBranch
    (isElse : keyword.kind = .elseKeyword)
    (begun : Begun (statement around) used) :
    Begun (branchesOf around) (breaks ++ keyword :: used) := by
  obtain ⟨added, reads⟩ := begun
  refine ⟨added, fun rest => ?_⟩
  obtain ⟨body, read⟩ := reads rest
  refine ⟨([], some body), fun isEnded => ?_⟩
  rw [List.append_assoc]
  exact .elseBranch (behindBreaks _) isElse (read isEnded)

end

/-! ### Lists of statements -/

section

variable
  {breaks : List Token}
  (behindBreaks :
    ∀ other, nextKind other ≠ .newline → skipBreaks (breaks ++ other) = other)

/-- Where a list of statements ends, no statement follows. -/
theorem noStatement_of_ended
    {rest : List Token}
    (isEnded : around.endedBy (nextKind rest) = true) :
    (statements around []).ReadFrom rest rest := by
  have notBreak := (Surroundings.closedBy_of_endedBy isEnded).1
  have unchanged := skipBreaks_of_ne notBreak
  have read := ReadFrom.noStatement (unchanged.symm ▸ isEnded)
  rwa [unchanged] at read

include behindBreaks

/-- A declaration behind line breaks, and what follows it. -/
theorem moreStatements_behindBreaks
    {result : Statement}
    {results : List Statement}
    {tokens next rest : List Token}
    (first : (declaration around result).ReadFrom tokens later)
    (ends : EndsStatement around later next)
    (others : (statements around results).ReadFrom next rest) :
    (statements around (result :: results)).ReadFrom (breaks ++ tokens) rest := by
  have notBreak := TokenKind.ne_of_startsDeclaration first.startsWith .newline rfl
  exact .moreStatements ((behindBreaks tokens notBreak).symm ▸ first) ends others

theorem statements_first
    (first : Begun (declaration around) used) :
    Begun (statements around) (breaks ++ used) := by
  obtain ⟨added, reads⟩ := first
  refine ⟨added, fun rest => ?_⟩
  obtain ⟨result, read⟩ := reads rest
  refine ⟨[result], fun isEnded => ?_⟩
  have closed := Surroundings.closedBy_of_endedBy isEnded
  rw [List.append_assoc]
  exact moreStatements_behindBreaks behindBreaks (read isEnded)
    (.closed closed.1 closed.2) (noStatement_of_ended isEnded)

theorem statements_end
    {result : Statement}
    (read : (declaration around result).ReadFrom (used ++ later) later) :
    Begun (statements around) (breaks ++ used) := by
  refine ⟨[], fun rest => ⟨[result], fun isEnded => ?_⟩⟩
  have closed := Surroundings.closedBy_of_endedBy isEnded
  have first := read.replaced rest (.inr (.inl isEnded))
  rw [List.append_assoc]
  exact moreStatements_behindBreaks behindBreaks first
    (.closed closed.1 closed.2) (noStatement_of_ended isEnded)

theorem statements_others
    {result : Statement}
    {token : Token}
    (read : (declaration around result).ReadFrom (used ++ later) later)
    (isBreak : token.kind = .newline)
    (others : Begun (statements around) more) :
    Begun (statements around) (breaks ++ (used ++ token :: more)) := by
  obtain ⟨added, reads⟩ := others
  refine ⟨added, fun rest => ?_⟩
  obtain ⟨results, readOthers⟩ := reads rest
  refine ⟨result :: results, fun isEnded => ?_⟩
  have ends : EndsLine (token :: (more ++ (added ++ rest))) :=
    ⟨isBreak, (readOthers isEnded).not_atBranch⟩
  have first := read.replaced _ (.inr (.inr ends))
  rw [List.append_assoc, List.append_assoc]
  exact moreStatements_behindBreaks behindBreaks first (.newline isBreak)
    (readOthers isEnded)

end

end Begun

end StatementPart

end Scriptlet
