import Scriptlet.Grammar.Progress
import Scriptlet.Proofs.Grammar.Reading

namespace Scriptlet

/-!
# Readings of expressions

The functions of the grammar for expressions find exactly the readings that the
rules of `Proofs.Grammar.Reading` allow: every reading is found if there are
enough steps, and whatever is found is a reading.
-/

/-! ## Where parts start -/

/-- Whether a token of the given kind can be the first one of an expression. -/
def TokenKind.startsExpression : TokenKind → Bool
  | .notKeyword | .dash | .leftParen | .int | .float | .trueKeyword
  | .falseKeyword | .identifier => true
  | _ => false

/-- Whether a token of the given kind can be the first one of a statement that
declares nothing. -/
def TokenKind.startsStatement : TokenKind → Bool
  | .leftBrace | .whileKeyword | .ifKeyword | .breakKeyword | .continueKeyword
  | .returnKeyword => true
  | kind => kind.startsExpression

/-- Whether a token of the given kind can be the first one of a declaration or
any other statement. -/
def TokenKind.startsDeclaration : TokenKind → Bool
  | .varKeyword | .constKeyword | .functionKeyword => true
  | kind => kind.startsStatement

/-- Kinds that start an expression differ from kinds that do not. -/
theorem TokenKind.ne_of_startsExpression
    {kind : TokenKind}
    (starts : kind.startsExpression = true)
    (other : TokenKind)
    (never : other.startsExpression = false) :
    kind ≠ other := by
  rintro rfl
  rw [starts] at never
  cases never

/-- An operator before its operand starts an expression. -/
theorem startsExpression_of_isUnary
    {kind : TokenKind}
    (isUnary : kind.isUnary = true) :
    kind.startsExpression = true := by
  cases kind <;> first | rfl | cases isUnary

/-- A literal or a name starts an expression. -/
theorem startsExpression_of_atom
    {token : Token}
    {result : Expression}
    (isAtom : Parser.atom token = .ok result) :
    token.kind.startsExpression = true := by
  unfold Parser.atom at isAtom
  split at isAtom
  · next isInt => rw [isInt]; rfl
  · next isFloat => rw [isFloat]; rfl
  · next isTrue => rw [isTrue]; rfl
  · next isFalse => rw [isFalse]; rfl
  · next isName => rw [isName]; rfl
  · cases isAtom

/-- A literal or a name is no parenthesis. -/
theorem ne_leftParen_of_atom
    {token : Token}
    {result : Expression}
    (isAtom : Parser.atom token = .ok result) :
    token.kind ≠ .leftParen := by
  intro isOpening
  simp [Parser.atom, isOpening] at isAtom

namespace ExpressionPart

/-- Whether a part has at least one token of its own. -/
def isSolid : ExpressionPart → Bool
  | .operationTail _ _ _ | .callTail _ _ | .arguments _ => false
  | _ => true

/-- Parts that have tokens of their own start like an expression. -/
theorem ReadFrom.startsExpression
    {part : ExpressionPart}
    {tokens rest : List Token}
    (read : part.ReadFrom tokens rest)
    (solid : part.isSolid = true) :
    (nextKind tokens).startsExpression = true := by
  induction read with
  | plain _ _ targetStarts => exact targetStarts rfl
  | assign _ _ _ targetStarts _ => exact targetStarts rfl
  | setAttribute _ _ _ targetStarts _ => exact targetStarts rfl
  | operands _ _ _ firstStarts _ => exact firstStarts rfl
  | operand _ _ operandStarts => exact operandStarts rfl
  | sign isUnary _ _ => exact startsExpression_of_isUnary isUnary
  | noSign _ _ _ firstStarts _ => exact firstStarts rfl
  | lastArgument _ _ lastStarts => exact lastStarts rfl
  | moreArguments _ _ _ firstStarts _ => exact firstStarts rfl
  | grouping isOpening _ _ _ =>
      rw [nextKind_cons, isOpening]
      rfl
  | atom isAtom => exact startsExpression_of_atom isAtom
  | noOperator | operator | noCall | getAttribute | call | noArguments
  | someArguments => cases solid

/-- The tokens that are left are the last ones of the tokens read from. -/
theorem ReadFrom.suffix
    {part : ExpressionPart}
    {tokens rest : List Token}
    (read : part.ReadFrom tokens rest) :
    rest <:+ tokens := by
  induction read with
  | plain _ _ behind => exact behind
  | assign _ _ _ behindTarget behindValue =>
      exact behindValue.trans ((List.suffix_cons _ _).trans behindTarget)
  | setAttribute _ _ _ behindTarget behindValue =>
      exact behindValue.trans ((List.suffix_cons _ _).trans behindTarget)
  | operands _ _ _ behindFirst behindTail => exact behindTail.trans behindFirst
  | operand _ _ behind => exact behind
  | noOperator => exact List.suffix_rfl
  | operator _ _ _ behindSecond behindTail =>
      exact (behindTail.trans behindSecond).trans (List.suffix_cons _ _)
  | sign _ _ behind => exact behind.trans (List.suffix_cons _ _)
  | noSign _ _ _ behindFirst behindTail => exact behindTail.trans behindFirst
  | noCall => exact List.suffix_rfl
  | getAttribute _ _ _ behind =>
      exact behind.trans
        ((List.suffix_cons _ _).trans (List.suffix_cons _ _))
  | call _ _ _ _ behindGiven behindTail =>
      exact (behindTail.trans ((List.suffix_cons _ _).trans behindGiven)).trans
        (List.suffix_cons _ _)
  | noArguments => exact List.suffix_rfl
  | someArguments _ behind => exact behind
  | lastArgument _ _ behind => exact behind
  | moreArguments _ _ _ behindFirst behindOthers =>
      exact behindOthers.trans ((List.suffix_cons _ _).trans behindFirst)
  | grouping _ _ _ behind =>
      exact ((List.suffix_cons _ _).trans behind).trans (List.suffix_cons _ _)
  | atom => exact List.suffix_cons _ _

/-- The tokens that are left are fewer if the part has tokens of its own, and
never more. -/
theorem ReadFrom.length_le
    {part : ExpressionPart}
    {tokens rest : List Token}
    (read : part.ReadFrom tokens rest) :
    rest.length + part.isSolid.toNat ≤ tokens.length := by
  induction read <;> simp_all only [isSolid, Bool.toNat_true, Bool.toNat_false,
    List.length_cons] <;> omega

theorem ReadFrom.length_lt
    {part : ExpressionPart}
    {tokens rest : List Token}
    (read : part.ReadFrom tokens rest)
    (solid : part.isSolid = true) :
    rest.length < tokens.length := by
  have shorter := read.length_le
  rw [solid] at shorter
  exact shorter

/-! ## Readings of expressions are found -/

/-- The function of the grammar that is meant for a part reads it. -/
def ParsedBy
    (fuel : Nat)
    (stop : Token)
    (part : ExpressionPart)
    (tokens rest : List Token) :
    Prop :=
  match part with
  | .expression result =>
      Parser.expression fuel stop tokens = .done result rest
  | .operation level result =>
      Parser.operation fuel level stop tokens = .done result rest
  | .operationTail level left result =>
      Parser.operationTail fuel level left stop tokens = .done result rest
  | .unary result =>
      Parser.unary fuel stop tokens = .done result rest
  | .callTail callee result =>
      Parser.callTail fuel callee stop tokens = .done result rest
  | .arguments results =>
      Parser.arguments fuel stop tokens = .done results rest
  | .argumentList results =>
      Parser.argumentList fuel stop tokens = .done results rest
  | .primary result =>
      Parser.primary fuel stop tokens = .done result rest

/-- The number of steps that a part needs more of, besides thirteen for every
token. -/
def extraSteps : ExpressionPart → Nat
  | .expression _ => 9
  | .operation level _ => 2 + (unaryLevel - level)
  | .operationTail _ _ _ => 0
  | .unary _ => 1
  | .callTail _ _ => 0
  | .arguments _ => 11
  | .argumentList _ => 10
  | .primary _ => 0

end ExpressionPart

/-- Whoever has more steps than needed can use up one of them. -/
theorem forall_steps
    {needed : Nat}
    {claim : Nat → Prop}
    (step : ∀ fuel, needed ≤ fuel → claim (fuel + 1)) :
    ∀ fuel, needed < fuel → claim fuel := by
  rintro (_ | fuel) enough
  · cases enough
  · exact step fuel (Nat.lt_succ_iff.mp enough)

namespace Parser

/-- A token of the expected kind is consumed. -/
theorem expect_cons
    {stop token : Token}
    {kind : TokenKind}
    (isKind : token.kind = kind)
    (rest : List Token) :
    expect kind stop (token :: rest) = .done token rest :=
  if_pos isKind

/-- A token of the wanted kind is consumed. -/
theorem accept_cons
    {stop token : Token}
    {kind : TokenKind}
    (isKind : token.kind = kind)
    (rest : List Token) :
    accept kind stop (token :: rest) = .done true rest :=
  if_pos isKind

section

variable {stop : Token} (isStop : stop.kind = .endOfInput)

include isStop

theorem peekKind_eq (tokens : List Token) :
    peekKind stop tokens = .done (nextKind tokens) tokens := by
  cases tokens with
  | nil => exact congrArg (Parsed.done · []) isStop
  | cons token rest => rfl

/-- A token of another kind than the wanted one stays where it is. -/
theorem accept_of_ne
    {tokens : List Token}
    {kind : TokenKind}
    (otherKind : nextKind tokens ≠ kind) :
    accept kind stop tokens = .done false tokens := by
  cases tokens with
  | nil => exact if_neg (isStop ▸ otherKind)
  | cons token rest => exact if_neg otherKind

end

end Parser

section

variable {stop : Token} (isStop : stop.kind = .endOfInput)

include isStop

/-- A reading is what the function for its part finds, given enough steps. -/
theorem ExpressionPart.ReadFrom.parsedBy
    {part : ExpressionPart}
    {tokens rest : List Token}
    (read : part.ReadFrom tokens rest) :
    ∀ fuel, 13 * tokens.length + part.extraSteps < fuel →
      part.ParsedBy fuel stop tokens rest := by
  have peeked := Parser.peekKind_eq isStop
  induction read with
  | plain target notAssigned targetParsed =>
      refine forall_steps fun fuel enough => ?_
      simp only [extraSteps, unaryLevel] at enough targetParsed
      have parsed := targetParsed fuel (by omega)
      simp only [ParsedBy, Parser.expression, Parser.bind_apply] at parsed ⊢
      rw [parsed, Parsed.done_andThen, peeked, Parsed.done_andThen]
      split
      · next isEqual =>
          have notTarget := notAssigned isEqual
          split <;> first | rfl | cases notTarget
      · rfl
  | assign target isEqual assigned targetParsed assignedParsed =>
      have shorter := target.length_lt rfl
      refine forall_steps fun fuel enough => ?_
      simp only [extraSteps, unaryLevel, List.length_cons] at *
      have parsed := targetParsed fuel (by omega)
      have parsedValue := assignedParsed fuel (by omega)
      simp only [ParsedBy] at parsed parsedValue ⊢
      simp [Parser.expression, parsed, parsedValue, isEqual]
  | setAttribute target isEqual assigned targetParsed assignedParsed =>
      have shorter := target.length_lt rfl
      refine forall_steps fun fuel enough => ?_
      simp only [extraSteps, unaryLevel, List.length_cons] at *
      have parsed := targetParsed fuel (by omega)
      have parsedValue := assignedParsed fuel (by omega)
      simp only [ParsedBy] at parsed parsedValue ⊢
      simp [Parser.expression, parsed, parsedValue, isEqual]
  | operands isBinary first tail firstParsed tailParsed =>
      have shorter := first.length_lt rfl
      refine forall_steps fun fuel enough => ?_
      simp only [extraSteps, unaryLevel] at *
      have parsed := firstParsed fuel (by omega)
      have parsedTail := tailParsed fuel (by omega)
      simp only [ParsedBy] at parsed parsedTail ⊢
      simp [Parser.operation, parsed, parsedTail, isBinary, unaryLevel]
  | operand notBinary operand operandParsed =>
      refine forall_steps fun fuel enough => ?_
      simp only [extraSteps, unaryLevel] at *
      have parsed := operandParsed fuel (by omega)
      simp only [ParsedBy] at parsed ⊢
      simp [Parser.operation, parsed, notBinary, unaryLevel]
  | noOperator otherLevel =>
      refine forall_steps fun fuel enough => ?_
      simp [ParsedBy, Parser.operationTail, peeked, otherLevel, -Parser.peekKind_apply]
  | operator hasLevel second tail secondParsed tailParsed =>
      have shorter := second.length_lt rfl
      refine forall_steps fun fuel enough => ?_
      simp only [extraSteps, unaryLevel, List.length_cons] at *
      have parsed := secondParsed fuel (by omega)
      have parsedTail := tailParsed fuel (by omega)
      simp only [ParsedBy] at parsed parsedTail ⊢
      simp [Parser.operationTail, hasLevel, parsed, parsedTail]
  | sign isUnary operand operandParsed =>
      refine forall_steps fun fuel enough => ?_
      simp only [extraSteps, List.length_cons] at *
      have parsed := operandParsed fuel (by omega)
      simp only [ParsedBy] at parsed ⊢
      simp [Parser.unary, isUnary, parsed]
  | noSign notUnary first tail firstParsed tailParsed =>
      have shorter := first.length_lt rfl
      refine forall_steps fun fuel enough => ?_
      simp only [extraSteps] at *
      have parsed := firstParsed fuel (by omega)
      have parsedTail := tailParsed fuel (by omega)
      simp only [ParsedBy] at parsed parsedTail ⊢
      simp [Parser.unary, peeked, notUnary, parsed, parsedTail, -Parser.peekKind_apply]
  | noCall notDot notParen =>
      refine forall_steps fun fuel enough => ?_
      simp [ParsedBy, Parser.callTail, Parser.accept_of_ne isStop notDot,
        Parser.accept_of_ne isStop notParen]
  | getAttribute isDot isName tail tailParsed =>
      refine forall_steps fun fuel enough => ?_
      simp only [extraSteps, List.length_cons] at *
      have parsed := tailParsed fuel (by omega)
      simp only [ParsedBy] at parsed ⊢
      simp [Parser.callTail, Parser.accept_cons isDot, Parser.expect_cons isName,
        parsed]
  | call isOpening given isClosing tail givenParsed tailParsed =>
      have shorter := given.length_le
      refine forall_steps fun fuel enough => ?_
      simp only [extraSteps, List.length_cons] at *
      have parsed := givenParsed fuel (by omega)
      have parsedTail := tailParsed fuel (by omega)
      simp only [ParsedBy] at parsed parsedTail ⊢
      simp [Parser.callTail, Parser.accept, isOpening, parsed,
        Parser.expect_cons isClosing, parsedTail]
  | noArguments atClosing =>
      refine forall_steps fun fuel enough => ?_
      simp [ParsedBy, Parser.arguments, peeked, atClosing, -Parser.peekKind_apply]
  | someArguments given givenParsed =>
      refine forall_steps fun fuel enough => ?_
      simp only [extraSteps] at *
      have parsed := givenParsed fuel (by omega)
      have notClosing :=
        TokenKind.ne_of_startsExpression (given.startsExpression rfl) .rightParen
          rfl
      simp only [ParsedBy] at parsed ⊢
      simp [Parser.arguments, peeked, notClosing, parsed,
        -Parser.peekKind_apply]
  | lastArgument last notComma lastParsed =>
      refine forall_steps fun fuel enough => ?_
      simp only [extraSteps] at *
      have parsed := lastParsed fuel (by omega)
      simp only [ParsedBy] at parsed ⊢
      simp [Parser.argumentList, parsed, Parser.accept_of_ne isStop notComma]
  | moreArguments first isComma others firstParsed othersParsed =>
      have shorter := first.length_lt rfl
      refine forall_steps fun fuel enough => ?_
      simp only [extraSteps, List.length_cons] at *
      have parsed := firstParsed fuel (by omega)
      have parsedOthers := othersParsed fuel (by omega)
      simp only [ParsedBy] at parsed parsedOthers ⊢
      simp [Parser.argumentList, parsed, Parser.accept_cons isComma, parsedOthers]
  | grouping isOpening content isClosing contentParsed =>
      refine forall_steps fun fuel enough => ?_
      simp only [extraSteps, List.length_cons] at *
      have parsed := contentParsed fuel (by omega)
      simp only [ParsedBy] at parsed ⊢
      simp [Parser.primary, isOpening, parsed, Parser.expect_cons isClosing]
  | atom isAtom =>
      refine forall_steps fun fuel enough => ?_
      simp [ParsedBy, Parser.primary, ne_leftParen_of_atom isAtom, isAtom,
        Parser.foundAt]

end

/-! ## What is found is a reading -/

namespace Parsed

/-- Reading in two stages succeeds if both stages do. -/
theorem andThen_eq_done
    {first : Parsed α}
    {next : α → List Token → Parsed β}
    {value : β}
    {rest : List Token}
    (finished : first.andThen next = .done value rest) :
    ∃ part later, first = .done part later ∧ next part later = .done value rest := by
  cases first with
  | done part later => exact ⟨part, later, rfl, finished⟩
  | refused fault token => cases finished
  | exhausted => cases finished

theorem done_eq_done
    {value other : α}
    {rest otherRest : List Token}
    (same : Parsed.done value rest = .done other otherRest) :
    value = other ∧ rest = otherRest := by
  cases same
  exact ⟨rfl, rfl⟩

end Parsed

/-- Tokens before the end of the input have a first one. -/
theorem exists_cons_of_nextKind
    {tokens : List Token}
    (notAtEnd : nextKind tokens ≠ .endOfInput) :
    ∃ token rest, tokens = token :: rest ∧ token.kind = nextKind tokens := by
  cases tokens with
  | nil => exact (notAtEnd rfl).elim
  | cons token rest => exact ⟨token, rest, rfl, rfl⟩

namespace Parser

section

variable {stop : Token} (isStop : stop.kind = .endOfInput)

include isStop

/-- An expected token stands at the front. -/
theorem cons_of_expect
    {kind : TokenKind}
    {tokens rest : List Token}
    {token : Token}
    (notEnd : kind ≠ .endOfInput)
    (expected : expect kind stop tokens = .done token rest) :
    tokens = token :: rest ∧ token.kind = kind := by
  cases tokens with
  | nil =>
      have otherKind : stop.kind ≠ kind := isStop ▸ notEnd.symm
      simp [expect, otherKind] at expected
  | cons found later =>
      by_cases isKind : found.kind = kind
      · rw [expect_cons isKind] at expected
        obtain ⟨rfl, rfl⟩ := Parsed.done_eq_done expected
        exact ⟨rfl, isKind⟩
      · simp [expect, isKind] at expected

/-- An accepted token stands at the front, and any other is left there. -/
theorem accept_cases
    (kind : TokenKind)
    (notEnd : kind ≠ .endOfInput)
    (tokens : List Token) :
    (∃ token rest, tokens = token :: rest ∧ token.kind = kind ∧
        accept kind stop tokens = .done true rest) ∨
      (nextKind tokens ≠ kind ∧ accept kind stop tokens = .done false tokens) := by
  by_cases isKind : nextKind tokens = kind
  · obtain ⟨token, rest, rfl, _⟩ := exists_cons_of_nextKind (isKind ▸ notEnd)
    exact Or.inl ⟨token, rest, rfl, isKind, accept_cons isKind rest⟩
  · exact Or.inr ⟨isKind, accept_of_ne isStop isKind⟩

end

end Parser

namespace ExpressionPart

variable {stop : Token} {fuel : Nat} {tokens rest : List Token}

section

variable
  (below :
    ∀ part tokens rest, ParsedBy fuel stop part tokens rest →
      part.ReadFrom tokens rest)

include below

theorem readFrom_operation
    {level : Nat}
    {result : Expression}
    (parsed : Parser.operation (fuel + 1) level stop tokens = .done result rest) :
    (operation level result).ReadFrom tokens rest := by
  simp only [Parser.operation] at parsed
  split at parsed
  · next isBinary =>
      obtain ⟨left, later, firstParsed, tailParsed⟩ :=
        Parsed.andThen_eq_done parsed
      exact .operands isBinary (below (.operation (level + 1) left) _ _ firstParsed)
        (below (.operationTail level left result) _ _ tailParsed)
  · next notBinary =>
      exact .operand notBinary (below (.unary result) _ _ parsed)

variable (isStop : stop.kind = .endOfInput)

include isStop

theorem readFrom_expression
    {result : Expression}
    (parsed : Parser.expression (fuel + 1) stop tokens = .done result rest) :
    (expression result).ReadFrom tokens rest := by
  simp only [Parser.expression, Parser.bind_apply] at parsed
  obtain ⟨target, later, targetParsed, parsed⟩ := Parsed.andThen_eq_done parsed
  have targetRead := below (.operation 1 target) tokens later targetParsed
  rw [Parser.peekKind_eq isStop, Parsed.done_andThen] at parsed
  by_cases isEqual : nextKind later = .equal
  · obtain ⟨equals, behind, rfl, _⟩ :=
      exists_cons_of_nextKind (isEqual ▸ by decide : nextKind later ≠ .endOfInput)
    rw [if_pos isEqual] at parsed
    split at parsed
    · rw [Parser.bind_apply, Parser.advance_apply, Parsed.done_andThen] at parsed
      obtain ⟨value, _, valueParsed, parsed⟩ := Parsed.andThen_eq_done parsed
      obtain ⟨rfl, rfl⟩ := Parsed.done_eq_done parsed
      exact .assign targetRead isEqual (below (.expression value) _ _ valueParsed)
    · rw [Parser.bind_apply, Parser.advance_apply, Parsed.done_andThen] at parsed
      obtain ⟨value, _, valueParsed, parsed⟩ := Parsed.andThen_eq_done parsed
      obtain ⟨rfl, rfl⟩ := Parsed.done_eq_done parsed
      exact .setAttribute targetRead isEqual
        (below (.expression value) _ _ valueParsed)
    · next notReference notAttribute =>
        obtain ⟨rfl, rfl⟩ := Parsed.done_eq_done parsed
        refine .plain targetRead fun _ => ?_
        cases target <;> first | rfl | simp at notReference notAttribute
  · rw [if_neg isEqual] at parsed
    obtain ⟨rfl, rfl⟩ := Parsed.done_eq_done parsed
    exact .plain targetRead fun contrary => (isEqual contrary).elim

theorem readFrom_operationTail
    {level : Nat}
    {left result : Expression}
    (parsed :
      Parser.operationTail (fuel + 1) level left stop tokens =
        .done result rest) :
    (operationTail level left result).ReadFrom tokens rest := by
  simp only [Parser.operationTail, Parser.bind_apply] at parsed
  rw [Parser.peekKind_eq isStop, Parsed.done_andThen] at parsed
  by_cases hasLevel : (nextKind tokens).level? = some level
  · obtain ⟨operator, behind, rfl, _⟩ :=
      exists_cons_of_nextKind (Parser.ne_endOfInput_of_level? hasLevel)
    rw [if_pos hasLevel, Parser.bind_apply, Parser.advance_apply,
      Parsed.done_andThen] at parsed
    obtain ⟨right, later, secondParsed, tailParsed⟩ :=
      Parsed.andThen_eq_done parsed
    exact .operator hasLevel (below (.operation (level + 1) right) _ _ secondParsed)
      (below (.operationTail level (left.combine operator right) result) _ _
        tailParsed)
  · rw [if_neg hasLevel] at parsed
    obtain ⟨rfl, rfl⟩ := Parsed.done_eq_done parsed
    exact .noOperator hasLevel

theorem readFrom_unary
    {result : Expression}
    (parsed : Parser.unary (fuel + 1) stop tokens = .done result rest) :
    (unary result).ReadFrom tokens rest := by
  simp only [Parser.unary, Parser.bind_apply] at parsed
  rw [Parser.peekKind_eq isStop, Parsed.done_andThen] at parsed
  cases isUnary : (nextKind tokens).isUnary with
  | true =>
      obtain ⟨operator, behind, rfl, _⟩ :=
        exists_cons_of_nextKind (Parser.ne_endOfInput_of_isUnary isUnary)
      rw [if_pos isUnary, Parser.bind_apply, Parser.advance_apply,
        Parsed.done_andThen] at parsed
      obtain ⟨value, _, operandParsed, parsed⟩ := Parsed.andThen_eq_done parsed
      obtain ⟨rfl, rfl⟩ := Parsed.done_eq_done parsed
      exact .sign isUnary (below (.unary value) _ _ operandParsed)
  | false =>
      rw [if_neg (by rw [isUnary]; decide)] at parsed
      obtain ⟨callee, later, firstParsed, tailParsed⟩ :=
        Parsed.andThen_eq_done parsed
      exact .noSign isUnary (below (.primary callee) _ _ firstParsed)
        (below (.callTail callee result) _ _ tailParsed)

theorem readFrom_callTail
    {callee result : Expression}
    (parsed :
      Parser.callTail (fuel + 1) callee stop tokens = .done result rest) :
    (callTail callee result).ReadFrom tokens rest := by
  simp only [Parser.callTail, Parser.bind_apply] at parsed
  rcases Parser.accept_cases isStop .dot (by decide) tokens with
    ⟨dot, behind, rfl, isDot, accepted⟩ | ⟨notDot, refused⟩
  · rw [accepted, Parsed.done_andThen, if_pos rfl] at parsed
    obtain ⟨name, later, nameExpected, tailParsed⟩ :=
      Parsed.andThen_eq_done parsed
    obtain ⟨rfl, isName⟩ := Parser.cons_of_expect isStop (by decide) nameExpected
    exact .getAttribute isDot isName (below (.callTail _ result) _ _ tailParsed)
  · rw [refused, Parsed.done_andThen, if_neg (by decide), Parser.bind_apply]
      at parsed
    rcases Parser.accept_cases isStop .leftParen (by decide) tokens with
      ⟨opening, behind, rfl, isOpening, accepted⟩ | ⟨notParen, refused⟩
    · rw [accepted, Parsed.done_andThen, if_pos rfl] at parsed
      obtain ⟨given, later, givenParsed, parsed⟩ := Parsed.andThen_eq_done parsed
      obtain ⟨closing, final, closingExpected, tailParsed⟩ :=
        Parsed.andThen_eq_done parsed
      obtain ⟨rfl, isClosing⟩ :=
        Parser.cons_of_expect isStop (by decide) closingExpected
      exact .call isOpening (below (.arguments given) _ _ givenParsed) isClosing
        (below (.callTail _ result) _ _ tailParsed)
    · rw [refused] at parsed
      obtain ⟨rfl, rfl⟩ := Parsed.done_eq_done parsed
      exact .noCall notDot notParen

theorem readFrom_arguments
    {results : List Expression}
    (parsed : Parser.arguments (fuel + 1) stop tokens = .done results rest) :
    (arguments results).ReadFrom tokens rest := by
  simp only [Parser.arguments, Parser.bind_apply] at parsed
  rw [Parser.peekKind_eq isStop, Parsed.done_andThen] at parsed
  by_cases atClosing : nextKind tokens = .rightParen
  · rw [if_pos atClosing] at parsed
    obtain ⟨rfl, rfl⟩ := Parsed.done_eq_done parsed
    exact .noArguments atClosing
  · rw [if_neg atClosing] at parsed
    exact .someArguments (below (.argumentList results) _ _ parsed)

theorem readFrom_argumentList
    {results : List Expression}
    (parsed : Parser.argumentList (fuel + 1) stop tokens = .done results rest) :
    (argumentList results).ReadFrom tokens rest := by
  simp only [Parser.argumentList, Parser.bind_apply] at parsed
  obtain ⟨first, later, firstParsed, parsed⟩ := Parsed.andThen_eq_done parsed
  have firstRead := below (.expression first) tokens later firstParsed
  rcases Parser.accept_cases isStop .comma (by decide) later with
    ⟨comma, behind, rfl, isComma, accepted⟩ | ⟨notComma, refused⟩
  · rw [accepted, Parsed.done_andThen, if_pos rfl] at parsed
    obtain ⟨others, _, othersParsed, parsed⟩ := Parsed.andThen_eq_done parsed
    obtain ⟨rfl, rfl⟩ := Parsed.done_eq_done parsed
    exact .moreArguments firstRead isComma
      (below (.argumentList others) _ _ othersParsed)
  · rw [refused] at parsed
    obtain ⟨rfl, rfl⟩ := Parsed.done_eq_done parsed
    exact .lastArgument firstRead notComma

theorem readFrom_primary
    {result : Expression}
    (parsed : Parser.primary (fuel + 1) stop tokens = .done result rest) :
    (primary result).ReadFrom tokens rest := by
  simp only [Parser.primary, Parser.bind_apply, Parser.advance_apply,
    Parsed.done_andThen] at parsed
  cases tokens with
  | nil =>
      simp [isStop, Parser.atom, Parser.foundAt] at parsed
  | cons token behind =>
      by_cases isOpening : token.kind = .leftParen
      · simp only [List.headD_cons, isOpening, ↓reduceIte] at parsed
        obtain ⟨inner, later, innerParsed, parsed⟩ := Parsed.andThen_eq_done parsed
        obtain ⟨closing, final, closingExpected, closed⟩ :=
          Parsed.andThen_eq_done parsed
        obtain ⟨rfl, isClosing⟩ :=
          Parser.cons_of_expect isStop (by decide) closingExpected
        obtain ⟨rfl, rfl⟩ := Parsed.done_eq_done closed
        exact .grouping isOpening (below (.expression inner) _ _ innerParsed)
          isClosing
      · simp only [List.headD_cons, isOpening, ↓reduceIte] at parsed
        cases isAtom : Parser.atom token with
        | error fault =>
            rw [isAtom] at parsed
            cases parsed
        | ok value =>
            rw [isAtom] at parsed
            obtain ⟨rfl, rfl⟩ := Parsed.done_eq_done parsed
            exact .atom isAtom

end

/-- What the function for a part finds is a reading. -/
theorem readFrom_of_parsedBy
    (isStop : stop.kind = .endOfInput)
    (part : ExpressionPart)
    (parsed : part.ParsedBy fuel stop tokens rest) :
    part.ReadFrom tokens rest := by
  induction fuel generalizing part tokens rest with
  | zero => cases part <;> cases parsed
  | succ fuel inductionHypothesis =>
      have below part tokens rest :=
        @inductionHypothesis tokens rest part
      cases part with
      | expression => exact readFrom_expression below isStop parsed
      | operation => exact readFrom_operation below parsed
      | operationTail => exact readFrom_operationTail below isStop parsed
      | unary => exact readFrom_unary below isStop parsed
      | callTail => exact readFrom_callTail below isStop parsed
      | arguments => exact readFrom_arguments below isStop parsed
      | argumentList => exact readFrom_argumentList below isStop parsed
      | primary => exact readFrom_primary below isStop parsed

end ExpressionPart

end Scriptlet
