import Scriptlet.Proofs.Grammar.Beginnings
import Scriptlet.Proofs.Grammar.Promptness

namespace Scriptlet

/-!
# Expressions fail promptly

The functions of the grammar for expressions are refused at the first token that the
tokens before it do not allow.  The proof follows the functions stage by stage; what
one step more does is settled from what the functions do with one step less.
-/

namespace Parser

/-- The function for a part of expressions finds what the rules allow, and only the
kind of the next token counts for it. -/
theorem Reader.of_expressionPart
    {part : α → ExpressionPart}
    {read : Nat → Parser α}
    (isParser : ∀ fuel stop value tokens rest,
      (part value).ParsedBy fuel stop tokens rest ↔
        read fuel stop tokens = .done value rest) :
    Reader read (fun value => (part value).ReadFrom) SameKind where
  reads := by
    intro fuel stop tokens value rest isStop found
    have reads := ExpressionPart.readFrom_of_parsedBy isStop (part value)
      ((isParser _ _ _ _ _).mpr found)
    obtain ⟨used, rfl, _⟩ := reads.replaceable
    exact ⟨used, rfl, reads⟩
  settles := by
    intro stop used value rest other isStop reads same
    have replaced := reads.replaced other (.inl same)
    exact ⟨_, fun fuel isEnough =>
      (isParser _ _ _ _ _).mp (replaced.parsedBy isStop fuel isEnough)⟩

theorem reader_expression :
    Reader expression (fun value => (ExpressionPart.expression value).ReadFrom)
      SameKind :=
  .of_expressionPart fun _ _ _ _ _ => Iff.rfl

theorem reader_operation (level : Nat) :
    Reader (fun fuel => operation fuel level)
      (fun value => (ExpressionPart.operation level value).ReadFrom) SameKind :=
  .of_expressionPart fun _ _ _ _ _ => Iff.rfl

theorem reader_arguments :
    Reader arguments (fun values => (ExpressionPart.arguments values).ReadFrom)
      SameKind :=
  .of_expressionPart fun _ _ _ _ _ => Iff.rfl

theorem reader_primary :
    Reader primary (fun value => (ExpressionPart.primary value).ReadFrom) SameKind :=
  .of_expressionPart fun _ _ _ _ _ => Iff.rfl

/-- A token that opens no parenthesis stands for itself or for nothing. -/
theorem primary_of_ne
    {stop : Token}
    {tokens : List Token}
    {fuel : Nat}
    (notOpening : (tokens.headD stop).kind ≠ .leftParen) :
    primary (fuel + 1) stop tokens =
      foundAt (tokens.headD stop) (atom (tokens.headD stop)) stop tokens.tail := by
  simp only [primary, bind_apply, advance_apply, Parsed.done_andThen,
    if_neg notOpening]

/-- The functions for expressions fail promptly.  The tails are never refused at the
token they start with. -/
structure ExpressionsPrompt (stop : Token) (fuel : Nat) : Prop where
  expression : ∀ tokens,
    Prompt expression (ExpressionPart.Begun .expression) fuel stop tokens
  operation : ∀ level tokens,
    Prompt (fun fuel => operation fuel level)
      (ExpressionPart.Begun (.operation level)) fuel stop tokens
  operationTail : ∀ level left tokens,
    Prompt (fun fuel => operationTail fuel level left)
      (fun used => ExpressionPart.Begun (.operationTail level left) used ∧ used ≠ [])
      fuel stop tokens
  unary : ∀ tokens,
    Prompt unary (ExpressionPart.Begun .unary) fuel stop tokens
  callTail : ∀ callee tokens,
    Prompt (fun fuel => callTail fuel callee)
      (fun used => ExpressionPart.Begun (.callTail callee) used ∧ used ≠ [])
      fuel stop tokens
  arguments : ∀ tokens,
    Prompt arguments (ExpressionPart.Begun .arguments) fuel stop tokens
  argumentList : ∀ tokens,
    Prompt argumentList (ExpressionPart.Begun .argumentList) fuel stop tokens
  primary : ∀ tokens,
    Prompt primary (ExpressionPart.Begun .primary) fuel stop tokens

section

variable
  {stop : Token}
  {fuel : Nat}
  (isStop : stop.kind = .endOfInput)
  (below : ExpressionsPrompt stop fuel)

include isStop below

theorem prompt_expression_succ (tokens : List Token) :
    Prompt expression (ExpressionPart.Begun .expression) (fuel + 1) stop tokens := by
  apply Prompt.step (fun fuel => by rw [expression])
  apply Prompt.bind_near isStop (reader_operation 1)
  · apply (below.operation 1 tokens).mono
    intro used _ _ begun
    exact .expression_of_operation begun
  intro target used later _ readTarget
  apply Prompt.peekKind isStop
  by_cases isEqual : nextKind later = .equal
  · simp only [if_pos isEqual]
    obtain ⟨equals, behind, rfl, _⟩ :=
      exists_cons_of_nextKind (isEqual ▸ by decide : nextKind later ≠ .endOfInput)
    split
    · apply Prompt.advance
      apply Prompt.map
      apply (below.expression behind).mono
      intro more _ _ begun
      exact .assign readTarget isEqual begun
    · apply Prompt.advance
      apply Prompt.map
      apply (below.expression behind).mono
      intro more _ _ begun
      exact .setAttribute readTarget isEqual begun
    · exact .of_done rfl
  · simp only [if_neg isEqual]
    exact .of_done rfl

theorem prompt_operation_succ (level : Nat) (tokens : List Token) :
    Prompt (fun fuel => operation fuel level)
      (ExpressionPart.Begun (.operation level)) (fuel + 1) stop tokens := by
  apply Prompt.step (fun fuel => by simp only [operation]; rfl)
  by_cases isBinary : level < unaryLevel
  · simp only [if_pos isBinary]
    apply Prompt.bind_near isStop (reader_operation (level + 1))
    · apply (below.operation (level + 1) tokens).mono
      intro used _ _ begun
      exact .operation_of_operand isBinary begun
    intro left used later _ readFirst
    apply (below.operationTail level left later).mono
    rintro more rest rfl ⟨begun, notEmpty⟩
    exact .operation_of_tail isBinary readFirst notEmpty begun
  · simp only [if_neg isBinary]
    apply (below.unary tokens).mono
    intro used _ _ begun
    exact .operation_of_unary isBinary begun

theorem prompt_operationTail_succ
    (level : Nat)
    (left : Expression)
    (tokens : List Token) :
    Prompt (fun fuel => operationTail fuel level left)
      (fun used => ExpressionPart.Begun (.operationTail level left) used ∧ used ≠ [])
      (fuel + 1) stop tokens := by
  apply Prompt.step (fun fuel => by simp only [operationTail]; rfl)
  apply Prompt.peekKind isStop
  by_cases hasLevel : (nextKind tokens).level? = some level
  · simp only [if_pos hasLevel]
    obtain ⟨operator, behind, rfl, _⟩ :=
      exists_cons_of_nextKind (ne_endOfInput_of_level? hasLevel)
    apply Prompt.advance
    apply Prompt.bind_near isStop (reader_operation (level + 1))
    · apply (below.operation (level + 1) behind).mono
      intro used _ _ begun
      exact ⟨.operator_operand hasLevel begun, List.cons_ne_nil _ _⟩
    intro right used later _ readSecond
    apply (below.operationTail level (left.combine operator right) later).mono
    rintro more rest rfl ⟨begun, notEmpty⟩
    exact ⟨.operator_tail hasLevel readSecond notEmpty begun, List.cons_ne_nil _ _⟩
  · simp only [if_neg hasLevel]
    exact .of_done rfl

theorem prompt_unary_succ (tokens : List Token) :
    Prompt unary (ExpressionPart.Begun .unary) (fuel + 1) stop tokens := by
  apply Prompt.step (fun fuel => by rw [unary])
  apply Prompt.peekKind isStop
  by_cases isUnary : (nextKind tokens).isUnary = true
  · simp only [if_pos isUnary]
    obtain ⟨operator, behind, rfl, _⟩ :=
      exists_cons_of_nextKind (ne_endOfInput_of_isUnary isUnary)
    apply Prompt.advance
    apply Prompt.map
    apply (below.unary behind).mono
    intro used _ _ begun
    exact .sign isUnary begun
  · simp only [if_neg isUnary]
    apply Prompt.bind_near isStop reader_primary
    · apply (below.primary tokens).mono
      intro used _ _ begun
      exact .unary_of_primary begun
    intro callee used later _ readFirst
    apply (below.callTail callee later).mono
    rintro more rest rfl ⟨begun, notEmpty⟩
    exact .unary_of_callTail readFirst notEmpty begun

theorem prompt_callTail_succ (callee : Expression) (tokens : List Token) :
    Prompt (fun fuel => callTail fuel callee)
      (fun used => ExpressionPart.Begun (.callTail callee) used ∧ used ≠ [])
      (fuel + 1) stop tokens := by
  apply Prompt.step (fun fuel => by simp only [callTail]; rfl)
  apply Prompt.accept_bind isStop (by decide)
  · rintro dot behind rfl isDot
    simp only [if_pos]
    apply Prompt.expect_bind isStop (by decide)
      ⟨.callTail_dot isDot, List.cons_ne_nil _ _⟩
    rintro name rest rfl isName
    apply (below.callTail _ rest).mono
    rintro more _ _ ⟨begun, _⟩
    exact ⟨.getAttribute isDot isName begun, List.cons_ne_nil _ _⟩
  intro notDot
  simp only [Bool.false_eq_true, if_false]
  apply Prompt.accept_bind isStop (by decide)
  · rintro opening behind rfl isOpening
    simp only [if_pos]
    apply Prompt.bind_near isStop reader_arguments
    · apply (below.arguments behind).mono
      intro used _ _ begun
      exact ⟨.call_arguments isOpening begun, List.cons_ne_nil _ _⟩
    intro given used later _ readGiven
    apply Prompt.expect_bind isStop (by decide)
    · rw [List.append_nil]
      exact ⟨.call_closing isOpening readGiven, List.cons_ne_nil _ _⟩
    rintro closing rest rfl isClosing
    apply (below.callTail _ rest).mono
    rintro more _ _ ⟨begun, _⟩
    exact ⟨.call isOpening readGiven isClosing begun, List.cons_ne_nil _ _⟩
  · intro notParen
    exact .of_done rfl

theorem prompt_arguments_succ (tokens : List Token) :
    Prompt arguments (ExpressionPart.Begun .arguments) (fuel + 1) stop tokens := by
  apply Prompt.step (fun fuel => by rw [arguments])
  apply Prompt.peekKind isStop
  by_cases atClosing : nextKind tokens = .rightParen
  · simp only [if_pos atClosing]
    exact .of_done rfl
  · simp only [if_neg atClosing]
    apply (below.argumentList tokens).mono
    intro used _ _ begun
    exact .arguments_of_list begun

theorem prompt_argumentList_succ (tokens : List Token) :
    Prompt argumentList (ExpressionPart.Begun .argumentList) (fuel + 1) stop
      tokens := by
  apply Prompt.step (fun fuel => by rw [argumentList])
  apply Prompt.bind_near isStop reader_expression
  · apply (below.expression tokens).mono
    intro used _ _ begun
    exact .lastArgument begun
  intro first used later _ readFirst
  apply Prompt.accept_bind isStop (by decide)
  · rintro comma behind rfl isComma
    simp only [if_pos]
    apply Prompt.map
    apply (below.argumentList behind).mono
    intro more _ _ begun
    exact .moreArguments readFirst isComma begun
  · intro notComma
    exact .of_done rfl

theorem prompt_primary_succ (tokens : List Token) :
    Prompt primary (ExpressionPart.Begun .primary) (fuel + 1) stop tokens := by
  by_cases isOpening : nextKind tokens = .leftParen
  · apply Prompt.step (fun fuel => by rw [primary])
    obtain ⟨opening, behind, rfl, _⟩ :=
      exists_cons_of_nextKind (isOpening ▸ by decide : nextKind tokens ≠ .endOfInput)
    rw [nextKind_cons] at isOpening
    apply Prompt.advance
    simp only [if_pos isOpening]
    apply Prompt.bind_near isStop reader_expression
    · apply (below.expression behind).mono
      intro used _ _ begun
      exact .grouping isOpening begun
    intro inner used later _ readInner
    apply Prompt.map
    apply Prompt.expect
    rw [List.append_nil]
    exact .grouping_closing isOpening readInner
  · rw [← kind_headD isStop tokens] at isOpening
    apply Prompt.at_head .primary_nil
    intro fault token refused
    rw [primary_of_ne isOpening] at refused
    cases found : atom (tokens.headD stop) with
    | ok value =>
        rw [found] at refused
        cases refused
    | error atomFault =>
        rw [found] at refused
        cases refused
        refine ⟨rfl, ?_⟩
        intro otherStop other _ isHead
        refine ⟨1, fun fuel isEnough => ?_⟩
        obtain ⟨fuel, rfl⟩ := Nat.exists_eq_add_of_le' isEnough
        rw [← isHead] at isOpening found
        rw [List.nil_append, primary_of_ne isOpening, found, ← isHead]
        rfl

end

/-- All functions for expressions fail promptly. -/
theorem expressionsPrompt
    {stop : Token}
    (isStop : stop.kind = .endOfInput)
    (fuel : Nat) :
    ExpressionsPrompt stop fuel := by
  induction fuel with
  | zero =>
      constructor
      all_goals
        intros
        exact .of_exhausted rfl
  | succ fuel below =>
      exact
        { expression := prompt_expression_succ isStop below
          operation := prompt_operation_succ isStop below
          operationTail := prompt_operationTail_succ isStop below
          unary := prompt_unary_succ isStop below
          callTail := prompt_callTail_succ isStop below
          arguments := prompt_arguments_succ isStop below
          argumentList := prompt_argumentList_succ isStop below
          primary := prompt_primary_succ isStop below }

end Parser

end Scriptlet
