import Scriptlet.Grammar.Program

namespace Scriptlet

/-!
# Reading comes to an end

Every function of the grammar that reads something consumes at least one token,
and between two tokens it goes through a bounded number of steps.  So a number of
steps that is linear in the number of tokens is always enough.
-/

namespace Parsed

/-- Reading came to an end, and if it succeeded, fewer than `bound` tokens are
left. -/
def Within (bound : Nat) : Parsed α → Prop
  | .done _ rest => rest.length < bound
  | .refused _ _ => True
  | .exhausted => False

@[simp] theorem within_done (bound : Nat) (value : α) (rest : List Token) :
    (Parsed.done value rest).Within bound ↔ rest.length < bound :=
  Iff.rfl

@[simp] theorem within_refused
    (bound : Nat)
    (fault : SyntaxFault)
    (token : Token) :
    (Parsed.refused fault token : Parsed α).Within bound :=
  trivial

/-- A bound may be loosened. -/
theorem Within.mono
    {bound larger : Nat}
    {parsed : Parsed α}
    (within : parsed.Within bound)
    (le : bound ≤ larger) :
    parsed.Within larger := by
  cases parsed with
  | done value rest => exact Nat.lt_of_lt_of_le within le
  | refused fault token => trivial
  | exhausted => exact within

/-- Reading in two stages ends if both stages do. -/
theorem Within.andThen
    {bound middle : Nat}
    {first : Parsed α}
    {next : α → List Token → Parsed β}
    (firstWithin : first.Within middle)
    (nextWithin :
      ∀ value rest, rest.length < middle → (next value rest).Within bound) :
    (first.andThen next).Within bound := by
  cases first with
  | done value rest => exact nextWithin value rest firstWithin
  | refused fault token => trivial
  | exhausted => exact firstWithin.elim

/-- Reading that came to an end did not use up its steps. -/
theorem Within.ne_exhausted
    {bound : Nat}
    {parsed : Parsed α}
    (within : parsed.Within bound) :
    parsed ≠ .exhausted := by
  intro isExhausted
  rw [isExhausted] at within
  exact within

end Parsed

namespace Parser

variable {stop : Token} {tokens : List Token}

@[simp] theorem pure_apply (value : α) :
    (pure value : Parser α) stop tokens = .done value tokens :=
  rfl

@[simp] theorem bind_apply (first : Parser α) (next : α → Parser β) :
    (first >>= next) stop tokens =
      (first stop tokens).andThen fun value rest => next value stop rest :=
  rfl

@[simp] theorem peek_apply :
    peek stop tokens = .done (tokens.headD stop) tokens :=
  rfl

@[simp] theorem peekKind_apply :
    peekKind stop tokens = .done (tokens.headD stop).kind tokens :=
  rfl

@[simp] theorem advance_apply :
    advance stop tokens = .done (tokens.headD stop) tokens.tail :=
  rfl

@[simp] theorem refuse_apply (fault : SyntaxFault) (token : Token) :
    (refuse fault token : Parser α) stop tokens = .refused fault token :=
  rfl

/-- If the next token is not the end of the input, then consuming it leaves fewer
tokens. -/
theorem tail_length_lt
    (isStop : stop.kind = .endOfInput)
    (notAtEnd : (tokens.headD stop).kind ≠ .endOfInput) :
    tokens.tail.length < tokens.length := by
  cases tokens with
  | nil => exact (notAtEnd isStop).elim
  | cons token rest => simp

theorem expect_within
    (isStop : stop.kind = .endOfInput)
    {expected : TokenKind}
    (notEnd : expected ≠ .endOfInput) :
    (expect expected stop tokens).Within tokens.length := by
  unfold expect
  simp only
  split
  · next found =>
      exact tail_length_lt isStop (by rw [found]; exact notEnd)
  · trivial

theorem foundAt_within
    (token : Token)
    (found : Except SyntaxFault α)
    {bound : Nat}
    (within : ∀ value, found = .ok value → tokens.length < bound) :
    (foundAt token found stop tokens).Within bound := by
  cases found with
  | ok value => exact within value rfl
  | error fault => trivial

/-- The end of the input is no expression. -/
theorem ne_endOfInput_of_atom
    {token : Token}
    {value : Expression}
    (isAtom : atom token = .ok value) :
    token.kind ≠ .endOfInput := by
  intro atEnd
  simp [atom, atEnd] at isAtom

/-! ## Expressions -/

/-- What the functions for expressions need: how many steps are enough for a
given number of tokens, and how many tokens are left at most. -/
structure ExpressionsEnd (stop : Token) (fuel : Nat) : Prop where
  expression :
    ∀ tokens, 13 * tokens.length + 10 ≤ fuel →
      (expression fuel stop tokens).Within tokens.length
  operation :
    ∀ level tokens, 1 ≤ level → level ≤ unaryLevel →
      13 * tokens.length + (10 - level) ≤ fuel →
      (operation fuel level stop tokens).Within tokens.length
  operationTail :
    ∀ level left tokens, level < unaryLevel →
      13 * tokens.length + 1 ≤ fuel →
      (operationTail fuel level left stop tokens).Within (tokens.length + 1)
  unary :
    ∀ tokens, 13 * tokens.length + 2 ≤ fuel →
      (unary fuel stop tokens).Within tokens.length
  callTail :
    ∀ callee tokens, 13 * tokens.length + 1 ≤ fuel →
      (callTail fuel callee stop tokens).Within (tokens.length + 1)
  arguments :
    ∀ tokens, 13 * tokens.length + 12 ≤ fuel →
      (arguments fuel stop tokens).Within (tokens.length + 1)
  argumentList :
    ∀ tokens, 13 * tokens.length + 11 ≤ fuel →
      (argumentList fuel stop tokens).Within tokens.length
  primary :
    ∀ tokens, 13 * tokens.length + 1 ≤ fuel →
      (primary fuel stop tokens).Within tokens.length

/-- An operator between operands is not the end of the input. -/
theorem ne_endOfInput_of_level?
    {kind : TokenKind}
    {level : Nat}
    (hasLevel : kind.level? = some level) :
    kind ≠ .endOfInput := by
  rintro rfl
  simp [TokenKind.level?] at hasLevel

/-- An operator before its operand is not the end of the input. -/
theorem ne_endOfInput_of_isUnary
    {kind : TokenKind}
    (isUnary : kind.isUnary = true) :
    kind ≠ .endOfInput := by
  rintro rfl
  simp [TokenKind.isUnary] at isUnary

theorem expression_within_succ
    (isStop : stop.kind = .endOfInput)
    {fuel : Nat}
    (below : ExpressionsEnd stop fuel)
    (tokens : List Token)
    (enough : 13 * tokens.length + 10 ≤ fuel + 1) :
    (expression (fuel + 1) stop tokens).Within tokens.length := by
  simp only [expression, bind_apply]
  refine
    (below.operation 1 tokens (by decide) (by decide) (by omega)).andThen ?_
  intro target rest restShorter
  simp only [peekKind_apply, Parsed.done_andThen]
  split
  · next isEqual =>
      have shorter : rest.tail.length < rest.length :=
        tail_length_lt isStop (by rw [isEqual]; decide)
      split
      · simp only [bind_apply, advance_apply, Parsed.done_andThen]
        refine (below.expression rest.tail (by omega)).andThen ?_
        intro value final finalShorter
        simp only [pure_apply, Parsed.within_done]
        omega
      · simp only [bind_apply, advance_apply, Parsed.done_andThen]
        refine (below.expression rest.tail (by omega)).andThen ?_
        intro value final finalShorter
        simp only [pure_apply, Parsed.within_done]
        omega
      · simpa using restShorter
  · simpa using restShorter

theorem operation_within_succ
    {fuel : Nat}
    (below : ExpressionsEnd stop fuel)
    (level : Nat)
    (tokens : List Token)
    (positive : 1 ≤ level)
    (small : level ≤ unaryLevel)
    (enough : 13 * tokens.length + (10 - level) ≤ fuel + 1) :
    (operation (fuel + 1) level stop tokens).Within tokens.length := by
  simp only [unaryLevel] at small
  simp only [operation]
  split
  · next isBinary =>
      simp only [unaryLevel] at isBinary
      simp only [bind_apply]
      refine
        (below.operation (level + 1) tokens (by omega)
          (by simp only [unaryLevel]; omega) (by omega)).andThen ?_
      intro first rest restShorter
      exact
        (below.operationTail level first rest isBinary (by omega)).mono
          (by omega)
  · next isUnary =>
      simp only [unaryLevel] at isUnary
      exact below.unary tokens (by omega)

theorem operationTail_within_succ
    (isStop : stop.kind = .endOfInput)
    {fuel : Nat}
    (below : ExpressionsEnd stop fuel)
    (level : Nat)
    (left : Expression)
    (tokens : List Token)
    (small : level < unaryLevel)
    (enough : 13 * tokens.length + 1 ≤ fuel + 1) :
    (operationTail (fuel + 1) level left stop tokens).Within
      (tokens.length + 1) := by
  simp only [operationTail, bind_apply, peekKind_apply, Parsed.done_andThen]
  split
  · next hasLevel =>
      have shorter : tokens.tail.length < tokens.length :=
        tail_length_lt isStop (ne_endOfInput_of_level? hasLevel)
      simp only [bind_apply, advance_apply, Parsed.done_andThen]
      refine
        (below.operation (level + 1) tokens.tail (by omega) (by omega)
          (by omega)).andThen ?_
      intro right rest restShorter
      exact
        (below.operationTail level _ rest small (by omega)).mono (by omega)
  · simp

theorem unary_within_succ
    (isStop : stop.kind = .endOfInput)
    {fuel : Nat}
    (below : ExpressionsEnd stop fuel)
    (tokens : List Token)
    (enough : 13 * tokens.length + 2 ≤ fuel + 1) :
    (unary (fuel + 1) stop tokens).Within tokens.length := by
  simp only [unary, bind_apply, peekKind_apply, Parsed.done_andThen]
  split
  · next isUnary =>
      have shorter : tokens.tail.length < tokens.length :=
        tail_length_lt isStop (ne_endOfInput_of_isUnary isUnary)
      simp only [bind_apply, advance_apply, Parsed.done_andThen]
      refine (below.unary tokens.tail (by omega)).andThen ?_
      intro operand rest restShorter
      simp only [pure_apply, Parsed.within_done]
      omega
  · simp only [bind_apply]
    refine (below.primary tokens (by omega)).andThen ?_
    intro callee rest restShorter
    exact (below.callTail callee rest (by omega)).mono (by omega)

theorem callTail_within_succ
    (isStop : stop.kind = .endOfInput)
    {fuel : Nat}
    (below : ExpressionsEnd stop fuel)
    (callee : Expression)
    (tokens : List Token)
    (enough : 13 * tokens.length + 1 ≤ fuel + 1) :
    (callTail (fuel + 1) callee stop tokens).Within (tokens.length + 1) := by
  simp only [callTail, bind_apply, accept]
  split
  · next isDot =>
      have shorter : tokens.tail.length < tokens.length :=
        tail_length_lt isStop (by rw [isDot]; decide)
      simp only [Parsed.done_andThen, ↓reduceIte, bind_apply]
      refine (expect_within isStop (by decide)).andThen ?_
      intro name rest restShorter
      exact (below.callTail _ rest (by omega)).mono (by omega)
  · simp only [Parsed.done_andThen, Bool.false_eq_true, ↓reduceIte, bind_apply,
      accept]
    split
    · next isParen =>
        have shorter : tokens.tail.length < tokens.length :=
          tail_length_lt isStop (by rw [isParen]; decide)
        simp only [Parsed.done_andThen, ↓reduceIte, bind_apply]
        refine (below.arguments tokens.tail (by omega)).andThen ?_
        intro given rest restShorter
        refine (expect_within isStop (by decide)).andThen ?_
        intro closing final finalShorter
        exact (below.callTail _ final (by omega)).mono (by omega)
    · simp

theorem arguments_within_succ
    {fuel : Nat}
    (below : ExpressionsEnd stop fuel)
    (tokens : List Token)
    (enough : 13 * tokens.length + 12 ≤ fuel + 1) :
    (arguments (fuel + 1) stop tokens).Within (tokens.length + 1) := by
  simp only [arguments, bind_apply, peekKind_apply, Parsed.done_andThen]
  split
  · simp
  · exact (below.argumentList tokens (by omega)).mono (by omega)

theorem argumentList_within_succ
    (isStop : stop.kind = .endOfInput)
    {fuel : Nat}
    (below : ExpressionsEnd stop fuel)
    (tokens : List Token)
    (enough : 13 * tokens.length + 11 ≤ fuel + 1) :
    (argumentList (fuel + 1) stop tokens).Within tokens.length := by
  simp only [argumentList, bind_apply]
  refine (below.expression tokens (by omega)).andThen ?_
  intro first rest restShorter
  simp only [accept]
  split
  · next isComma =>
      have shorter : rest.tail.length < rest.length :=
        tail_length_lt isStop (by rw [isComma]; decide)
      simp only [Parsed.done_andThen, ↓reduceIte, bind_apply]
      refine (below.argumentList rest.tail (by omega)).andThen ?_
      intro others final finalShorter
      simp only [pure_apply, Parsed.within_done]
      omega
  · simpa using restShorter

theorem primary_within_succ
    (isStop : stop.kind = .endOfInput)
    {fuel : Nat}
    (below : ExpressionsEnd stop fuel)
    (tokens : List Token)
    (enough : 13 * tokens.length + 1 ≤ fuel + 1) :
    (primary (fuel + 1) stop tokens).Within tokens.length := by
  simp only [primary, bind_apply, advance_apply, Parsed.done_andThen]
  split
  · next isParen =>
      have shorter : tokens.tail.length < tokens.length :=
        tail_length_lt isStop (by rw [isParen]; decide)
      simp only [bind_apply]
      refine (below.expression tokens.tail (by omega)).andThen ?_
      intro inner rest restShorter
      refine (expect_within isStop (by decide)).andThen ?_
      intro closing final finalShorter
      simp only [pure_apply, Parsed.within_done]
      omega
  · refine foundAt_within _ _ ?_
    intro value isAtom
    exact tail_length_lt isStop (ne_endOfInput_of_atom isAtom)

/-- The stated numbers of steps are enough for every expression. -/
theorem expressionsEnd
    (isStop : stop.kind = .endOfInput)
    (fuel : Nat) :
    ExpressionsEnd stop fuel := by
  induction fuel with
  | zero =>
      constructor
      · intro tokens enough
        omega
      · intro level tokens positive small enough
        simp only [unaryLevel] at small
        omega
      · intro level left tokens small enough
        omega
      · intro tokens enough
        omega
      · intro callee tokens enough
        omega
      · intro tokens enough
        omega
      · intro tokens enough
        omega
      · intro tokens enough
        omega
  | succ fuel below =>
      exact
        { expression := expression_within_succ isStop below
          operation := operation_within_succ below
          operationTail := operationTail_within_succ isStop below
          unary := unary_within_succ isStop below
          callTail := callTail_within_succ isStop below
          arguments := arguments_within_succ below
          argumentList := argumentList_within_succ isStop below
          primary := primary_within_succ isStop below }

/-! ## Statements -/

theorem terminate_within (surroundings : Surroundings) :
    (terminate surroundings stop tokens).Within (tokens.length + 1) := by
  simp only [terminate, bind_apply, peek_apply, Parsed.done_andThen]
  split
  · simp only [bind_apply, advance_apply, Parsed.done_andThen, pure_apply,
      Parsed.within_done, List.length_tail]
    omega
  · split <;> simp

theorem allowed_within
    (condition : Bool)
    (fault : SyntaxFault)
    (token : Token) :
    (allowed condition fault token stop tokens).Within (tokens.length + 1) := by
  unfold allowed
  split <;> simp

theorem parameterNames_within (stop : Token) (tokens : List Token) :
    (parameterNames stop tokens).Within tokens.length := by
  fun_induction parameterNames stop tokens with
  | case1 stop => trivial
  | case2 stop name isName => simp
  | case3 stop name isName separator later isComma inductionHypothesis =>
      refine inductionHypothesis.andThen ?_
      intro names final finalShorter
      simp only [Parsed.within_done, List.length_cons]
      omega
  | case4 stop name isName separator later notComma => simp
  | case5 stop name rest notName => trivial

theorem parameters_within (isStop : stop.kind = .endOfInput) :
    (parameters stop tokens).Within tokens.length := by
  simp only [parameters, bind_apply]
  refine (expect_within isStop (by decide)).andThen ?_
  intro opening rest restShorter
  simp only [peekKind_apply, Parsed.done_andThen]
  split
  · simp only [bind_apply, advance_apply, Parsed.done_andThen, pure_apply,
      Parsed.within_done, List.length_tail]
    omega
  · simp only [bind_apply]
    refine (parameterNames_within stop rest).andThen ?_
    intro names later laterShorter
    refine (expect_within isStop (by decide)).andThen ?_
    intro closing final finalShorter
    simp only [pure_apply, Parsed.within_done]
    omega

theorem skipNewlines_within (stop : Token) (tokens : List Token) :
    (skipNewlines stop tokens).Within (tokens.length + 1) := by
  simp only [skipNewlines, Parsed.within_done]
  exact Nat.lt_succ_of_le (List.dropWhile_sublist _).length_le

theorem skipNewlineBeforeBranch_within (stop : Token) (tokens : List Token) :
    (skipNewlineBeforeBranch stop tokens).Within (tokens.length + 1) := by
  unfold skipNewlineBeforeBranch
  split
  · split <;> simp
  · simp

theorem variableDeclaration_within
    (isStop : stop.kind = .endOfInput)
    {fuel : Nat}
    (notAtEnd : (tokens.headD stop).kind ≠ .endOfInput)
    (enough : 13 * tokens.length ≤ fuel) :
    (variableDeclaration fuel stop tokens).Within tokens.length := by
  have shorter := tail_length_lt isStop notAtEnd
  simp only [variableDeclaration, bind_apply, advance_apply,
    Parsed.done_andThen]
  refine (expect_within isStop (by decide)).andThen ?_
  intro name afterName afterNameShorter
  refine (expect_within isStop (by decide)).andThen ?_
  intro equals afterEquals afterEqualsShorter
  refine
    ((expressionsEnd isStop fuel).expression afterEquals (by omega)).andThen ?_
  intro initializer rest restShorter
  simp only [pure_apply, Parsed.within_done]
  omega

theorem returnStatement_within
    (isStop : stop.kind = .endOfInput)
    {fuel : Nat}
    (surroundings : Surroundings)
    (notAtEnd : (tokens.headD stop).kind ≠ .endOfInput)
    (enough : 13 * tokens.length ≤ fuel) :
    (returnStatement fuel surroundings stop tokens).Within tokens.length := by
  have shorter := tail_length_lt isStop notAtEnd
  simp only [returnStatement, bind_apply, advance_apply, Parsed.done_andThen]
  refine (allowed_within _ _ _).andThen ?_
  intro _ rest restShorter
  simp only [peekKind_apply, Parsed.done_andThen]
  split
  · simp only [pure_apply, Parsed.within_done]
    omega
  · simp only [bind_apply]
    refine ((expressionsEnd isStop fuel).expression rest (by omega)).andThen ?_
    intro value final finalShorter
    simp only [pure_apply, Parsed.within_done]
    omega

/-- What the functions for statements need: how many steps are enough for a given
number of tokens, and how many tokens are left at most. -/
structure StatementsEnd (stop : Token) (fuel : Nat) : Prop where
  declaration :
    ∀ surroundings tokens, 13 * tokens.length + 12 ≤ fuel →
      (declaration fuel surroundings stop tokens).Within tokens.length
  statement :
    ∀ surroundings tokens, 13 * tokens.length + 11 ≤ fuel →
      (statement fuel surroundings stop tokens).Within tokens.length
  branches :
    ∀ surroundings tokens, 13 * tokens.length + 1 ≤ fuel →
      (branches fuel surroundings stop tokens).Within (tokens.length + 1)
  block :
    ∀ surroundings tokens, 13 * tokens.length + 1 ≤ fuel →
      (block fuel surroundings stop tokens).Within tokens.length
  statements :
    ∀ surroundings tokens, 13 * tokens.length + 13 ≤ fuel →
      (statements fuel surroundings stop tokens).Within (tokens.length + 1)

theorem declaration_within_succ
    (isStop : stop.kind = .endOfInput)
    {fuel : Nat}
    (below : StatementsEnd stop fuel)
    (surroundings : Surroundings)
    (tokens : List Token)
    (enough : 13 * tokens.length + 12 ≤ fuel + 1) :
    (declaration (fuel + 1) surroundings stop tokens).Within
      tokens.length := by
  simp only [declaration, bind_apply, peekKind_apply, Parsed.done_andThen]
  split
  · next isVariable =>
      refine variableDeclaration_within isStop ?_ (by omega)
      rcases isVariable with isVar | isConst
      · rw [isVar]
        decide
      · rw [isConst]
        decide
  · split
    · next isFunction =>
        have shorter : tokens.tail.length < tokens.length :=
          tail_length_lt isStop (by rw [isFunction]; decide)
        simp only [bind_apply, advance_apply, Parsed.done_andThen]
        refine (expect_within isStop (by decide)).andThen ?_
        intro name afterName afterNameShorter
        refine (parameters_within isStop).andThen ?_
        intro names afterNames afterNamesShorter
        refine (below.block _ afterNames (by omega)).andThen ?_
        intro body rest restShorter
        simp only [pure_apply, Parsed.within_done]
        omega
    · exact below.statement surroundings tokens (by omega)

theorem statement_within_succ
    (isStop : stop.kind = .endOfInput)
    {fuel : Nat}
    (below : StatementsEnd stop fuel)
    (surroundings : Surroundings)
    (tokens : List Token)
    (enough : 13 * tokens.length + 11 ≤ fuel + 1) :
    (statement (fuel + 1) surroundings stop tokens).Within tokens.length := by
  simp only [statement, bind_apply, peekKind_apply, Parsed.done_andThen]
  split
  · simp only [bind_apply]
    refine (below.block surroundings tokens (by omega)).andThen ?_
    intro body rest restShorter
    simpa using restShorter
  split
  · next isWhile =>
      have shorter : tokens.tail.length < tokens.length :=
        tail_length_lt isStop (by rw [isWhile]; decide)
      simp only [bind_apply, advance_apply, Parsed.done_andThen]
      refine
        ((expressionsEnd isStop fuel).expression tokens.tail
          (by omega)).andThen ?_
      intro condition rest restShorter
      refine (below.statement _ rest (by omega)).andThen ?_
      intro body final finalShorter
      simp only [pure_apply, Parsed.within_done]
      omega
  split
  · next isIf =>
      have shorter : tokens.tail.length < tokens.length :=
        tail_length_lt isStop (by rw [isIf]; decide)
      simp only [bind_apply, advance_apply, Parsed.done_andThen]
      refine
        ((expressionsEnd isStop fuel).expression tokens.tail
          (by omega)).andThen ?_
      intro condition rest restShorter
      refine (below.statement _ rest (by omega)).andThen ?_
      intro body later laterShorter
      refine (below.branches _ later (by omega)).andThen ?_
      intro more final finalShorter
      simp only [pure_apply, Parsed.within_done]
      omega
  split
  · next isBreak =>
      have shorter : tokens.tail.length < tokens.length :=
        tail_length_lt isStop (by rw [isBreak]; decide)
      simp only [bind_apply, advance_apply, Parsed.done_andThen]
      refine (allowed_within _ _ _).andThen ?_
      intro _ rest restShorter
      simp only [pure_apply, Parsed.within_done]
      omega
  split
  · next isContinue =>
      have shorter : tokens.tail.length < tokens.length :=
        tail_length_lt isStop (by rw [isContinue]; decide)
      simp only [bind_apply, advance_apply, Parsed.done_andThen]
      refine (allowed_within _ _ _).andThen ?_
      intro _ rest restShorter
      simp only [pure_apply, Parsed.within_done]
      omega
  split
  · next isReturn =>
      exact
        returnStatement_within isStop surroundings
          (by rw [isReturn]; decide) (by omega)
  · simp only [bind_apply]
    refine
      ((expressionsEnd isStop fuel).expression tokens (by omega)).andThen ?_
    intro inner rest restShorter
    simpa using restShorter

theorem branches_within_succ
    (isStop : stop.kind = .endOfInput)
    {fuel : Nat}
    (below : StatementsEnd stop fuel)
    (surroundings : Surroundings)
    (tokens : List Token)
    (enough : 13 * tokens.length + 1 ≤ fuel + 1) :
    (branches (fuel + 1) surroundings stop tokens).Within
      (tokens.length + 1) := by
  simp only [branches, bind_apply]
  refine (skipNewlineBeforeBranch_within stop tokens).andThen ?_
  intro _ start startShorter
  simp only [accept]
  split
  · next isElif =>
      have shorter : start.tail.length < start.length :=
        tail_length_lt isStop (by rw [isElif]; decide)
      simp only [Parsed.done_andThen, ↓reduceIte, bind_apply]
      refine
        ((expressionsEnd isStop fuel).expression start.tail
          (by omega)).andThen ?_
      intro condition rest restShorter
      refine (below.statement _ rest (by omega)).andThen ?_
      intro body later laterShorter
      refine (below.branches _ later (by omega)).andThen ?_
      intro more final finalShorter
      simp only [pure_apply, Parsed.within_done]
      omega
  · simp only [Parsed.done_andThen, Bool.false_eq_true, ↓reduceIte, bind_apply,
      accept]
    split
    · next isElse =>
        have shorter : start.tail.length < start.length :=
          tail_length_lt isStop (by rw [isElse]; decide)
        simp only [Parsed.done_andThen, ↓reduceIte, bind_apply]
        refine (below.statement _ start.tail (by omega)).andThen ?_
        intro body rest restShorter
        simp only [pure_apply, Parsed.within_done]
        omega
    · simpa using startShorter

theorem block_within_succ
    (isStop : stop.kind = .endOfInput)
    {fuel : Nat}
    (below : StatementsEnd stop fuel)
    (surroundings : Surroundings)
    (tokens : List Token)
    (enough : 13 * tokens.length + 1 ≤ fuel + 1) :
    (block (fuel + 1) surroundings stop tokens).Within tokens.length := by
  simp only [block, bind_apply]
  refine (expect_within isStop (by decide)).andThen ?_
  intro opening rest restShorter
  refine (below.statements _ rest (by omega)).andThen ?_
  intro body later laterShorter
  refine (expect_within isStop (by decide)).andThen ?_
  intro closing final finalShorter
  simp only [pure_apply, Parsed.within_done]
  omega

theorem statements_within_succ
    {fuel : Nat}
    (below : StatementsEnd stop fuel)
    (surroundings : Surroundings)
    (tokens : List Token)
    (enough : 13 * tokens.length + 13 ≤ fuel + 1) :
    (statements (fuel + 1) surroundings stop tokens).Within
      (tokens.length + 1) := by
  simp only [statements, bind_apply]
  refine (skipNewlines_within stop tokens).andThen ?_
  intro _ start startShorter
  simp only [peekKind_apply, Parsed.done_andThen]
  split
  · simpa using startShorter
  · simp only [bind_apply]
    refine (below.declaration _ start (by omega)).andThen ?_
    intro first rest restShorter
    refine (terminate_within surroundings).andThen ?_
    intro _ later laterShorter
    refine (below.statements _ later (by omega)).andThen ?_
    intro others final finalShorter
    simp only [pure_apply, Parsed.within_done]
    omega

/-- The stated numbers of steps are enough for all statements. -/
theorem statementsEnd
    (isStop : stop.kind = .endOfInput)
    (fuel : Nat) :
    StatementsEnd stop fuel := by
  induction fuel with
  | zero =>
      constructor
      all_goals
        intro surroundings tokens enough
        omega
  | succ fuel below =>
      exact
        { declaration := declaration_within_succ isStop below
          statement := statement_within_succ isStop below
          branches := branches_within_succ isStop below
          block := block_within_succ isStop below
          statements := statements_within_succ below }

end Parser

end Scriptlet
