import Scriptlet.Proofs.Grammar.PromptExpressions

namespace Scriptlet

/-!
# Programs fail promptly

The functions of the grammar for statements are refused at the first token that the
tokens before it do not allow.  A conditional looks one token past a line break to see
whether a further branch follows; it is never refused at that line break, so the token
that it is refused at is not passed over.
-/

namespace Parser

/-! ## Names -/

theorem parameterNames_of_ne
    {stop : Token}
    {tokens : List Token}
    (notName : (tokens.headD stop).kind ≠ .identifier) :
    parameterNames stop tokens =
      .refused (.expectedToken .identifier (tokens.headD stop).kind)
        (tokens.headD stop) := by
  cases tokens with
  | nil => rfl
  | cons token rest =>
      rw [parameterNames.eq_def]
      exact if_neg notName

/-- Names are refused where a name is missing, whatever follows. -/
theorem refuses_parameterNames
    {stop token : Token}
    {tokens : List Token}
    {fault : SyntaxFault}
    (isStop : stop.kind = .endOfInput)
    (refused : parameterNames stop tokens = .refused fault token) :
    ∃ used rest, tokens = used ++ rest ∧ rest.headD stop = token ∧
      NamesBegun used ∧
      ∀ otherStop other, other.headD otherStop = token →
        parameterNames otherStop (used ++ other) = .refused fault token := by
  fun_induction parameterNames stop tokens with
  | case1 stop =>
      cases refused
      refine ⟨[], [], rfl, rfl, .nil, ?_⟩
      rintro otherStop other rfl
      exact parameterNames_of_ne (isStop ▸ by decide)
  | case2 => cases refused
  | case3 stop name isName separator later isComma inductionHypothesis =>
      cases others : parameterNames stop later with
      | done names rest =>
          rw [others] at refused
          cases refused
      | exhausted =>
          rw [others] at refused
          cases refused
      | refused otherFault otherToken =>
          rw [others] at refused inductionHypothesis
          cases refused
          obtain ⟨used, rest, rfl, isToken, begun, refuses⟩ :=
            inductionHypothesis isStop rfl
          refine ⟨name :: separator :: used, rest, rfl, isToken,
            begun.more isName isComma, ?_⟩
          intro otherStop other isHead
          simp [parameterNames, isName, isComma, refuses otherStop other isHead]
  | case4 => cases refused
  | case5 stop name rest notName =>
      cases refused
      refine ⟨[], _, rfl, rfl, .nil, ?_⟩
      rintro otherStop other rfl
      exact parameterNames_of_ne notName

theorem prompt_parameterNames
    {stop : Token}
    (isStop : stop.kind = .endOfInput)
    (fuel : Nat)
    (tokens : List Token) :
    Prompt (fun _ => parameterNames) NamesBegun fuel stop tokens := by
  intro fault token refused
  obtain ⟨used, rest, isTokens, isToken, begun, refuses⟩ :=
    refuses_parameterNames isStop refused
  exact ⟨used, rest, isTokens, isToken, begun,
    fun otherStop other _ isHead => ⟨0, fun _ _ => refuses otherStop other isHead⟩⟩

theorem reader_parameterNames :
    Reader (fun _ => parameterNames) NamesReadFrom SameKind where
  reads := by
    intro fuel stop tokens names rest isStop found
    have reads := (parameterNames_eq_done_iff isStop).mp found
    obtain ⟨used, rfl, _⟩ := reads.replaceable
    exact ⟨used, rfl, reads⟩
  settles := by
    intro stop used names rest other isStop reads same
    have replaced := reads.replaced other (same ▸ reads.notComma)
    exact ⟨0, fun _ _ => (parameterNames_eq_done_iff isStop).mpr replaced⟩

theorem reader_parameters :
    Reader (fun _ => parameters) ParametersReadFrom SameKind where
  reads := by
    intro fuel stop tokens names rest isStop found
    have reads := (parameters_eq_done_iff isStop).mp found
    obtain ⟨used, rfl, _⟩ := reads.replaceable
    exact ⟨used, rfl, reads⟩
  settles := by
    intro stop used names rest other isStop reads _
    have replaced := reads.replaced other
    exact ⟨0, fun _ _ => (parameters_eq_done_iff isStop).mpr replaced⟩

theorem prompt_parameters
    {stop : Token}
    (isStop : stop.kind = .endOfInput)
    (fuel : Nat)
    (tokens : List Token) :
    Prompt (fun _ => parameters) ParametersBegun fuel stop tokens := by
  unfold parameters
  apply Prompt.expect_bind isStop (by decide) .nil
  rintro opening rest rfl isOpening
  apply Prompt.peekKind isStop
  by_cases atClosing : nextKind rest = .rightParen
  · simp only [if_pos atClosing]
    exact .of_done rfl
  · simp only [if_neg atClosing]
    apply Prompt.bind_near isStop reader_parameterNames
    · apply (prompt_parameterNames isStop fuel rest).mono
      intro used _ _ begun
      exact .names isOpening begun
    intro names used later _ readNames
    apply Prompt.map
    apply Prompt.expect
    rw [List.append_nil]
    exact .closing isOpening readNames

/-! ## Parts of programs -/

/-- The function for a part of programs finds what the rules allow. -/
theorem Reader.of_statementPart
    {part : α → StatementPart}
    {read : Nat → Parser α}
    {Same : List Token → List Token → Prop}
    (isParser : ∀ fuel stop value tokens rest,
      (part value).ParsedBy fuel stop tokens rest ↔
        read fuel stop tokens = .done value rest)
    (follows : ∀ value tokens rest other, (part value).ReadFrom tokens rest →
      Same rest other → (part value).Follows rest other) :
    Reader read (fun value => (part value).ReadFrom) Same where
  reads := by
    intro fuel stop tokens value rest isStop found
    have reads := StatementPart.readFrom_of_parsedBy isStop (part value)
      ((isParser _ _ _ _ _).mpr found)
    obtain ⟨used, rfl, _⟩ := reads.replaceable
    exact ⟨used, rfl, reads⟩
  settles := by
    intro stop used value rest other isStop reads same
    have replaced := reads.replaced other (follows _ _ _ _ reads same)
    exact ⟨_, fun fuel isEnough =>
      (isParser _ _ _ _ _).mp (replaced.parsedBy isStop fuel isEnough)⟩

section

variable (around : Surroundings)

theorem reader_declaration :
    Reader (fun fuel => declaration fuel around)
      (fun result => (StatementPart.declaration around result).ReadFrom)
      StartsAlike :=
  .of_statementPart (fun _ _ _ _ _ => Iff.rfl) (fun _ _ _ _ _ alike => .inl alike)

theorem reader_statement :
    Reader (fun fuel => statement fuel around)
      (fun result => (StatementPart.statement around result).ReadFrom)
      StartsAlike :=
  .of_statementPart (fun _ _ _ _ _ => Iff.rfl) (fun _ _ _ _ _ alike => .inl alike)

theorem reader_statements :
    Reader (fun fuel => statements fuel around)
      (fun body => (StatementPart.statements around body).ReadFrom) SameKind := by
  apply Reader.of_statementPart (fun _ _ _ _ _ => Iff.rfl)
  intro body tokens rest other reads same
  exact (congrArg around.endedBy same).trans reads.endedBy

end

/-! ## Ends of statements -/

theorem reader_terminate (around : Surroundings) :
    Reader (fun _ => terminate around) (fun _ => EndsStatement around) SameKind where
  reads := by
    intro fuel stop tokens _ rest isStop found
    have ends := (terminate_eq_done_iff isStop).mp found
    obtain ⟨used, rfl⟩ := ends.suffix
    exact ⟨used, rfl, ends⟩
  settles := by
    intro stop used _ rest other isStop ends same
    refine ⟨0, fun _ _ => (terminate_eq_done_iff isStop).mpr ?_⟩
    rcases ends.cases with ⟨token, rfl, isBreak⟩ | ⟨rfl, isEnded⟩
    · exact .newline isBreak
    · have closed := Surroundings.closedBy_of_endedBy isEnded
      rw [← same] at closed
      exact .closed closed.1 closed.2

theorem prompt_terminate
    {Opens : List Token → Prop}
    {around : Surroundings}
    {fuel : Nat}
    {stop : Token}
    {tokens : List Token}
    (opens : Opens []) :
    Prompt (fun _ => terminate around) Opens fuel stop tokens := by
  apply Prompt.at_head opens
  intro fault token refused
  simp only [terminate, bind_apply, peek_apply, Parsed.done_andThen] at refused
  split at refused
  · cases refused
  split at refused
  · cases refused
  · next notBreak notClosed =>
      cases refused
      refine ⟨rfl, ?_⟩
      intro otherStop other _ isHead
      refine ⟨0, fun _ _ => ?_⟩
      simp only [terminate, bind_apply, peek_apply, Parsed.done_andThen,
        List.nil_append, isHead, if_neg notBreak, if_neg notClosed, refuse_apply]

/-- Reading no statement is never refused. -/
theorem prompt_statements_of_ended
    {Opens : List Token → Prop}
    {around : Surroundings}
    {fuel : Nat}
    {stop : Token}
    {tokens : List Token}
    (isStop : stop.kind = .endOfInput)
    (isEnded : around.endedBy (nextKind tokens) = true) :
    Prompt (fun fuel => statements fuel around) Opens fuel stop tokens := by
  have notBreak := (Surroundings.closedBy_of_endedBy isEnded).1
  cases fuel with
  | zero => exact .of_exhausted rfl
  | succ fuel =>
      have found : statements (fuel + 1) around stop tokens = .done [] tokens := by
        simp only [statements, bind_apply, skipNewlines_eq, Parsed.done_andThen,
          skipBreaks_of_ne notBreak, peekKind_eq isStop, if_pos isEnded, pure_apply]
      exact .of_done found

/-! ## Statements -/

/-- A keyword that is only allowed in some surroundings is refused itself. -/
theorem Prompt.advance_allowed
    {Opens : List Token → Prop}
    {next : Nat → Token → Parser α}
    {condition : Bool}
    {fault : SyntaxFault}
    {fuel : Nat}
    {stop keyword : Token}
    {rest : List Token}
    (opens : Opens [])
    (prompt : condition = true →
      Prompt (fun fuel => next fuel keyword) (fun more => Opens (keyword :: more))
        fuel stop rest) :
    Prompt
      (fun fuel => Parser.advance >>= fun token =>
        allowed condition fault token >>= fun _ => next fuel token)
      Opens fuel stop (keyword :: rest) := by
  cases condition with
  | true =>
      apply Prompt.advance
      exact prompt rfl
  | false =>
      apply Prompt.at_head opens
      intro found token refused
      cases refused
      refine ⟨rfl, ?_⟩
      rintro otherStop other _ rfl
      exact ⟨0, fun _ _ => rfl⟩

/-- A line break in front of the keyword of a branch is skipped, whatever follows the
keyword. -/
theorem skipBranchBreak_keyword
    {breaks rest : List Token}
    {keyword : Token}
    (skipped : skipBranchBreak (breaks ++ keyword :: rest) = keyword :: rest)
    (notBreak : keyword.kind ≠ .newline)
    (other : List Token) :
    skipBranchBreak (breaks ++ keyword :: other) = keyword :: other :=
  skipBranchBreak_append skipped (.of_ne rfl notBreak)

/-- The functions for statements fail promptly.  Further branches are never refused in
front of their keyword. -/
structure StatementsPrompt (stop : Token) (fuel : Nat) : Prop where
  declaration : ∀ around tokens,
    Prompt (fun fuel => declaration fuel around)
      (StatementPart.Begun (.declaration around)) fuel stop tokens
  statement : ∀ around tokens,
    Prompt (fun fuel => statement fuel around)
      (StatementPart.Begun (.statement around)) fuel stop tokens
  branches : ∀ around tokens,
    Prompt (fun fuel => branches fuel around)
      (fun used => StatementPart.Begun (StatementPart.branchesOf around) used ∧
        ∃ token ∈ used, token.kind ≠ .newline)
      fuel stop tokens
  block : ∀ around tokens,
    Prompt (fun fuel => block fuel around)
      (StatementPart.Begun (StatementPart.blockOf around)) fuel stop tokens
  statements : ∀ around tokens,
    Prompt (fun fuel => statements fuel around)
      (StatementPart.Begun (.statements around)) fuel stop tokens

section

variable
  {stop : Token}
  {fuel : Nat}
  (isStop : stop.kind = .endOfInput)

include isStop

theorem prompt_variableDeclaration
    {around : Surroundings}
    {tokens : List Token}
    (isVariable : nextKind tokens = .varKeyword ∨ nextKind tokens = .constKeyword) :
    Prompt variableDeclaration (StatementPart.Begun (.declaration around)) fuel stop
      tokens := by
  have notAtEnd : nextKind tokens ≠ .endOfInput := by
    rcases isVariable with isVar | isConst
    · rw [isVar]
      decide
    · rw [isConst]
      decide
  obtain ⟨keyword, behind, rfl, _⟩ := exists_cons_of_nextKind notAtEnd
  unfold variableDeclaration
  apply Prompt.advance
  apply Prompt.expect_bind isStop (by decide) (.variable_keyword isVariable)
  rintro name afterName rfl isName
  apply Prompt.expect_bind isStop (by decide) (.variable_name isVariable isName)
  rintro equals afterEquals rfl isEqual
  apply Prompt.map
  apply ((expressionsPrompt isStop fuel).expression afterEquals).mono
  intro used _ _ begun
  exact .variable_value isVariable isName isEqual begun

theorem prompt_returnStatement
    {around : Surroundings}
    {tokens : List Token}
    (isReturn : nextKind tokens = .returnKeyword) :
    Prompt (fun fuel => returnStatement fuel around)
      (StatementPart.Begun (.statement around)) fuel stop tokens := by
  obtain ⟨keyword, behind, rfl, _⟩ :=
    exists_cons_of_nextKind (isReturn ▸ by decide : nextKind tokens ≠ _)
  unfold returnStatement
  apply Prompt.advance_allowed .statement_nil
  intro inFunction
  apply Prompt.peekKind isStop
  by_cases isClosed : around.closedBy (nextKind behind) = true
  · simp only [if_pos isClosed]
    exact .of_done rfl
  · simp only [if_neg isClosed]
    apply Prompt.map
    apply ((expressionsPrompt isStop fuel).expression behind).mono
    intro used _ _ begun
    exact .returnValue isReturn inFunction begun

variable (below : StatementsPrompt stop fuel)

include below

theorem prompt_declaration_succ (around : Surroundings) (tokens : List Token) :
    Prompt (fun fuel => declaration fuel around)
      (StatementPart.Begun (.declaration around)) (fuel + 1) stop tokens := by
  apply Prompt.step (fun fuel => by simp only [declaration]; rfl)
  apply Prompt.peekKind isStop
  by_cases isVariable : nextKind tokens = .varKeyword ∨ nextKind tokens = .constKeyword
  · simp only [if_pos isVariable]
    exact prompt_variableDeclaration isStop isVariable
  simp only [if_neg isVariable]
  by_cases isFunction : nextKind tokens = .functionKeyword
  · simp only [if_pos isFunction]
    obtain ⟨keyword, behind, rfl, _⟩ :=
      exists_cons_of_nextKind (isFunction ▸ by decide : nextKind tokens ≠ _)
    apply Prompt.advance
    apply Prompt.expect_bind isStop (by decide) (.function_keyword isFunction)
    rintro name afterName rfl isName
    apply Prompt.bind_near isStop reader_parameters
    · apply (prompt_parameters isStop fuel afterName).mono
      intro used _ _ begun
      exact .function_parameters isFunction isName begun
    intro names used later _ readNames
    apply Prompt.map
    apply (below.block around.insideFunction later).mono
    intro more _ _ begun
    exact .function_body isFunction isName readNames begun
  · simp only [if_neg isFunction]
    apply (below.statement around tokens).mono
    intro used _ _ begun
    exact .simple begun

/-- A condition, what it guards and the further branches of a conditional. -/
theorem prompt_guarded
    (around : Surroundings)
    (result : Expression → Statement →
      List (Expression × Statement) × Option Statement → α)
    (tokens : List Token) :
    Prompt
      (fun fuel => do
        let condition ← expression fuel
        let body ← statement fuel around
        let more ← branches fuel around
        pure (result condition body more))
      (StatementPart.GuardedBegun around) fuel stop tokens := by
  apply Prompt.bind_near isStop reader_expression
  · apply ((expressionsPrompt isStop fuel).expression tokens).mono
    intro used _ _ begun
    exact .test begun
  intro condition used afterTest _ readTest
  apply Prompt.bind_far isStop (reader_statement around)
  · apply (below.statement around afterTest).mono
    rintro more rest rfl begun
    exact .body readTest begun
  rintro body usedBody afterBody rfl readBody
  apply Prompt.map
  apply (below.branches around afterBody).mono
  rintro more rest rfl ⟨begun, someWord⟩
  constructor
  · exact .branches readTest readBody someWord begun
  · obtain ⟨token, member, _⟩ := someWord
    intro _
    exact List.ne_nil_of_mem member

theorem prompt_statement_succ (around : Surroundings) (tokens : List Token) :
    Prompt (fun fuel => statement fuel around)
      (StatementPart.Begun (.statement around)) (fuel + 1) stop tokens := by
  apply Prompt.step (fun fuel => by simp only [statement]; rfl)
  apply Prompt.peekKind isStop
  by_cases isBlock : nextKind tokens = .leftBrace
  · simp only [if_pos isBlock]
    apply Prompt.map
    apply (below.block around tokens).mono
    intro used _ _ begun
    exact .statement_of_block begun
  simp only [if_neg isBlock]
  by_cases isWhile : nextKind tokens = .whileKeyword
  · simp only [if_pos isWhile]
    obtain ⟨keyword, behind, rfl, _⟩ :=
      exists_cons_of_nextKind (isWhile ▸ by decide : nextKind tokens ≠ _)
    apply Prompt.advance
    apply Prompt.bind_near isStop reader_expression
    · apply ((expressionsPrompt isStop fuel).expression behind).mono
      intro used _ _ begun
      exact .whileLoop_test isWhile begun
    intro condition used later _ readTest
    apply Prompt.map
    apply (below.statement around.insideLoop later).mono
    rintro more rest rfl begun
    exact .whileLoop_body isWhile readTest begun
  simp only [if_neg isWhile]
  by_cases isIf : nextKind tokens = .ifKeyword
  · simp only [if_pos isIf]
    obtain ⟨keyword, behind, rfl, _⟩ :=
      exists_cons_of_nextKind (isIf ▸ by decide : nextKind tokens ≠ _)
    apply Prompt.advance
    apply (prompt_guarded isStop below around _ behind).mono
    intro used _ _ begun
    exact .conditional isIf begun
  simp only [if_neg isIf]
  by_cases isBreak : nextKind tokens = .breakKeyword
  · simp only [if_pos isBreak]
    obtain ⟨keyword, behind, rfl, _⟩ :=
      exists_cons_of_nextKind (isBreak ▸ by decide : nextKind tokens ≠ _)
    apply Prompt.advance_allowed .statement_nil
    intro _
    exact .of_done rfl
  simp only [if_neg isBreak]
  by_cases isContinue : nextKind tokens = .continueKeyword
  · simp only [if_pos isContinue]
    obtain ⟨keyword, behind, rfl, _⟩ :=
      exists_cons_of_nextKind (isContinue ▸ by decide : nextKind tokens ≠ _)
    apply Prompt.advance_allowed .statement_nil
    intro _
    exact .of_done rfl
  simp only [if_neg isContinue]
  by_cases isReturn : nextKind tokens = .returnKeyword
  · simp only [if_pos isReturn]
    exact prompt_returnStatement isStop isReturn
  · simp only [if_neg isReturn]
    apply Prompt.map
    apply ((expressionsPrompt isStop fuel).expression tokens).mono
    intro used _ _ begun
    exact .expression begun

theorem prompt_branches_succ (around : Surroundings) (tokens : List Token) :
    Prompt (fun fuel => branches fuel around)
      (fun used => StatementPart.Begun (StatementPart.branchesOf around) used ∧
        ∃ token ∈ used, token.kind ≠ .newline)
      (fuel + 1) stop tokens := by
  apply Prompt.step (fun fuel => by simp only [branches]; rfl)
  apply Prompt.bind_far isStop reader_skipNewlineBeforeBranch
    (.of_done (skipNewlineBeforeBranch_eq stop tokens))
  intro _ breaks start _ skipped
  apply Prompt.accept_bind isStop (by decide)
  · rintro keyword behind rfl isElif
    have notBreak : keyword.kind ≠ .newline := isElif ▸ by decide
    simp only [if_pos]
    apply (prompt_guarded isStop below around _ behind).mono
    intro used _ _ begun
    exact ⟨⟨.elifBranch (skipBranchBreak_keyword skipped notBreak) isElif begun,
      keyword, by simp, notBreak⟩, fun _ => List.cons_ne_nil _ _⟩
  intro notElif
  simp only [Bool.false_eq_true, if_false]
  apply Prompt.accept_bind isStop (by decide)
  · rintro keyword behind rfl isElse
    have notBreak : keyword.kind ≠ .newline := isElse ▸ by decide
    simp only [if_pos]
    apply Prompt.map
    apply (below.statement around behind).mono
    intro used _ _ begun
    exact ⟨⟨.elseBranch (skipBranchBreak_keyword skipped notBreak) isElse begun,
      keyword, by simp, notBreak⟩, fun _ => List.cons_ne_nil _ _⟩
  · intro notElse
    exact .of_done rfl

theorem prompt_block_succ (around : Surroundings) (tokens : List Token) :
    Prompt (fun fuel => block fuel around)
      (StatementPart.Begun (StatementPart.blockOf around)) (fuel + 1) stop tokens := by
  apply Prompt.step (fun fuel => by simp only [block]; rfl)
  apply Prompt.expect_bind isStop (by decide) .block_nil
  rintro opening behind rfl isOpening
  apply Prompt.bind_near isStop (reader_statements around.insideBlock)
  · apply (below.statements around.insideBlock behind).mono
    intro used _ _ begun
    exact .block_content isOpening begun
  intro body used later _ readBody
  apply Prompt.map
  apply Prompt.expect
  rw [List.append_nil]
  exact .block_closing isOpening readBody

/-- What follows a declaration in a list of statements. -/
theorem prompt_behindDeclaration
    {around : Surroundings}
    {result : Statement}
    {breaks used later : List Token}
    (behindBreaks :
      ∀ other, nextKind other ≠ .newline → skipBreaks (breaks ++ other) = other)
    (readFirst : (StatementPart.declaration around result).ReadFrom (used ++ later)
      later) :
    Prompt
      (fun fuel => do
        terminate around
        let rest ← statements fuel around
        pure (result :: rest))
      (fun more =>
        StatementPart.Begun (.statements around) (breaks ++ (used ++ more)) ∧
          (nextKind later = .newline → more ≠ []))
      fuel stop later := by
  apply Prompt.bind_near isStop (reader_terminate around)
  · by_cases isBreak : nextKind later = .newline
    · obtain ⟨token, behind, rfl, _⟩ :=
        exists_cons_of_nextKind (isBreak ▸ by decide : nextKind later ≠ _)
      exact .of_done ((terminate_eq_done_iff isStop).mpr (.newline isBreak))
    · apply prompt_terminate
      rw [List.append_nil]
      exact ⟨.statements_end behindBreaks readFirst, fun isBreak' => (isBreak isBreak').elim⟩
  intro _ usedEnd next isLater ends
  apply Prompt.map
  rcases ends.cases with ⟨token, rfl, isBreak⟩ | ⟨rfl, isEnded⟩
  · apply (below.statements around next).mono
    intro more _ _ begun
    exact ⟨.statements_others behindBreaks readFirst isBreak begun,
      fun _ => List.cons_ne_nil _ _⟩
  · exact prompt_statements_of_ended isStop isEnded

theorem prompt_statements_succ (around : Surroundings) (tokens : List Token) :
    Prompt (fun fuel => statements fuel around)
      (StatementPart.Begun (.statements around)) (fuel + 1) stop tokens := by
  apply Prompt.step (fun fuel => by simp only [statements]; rfl)
  obtain ⟨breaks, isTokens, behindBreaks⟩ := exists_of_skipBreaks tokens
  apply Prompt.bind_near isStop reader_skipNewlines
    (.of_done (skipNewlines_eq stop tokens))
  rintro _ skipped start rfl isStart
  rw [isStart] at isTokens
  obtain rfl := List.append_cancel_right isTokens
  apply Prompt.peekKind isStop
  by_cases isEnded : around.endedBy (nextKind start) = true
  · simp only [if_pos isEnded]
    exact .of_done rfl
  simp only [if_neg isEnded]
  apply Prompt.bind_far isStop (reader_declaration around)
  · apply (below.declaration around start).mono
    intro used _ _ begun
    exact .statements_first behindBreaks begun
  rintro first used later rfl readFirst
  exact prompt_behindDeclaration isStop below behindBreaks readFirst

end

/-- All functions for statements fail promptly. -/
theorem statementsPrompt
    {stop : Token}
    (isStop : stop.kind = .endOfInput)
    (fuel : Nat) :
    StatementsPrompt stop fuel := by
  induction fuel with
  | zero =>
      constructor
      all_goals
        intro around tokens
        exact .of_exhausted rfl
  | succ fuel below =>
      exact
        { declaration := prompt_declaration_succ isStop below
          statement := prompt_statement_succ isStop below
          branches := prompt_branches_succ isStop below
          block := prompt_block_succ isStop below
          statements := prompt_statements_succ isStop below }

end Parser

end Scriptlet
