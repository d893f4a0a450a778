import Scriptlet.Grammar.Parse
import Scriptlet.Proofs.Grammar.AcceptedExpressions

namespace Scriptlet

/-!
# Readings of programs

The functions of the grammar for statements find exactly the readings that the
rules of `Proofs.Grammar.Reading` allow.  Main statement: tokens are accepted as a
program exactly if the program is read from all tokens before the end of the
input.
-/

namespace Parsed

theorem of_result_eq_ok
    {parsed : Parsed α}
    {finished : parsed ≠ .exhausted}
    {value : α}
    (isOk : parsed.result finished = .ok value) :
    ∃ rest, parsed = .done value rest := by
  cases parsed with
  | done found rest =>
      rw [result_done, Except.ok.injEq] at isOk
      exact ⟨rest, by rw [isOk]⟩
  | refused fault token => cases isOk
  | exhausted => exact (finished rfl).elim

theorem result_eq_ok
    {parsed : Parsed α}
    {value : α}
    {rest : List Token}
    (isDone : parsed = .done value rest)
    (finished : parsed ≠ .exhausted) :
    parsed.result finished = .ok value := by
  subst isDone
  rfl

end Parsed

/-! ## Names, ends of statements and line breaks -/

/-- Names start with a name. -/
theorem NamesReadFrom.nextKind_eq
    {names : List String}
    {tokens rest : List Token}
    (read : NamesReadFrom names tokens rest) :
    nextKind tokens = .identifier := by
  cases read with
  | last isName _ => exact isName
  | more isName _ _ => exact isName

namespace Parser

theorem skipNewlines_eq (stop : Token) (tokens : List Token) :
    skipNewlines stop tokens = .done () (skipBreaks tokens) :=
  rfl

theorem skipNewlineBeforeBranch_eq (stop : Token) (tokens : List Token) :
    skipNewlineBeforeBranch stop tokens = .done () (skipBranchBreak tokens) := by
  unfold skipNewlineBeforeBranch
  split
  · next first second rest =>
      rw [skipBranchBreak]
      split <;> rfl
  · next notTwo =>
      rw [skipBranchBreak]
      exact notTwo

/-- A name with no comma behind it is the last one. -/
theorem parameterNames_last
    {stop name : Token}
    {rest : List Token}
    (isName : name.kind = .identifier)
    (notComma : nextKind rest ≠ .comma) :
    parameterNames stop (name :: rest) = .done [name.lexeme] rest := by
  cases rest with
  | nil => simp [parameterNames, isName]
  | cons separator later =>
      rw [nextKind_cons] at notComma
      simp [parameterNames, isName, notComma]

/-- A statement that is allowed where it stands consumes nothing by that. -/
theorem allowed_eq_done
    {condition : Bool}
    {fault : SyntaxFault}
    {token stop : Token}
    {tokens rest : List Token}
    (permitted : allowed condition fault token stop tokens = .done () rest) :
    condition = true ∧ tokens = rest := by
  cases condition with
  | true =>
      obtain ⟨_, rfl⟩ := Parsed.done_eq_done permitted
      exact ⟨rfl, rfl⟩
  | false => cases permitted

variable {stop : Token} (isStop : stop.kind = .endOfInput)

include isStop

theorem parameterNames_eq_done_iff
    {names : List String}
    {tokens rest : List Token} :
    parameterNames stop tokens = .done names rest ↔
      NamesReadFrom names tokens rest := by
  constructor
  · intro parsed
    fun_induction parameterNames stop tokens generalizing names with
    | case1 => cases parsed
    | case2 stop name isName =>
        obtain ⟨rfl, rfl⟩ := Parsed.done_eq_done parsed
        exact .last isName (by decide)
    | case3 stop name isName separator later isComma inductionHypothesis =>
        obtain ⟨others, _, othersParsed, parsed⟩ := Parsed.andThen_eq_done parsed
        obtain ⟨rfl, rfl⟩ := Parsed.done_eq_done parsed
        exact .more isName isComma (inductionHypothesis isStop othersParsed)
    | case4 stop name isName separator later notComma =>
        obtain ⟨rfl, rfl⟩ := Parsed.done_eq_done parsed
        exact .last isName notComma
    | case5 => cases parsed
  · intro read
    induction read with
    | last isName notComma => exact parameterNames_last isName notComma
    | more isName isComma others othersParsed =>
        simp [parameterNames, isName, isComma, othersParsed]

theorem parameters_eq_done_iff
    {names : List String}
    {tokens rest : List Token} :
    parameters stop tokens = .done names rest ↔
      ParametersReadFrom names tokens rest := by
  constructor
  · intro parsed
    simp only [parameters, bind_apply] at parsed
    obtain ⟨opening, behind, openingExpected, inside⟩ :=
      Parsed.andThen_eq_done parsed
    obtain ⟨rfl, isOpening⟩ := cons_of_expect isStop (by decide) openingExpected
    rw [peekKind_eq isStop, Parsed.done_andThen] at inside
    by_cases atClosing : nextKind behind = .rightParen
    · obtain ⟨closing, later, rfl, _⟩ :=
        exists_cons_of_nextKind (atClosing ▸ by decide : nextKind behind ≠ _)
      rw [if_pos atClosing] at inside
      obtain ⟨rfl, rfl⟩ := Parsed.done_eq_done inside
      exact .none isOpening atClosing
    · rw [if_neg atClosing] at inside
      obtain ⟨given, later, namesParsed, closed⟩ := Parsed.andThen_eq_done inside
      obtain ⟨closing, final, closingExpected, finished⟩ :=
        Parsed.andThen_eq_done closed
      obtain ⟨rfl, isClosing⟩ := cons_of_expect isStop (by decide) closingExpected
      obtain ⟨rfl, rfl⟩ := Parsed.done_eq_done finished
      exact .some isOpening ((parameterNames_eq_done_iff isStop).mp namesParsed)
        isClosing
  · intro read
    cases read with
    | none isOpening isClosing =>
        simp [parameters, expect_cons isOpening, isClosing]
    | some isOpening given isClosing =>
        have parsed := (parameterNames_eq_done_iff isStop).mpr given
        simp [parameters, expect_cons isOpening, peekKind_eq isStop,
          given.nextKind_eq, parsed, expect_cons isClosing, -peekKind_apply]

theorem terminate_eq_done_iff
    {around : Surroundings}
    {tokens rest : List Token} :
    terminate around stop tokens = .done () rest ↔
      EndsStatement around tokens rest := by
  have kindOf : (tokens.headD stop).kind = nextKind tokens := by
    cases tokens with
    | nil => exact isStop
    | cons token rest => rfl
  simp only [terminate, bind_apply, peek_apply, Parsed.done_andThen, kindOf]
  constructor
  · intro parsed
    by_cases isBreak : nextKind tokens = .newline
    · obtain ⟨token, behind, rfl, _⟩ :=
        exists_cons_of_nextKind (isBreak ▸ by decide : nextKind tokens ≠ _)
      rw [if_pos isBreak] at parsed
      obtain ⟨_, rfl⟩ := Parsed.done_eq_done parsed
      exact .newline isBreak
    · rw [if_neg isBreak] at parsed
      by_cases isClosed : around.closedBy (nextKind tokens) = true
      · rw [if_pos isClosed] at parsed
        obtain ⟨_, rfl⟩ := Parsed.done_eq_done parsed
        exact .closed isBreak isClosed
      · rw [if_neg isClosed] at parsed
        cases parsed
  · intro ends
    cases ends with
    | newline isBreak => simp [isBreak]
    | closed notBreak isClosed => simp [notBreak, isClosed]

end Parser

/-! ## Where statements start, and how much they consume -/

theorem NamesReadFrom.suffix
    {names : List String}
    {tokens rest : List Token}
    (read : NamesReadFrom names tokens rest) :
    rest <:+ tokens := by
  induction read with
  | last => exact List.suffix_cons _ _
  | more _ _ _ behind =>
      exact behind.trans ((List.suffix_cons _ _).trans (List.suffix_cons _ _))

theorem ParametersReadFrom.suffix
    {names : List String}
    {tokens rest : List Token}
    (read : ParametersReadFrom names tokens rest) :
    rest <:+ tokens := by
  cases read with
  | none => exact (List.suffix_cons _ _).trans (List.suffix_cons _ _)
  | some _ given _ =>
      exact ((List.suffix_cons _ _).trans given.suffix).trans (List.suffix_cons _ _)

theorem EndsStatement.suffix
    {around : Surroundings}
    {tokens rest : List Token}
    (ends : EndsStatement around tokens rest) :
    rest <:+ tokens := by
  cases ends with
  | newline => exact List.suffix_cons _ _
  | closed => exact List.suffix_rfl

theorem skipBranchBreak_suffix (tokens : List Token) :
    skipBranchBreak tokens <:+ tokens := by
  unfold skipBranchBreak
  split
  · split
    · exact List.suffix_cons _ _
    · exact List.suffix_rfl
  · exact List.suffix_rfl

theorem suffix_of_skipBranchBreak
    {keyword : Token}
    {tokens rest : List Token}
    (atBranch : skipBranchBreak tokens = keyword :: rest) :
    rest <:+ tokens := by
  have behindBreak := skipBranchBreak_suffix tokens
  rw [atBranch] at behindBreak
  exact (List.suffix_cons _ _).trans behindBreak

theorem NamesReadFrom.length_lt
    {names : List String}
    {tokens rest : List Token}
    (read : NamesReadFrom names tokens rest) :
    rest.length < tokens.length := by
  induction read with
  | last => simp
  | more _ _ _ shorter =>
      simp only [List.length_cons]
      omega

theorem ParametersReadFrom.length_lt
    {names : List String}
    {tokens rest : List Token}
    (read : ParametersReadFrom names tokens rest) :
    rest.length < tokens.length := by
  cases read with
  | none => simp only [List.length_cons]; omega
  | some _ given _ =>
      have shorter := given.length_lt
      simp only [List.length_cons] at shorter ⊢
      omega

theorem EndsStatement.length_le
    {around : Surroundings}
    {tokens rest : List Token}
    (ends : EndsStatement around tokens rest) :
    rest.length ≤ tokens.length := by
  cases ends with
  | newline => simp
  | closed => exact Nat.le_refl _

theorem length_skipBreaks_le (tokens : List Token) :
    (skipBreaks tokens).length ≤ tokens.length :=
  (List.dropWhile_sublist _).length_le

theorem length_skipBranchBreak_le (tokens : List Token) :
    (skipBranchBreak tokens).length ≤ tokens.length := by
  unfold skipBranchBreak
  split
  · split <;> simp
  · exact Nat.le_refl _

theorem length_lt_of_skipBranchBreak
    {keyword : Token}
    {tokens rest : List Token}
    (atBranch : skipBranchBreak tokens = keyword :: rest) :
    rest.length < tokens.length := by
  have behindBreak := length_skipBranchBreak_le tokens
  rw [atBranch] at behindBreak
  exact behindBreak

/-- Without a further branch, no line break is skipped. -/
theorem skipBranchBreak_of_noBranch
    {tokens : List Token}
    (notElif : nextKind (skipBranchBreak tokens) ≠ .elifKeyword)
    (notElse : nextKind (skipBranchBreak tokens) ≠ .elseKeyword) :
    skipBranchBreak tokens = tokens := by
  unfold skipBranchBreak at *
  split
  · split
    · next atBranch =>
        simp only [atBranch, and_self, ↓reduceIte, nextKind_cons] at notElif notElse
        rcases atBranch.2 with isElif | isElse
        · exact (notElif isElif).elim
        · exact (notElse isElse).elim
    · rfl
  · rfl

namespace TokenKind

/-- Whatever starts an expression starts a statement. -/
theorem startsStatement_of_startsExpression
    {kind : TokenKind}
    (starts : kind.startsExpression = true) :
    kind.startsStatement = true := by
  cases kind <;> first | rfl | cases starts

/-- Whatever starts a statement starts a declaration. -/
theorem startsDeclaration_of_startsStatement
    {kind : TokenKind}
    (starts : kind.startsStatement = true) :
    kind.startsDeclaration = true := by
  cases kind <;> first | rfl | cases starts

/-- Kinds that start a statement differ from kinds that do not. -/
theorem ne_of_startsStatement
    {kind : TokenKind}
    (starts : kind.startsStatement = true)
    (other : TokenKind)
    (never : other.startsStatement = false) :
    kind ≠ other := by
  rintro rfl
  rw [starts] at never
  cases never

/-- Kinds that start a declaration differ from kinds that do not. -/
theorem ne_of_startsDeclaration
    {kind : TokenKind}
    (starts : kind.startsDeclaration = true)
    (other : TokenKind)
    (never : other.startsDeclaration = false) :
    kind ≠ other := by
  rintro rfl
  rw [starts] at never
  cases never

/-- Nothing that starts an expression closes a statement. -/
theorem not_closedBy_of_startsExpression
    {kind : TokenKind}
    (starts : kind.startsExpression = true)
    (around : Surroundings) :
    around.closedBy kind = false := by
  cases kind <;> first | rfl | cases starts

/-- Nothing that starts a declaration ends a list of statements. -/
theorem not_endedBy_of_startsDeclaration
    {kind : TokenKind}
    (starts : kind.startsDeclaration = true)
    (around : Surroundings) :
    around.endedBy kind = false := by
  cases kind <;> first | rfl | cases starts

end TokenKind

namespace StatementPart

/-- The kinds of tokens that a part can start with. -/
def StartsWith : StatementPart → TokenKind → Prop
  | .declaration _ _, kind => kind.startsDeclaration = true
  | .statement _ _, kind => kind.startsStatement = true
  | .block _ _ _, kind => kind = .leftBrace
  | _, _ => True

/-- Whether a part has at least one token of its own. -/
def isSolid : StatementPart → Bool
  | .branches _ _ _ | .statements _ _ => false
  | _ => true

theorem ReadFrom.startsWith
    {part : StatementPart}
    {tokens rest : List Token}
    (read : part.ReadFrom tokens rest) :
    part.StartsWith (nextKind tokens) := by
  induction read with
  | variableDeclaration isVariable _ _ _ =>
      rcases isVariable with isVar | isConst
      · simp only [StartsWith, nextKind_cons, isVar]
        rfl
      · simp only [StartsWith, nextKind_cons, isConst]
        rfl
  | functionDeclaration isFunction _ _ _ _ =>
      simp only [StartsWith, nextKind_cons, isFunction]
      rfl
  | simple _ starts => exact TokenKind.startsDeclaration_of_startsStatement starts
  | block _ starts =>
      simp only [StartsWith] at starts ⊢
      rw [starts]
      rfl
  | whileLoop isWhile _ _ _ =>
      simp only [StartsWith, nextKind_cons, isWhile]
      rfl
  | conditional isIf _ _ _ _ _ =>
      simp only [StartsWith, nextKind_cons, isIf]
      rfl
  | breakLoop isBreak _ =>
      simp only [StartsWith, nextKind_cons, isBreak]
      rfl
  | continueLoop isContinue _ =>
      simp only [StartsWith, nextKind_cons, isContinue]
      rfl
  | returnNothing isReturn _ _ =>
      simp only [StartsWith, nextKind_cons, isReturn]
      rfl
  | returnValue isReturn _ _ =>
      simp only [StartsWith, nextKind_cons, isReturn]
      rfl
  | expression inner =>
      exact TokenKind.startsStatement_of_startsExpression
        (inner.startsExpression rfl)
  | braces isOpening _ _ _ => exact isOpening
  | elifBranch | elseBranch | noBranch | noStatement | moreStatements => trivial

/-- The tokens that are left are the last ones of the tokens read from. -/
theorem ReadFrom.suffix
    {part : StatementPart}
    {tokens rest : List Token}
    (read : part.ReadFrom tokens rest) :
    rest <:+ tokens := by
  induction read with
  | variableDeclaration _ _ _ value =>
      exact ((value.suffix.trans (List.suffix_cons _ _)).trans
        (List.suffix_cons _ _)).trans (List.suffix_cons _ _)
  | functionDeclaration _ _ parameters _ behindBlock =>
      exact ((behindBlock.trans parameters.suffix).trans
        (List.suffix_cons _ _)).trans (List.suffix_cons _ _)
  | simple _ behind => exact behind
  | block _ behind => exact behind
  | whileLoop _ test _ behind =>
      exact (behind.trans test.suffix).trans (List.suffix_cons _ _)
  | conditional _ test _ _ behindChosen behindMore =>
      exact ((behindMore.trans behindChosen).trans test.suffix).trans
        (List.suffix_cons _ _)
  | breakLoop | continueLoop | returnNothing => exact List.suffix_cons _ _
  | returnValue _ _ result => exact result.suffix.trans (List.suffix_cons _ _)
  | expression inner => exact inner.suffix
  | elifBranch atBranch _ test _ _ behindChosen behindMore =>
      exact ((behindMore.trans behindChosen).trans test.suffix).trans
        (suffix_of_skipBranchBreak atBranch)
  | elseBranch atBranch _ _ behindChosen =>
      exact behindChosen.trans (suffix_of_skipBranchBreak atBranch)
  | noBranch => exact List.suffix_rfl
  | braces _ _ _ behind =>
      exact ((List.suffix_cons _ _).trans behind).trans (List.suffix_cons _ _)
  | noStatement => exact List.dropWhile_suffix _
  | moreStatements _ ends _ behindFirst behindOthers =>
      exact ((behindOthers.trans ends.suffix).trans behindFirst).trans
        (List.dropWhile_suffix _)

/-- The tokens that are left are fewer if the part has tokens of its own, and
never more. -/
theorem ReadFrom.length_le
    {part : StatementPart}
    {tokens rest : List Token}
    (read : part.ReadFrom tokens rest) :
    rest.length + part.isSolid.toNat ≤ tokens.length := by
  induction read with
  | variableDeclaration _ _ _ value =>
      have shorter := value.length_le
      simp only [List.length_cons, isSolid, Bool.toNat_true] at *
      omega
  | functionDeclaration _ _ parameters _ blockShorter =>
      have shorter := parameters.length_lt
      simp only [List.length_cons, isSolid, Bool.toNat_true] at *
      omega
  | simple _ shorter => exact shorter
  | block _ shorter => exact shorter
  | whileLoop _ test _ repeatedShorter =>
      have shorter := test.length_le
      simp only [List.length_cons, isSolid, Bool.toNat_true] at *
      omega
  | conditional _ test _ _ chosenShorter moreShorter =>
      have shorter := test.length_le
      simp only [List.length_cons, isSolid, Bool.toNat_true] at *
      omega
  | breakLoop | continueLoop | returnNothing => exact Nat.le_refl _
  | returnValue _ _ result =>
      have shorter := result.length_le
      simp only [List.length_cons, isSolid, Bool.toNat_true] at *
      omega
  | expression inner => exact inner.length_le
  | elifBranch atBranch _ test _ _ chosenShorter moreShorter =>
      have behindBreak := length_lt_of_skipBranchBreak atBranch
      have shorter := test.length_le
      simp only [isSolid, Bool.toNat_true, Bool.toNat_false] at *
      omega
  | elseBranch atBranch _ _ chosenShorter =>
      have behindBreak := length_lt_of_skipBranchBreak atBranch
      simp only [isSolid, Bool.toNat_true, Bool.toNat_false] at *
      omega
  | noBranch => exact Nat.le_refl _
  | braces _ _ _ contentShorter =>
      simp only [List.length_cons, isSolid, Bool.toNat_true, Bool.toNat_false] at *
      omega
  | noStatement => exact length_skipBreaks_le _
  | moreStatements _ ends _ firstShorter othersShorter =>
      have behindBreaks := Nat.le_trans firstShorter (length_skipBreaks_le _)
      have behindEnd := ends.length_le
      simp only [isSolid, Bool.toNat_true, Bool.toNat_false] at *
      omega

theorem ReadFrom.length_lt
    {part : StatementPart}
    {tokens rest : List Token}
    (read : part.ReadFrom tokens rest)
    (solid : part.isSolid = true) :
    rest.length < tokens.length := by
  have shorter := read.length_le
  rw [solid] at shorter
  exact shorter

/-! ## Readings of statements are found -/

/-- The function of the grammar that is meant for a part reads it. -/
def ParsedBy
    (fuel : Nat)
    (stop : Token)
    (part : StatementPart)
    (tokens rest : List Token) :
    Prop :=
  match part with
  | .declaration around result =>
      Parser.declaration fuel around stop tokens = .done result rest
  | .statement around result =>
      Parser.statement fuel around stop tokens = .done result rest
  | .branches around others otherwise =>
      Parser.branches fuel around stop tokens = .done (others, otherwise) rest
  | .block around body span =>
      Parser.block fuel around stop tokens = .done (body, span) rest
  | .statements around body =>
      Parser.statements fuel around stop tokens = .done body rest

/-- The number of steps that a part needs more of, besides thirteen for every
token. -/
def extraSteps : StatementPart → Nat
  | .declaration _ _ => 11
  | .statement _ _ => 10
  | .branches _ _ _ => 0
  | .block _ _ _ => 0
  | .statements _ _ => 12

/-- A reading is what the function for its part finds, given enough steps. -/
theorem ReadFrom.parsedBy
    {stop : Token}
    (isStop : stop.kind = .endOfInput)
    {part : StatementPart}
    {tokens rest : List Token}
    (read : part.ReadFrom tokens rest) :
    ∀ fuel, 13 * tokens.length + part.extraSteps < fuel →
      part.ParsedBy fuel stop tokens rest := by
  have peeked := Parser.peekKind_eq isStop
  induction read with
  | variableDeclaration isVariable isName isEqual value =>
      refine forall_steps fun fuel enough => ?_
      simp only [extraSteps, List.length_cons] at enough
      have parsed := value.parsedBy isStop fuel
        (by simp only [ExpressionPart.extraSteps]; omega)
      simp only [ExpressionPart.ParsedBy, ParsedBy] at parsed ⊢
      simp [Parser.declaration, isVariable, Parser.variableDeclaration,
        Parser.expect_cons isName, Parser.expect_cons isEqual, parsed]
  | functionDeclaration isFunction isName names block blockParsed =>
      have shorter := names.length_lt
      refine forall_steps fun fuel enough => ?_
      simp only [extraSteps, List.length_cons] at *
      have parsed := blockParsed fuel (by omega)
      have parsedNames := (Parser.parameters_eq_done_iff isStop).mpr names
      simp only [ParsedBy] at parsed ⊢
      simp [Parser.declaration, isFunction, Parser.expect_cons isName, parsedNames,
        parsed]
  | simple statement statementParsed =>
      have starts := statement.startsWith
      refine forall_steps fun fuel enough => ?_
      simp only [extraSteps] at *
      have parsed := statementParsed fuel (by omega)
      have notVar := TokenKind.ne_of_startsStatement starts .varKeyword rfl
      have notConst := TokenKind.ne_of_startsStatement starts .constKeyword rfl
      have notFunction := TokenKind.ne_of_startsStatement starts .functionKeyword rfl
      simp only [ParsedBy] at parsed ⊢
      simp [Parser.declaration, peeked, notVar, notConst, notFunction, parsed,
        -Parser.peekKind_apply]
  | block block blockParsed =>
      have starts := block.startsWith
      refine forall_steps fun fuel enough => ?_
      simp only [extraSteps, StartsWith] at *
      have parsed := blockParsed fuel (by omega)
      simp only [ParsedBy] at parsed ⊢
      simp [Parser.statement, peeked, starts, parsed, -Parser.peekKind_apply]
  | whileLoop isWhile test repeated repeatedParsed =>
      have shorter := test.length_lt rfl
      refine forall_steps fun fuel enough => ?_
      simp only [extraSteps, List.length_cons] at *
      have parsedTest := test.parsedBy isStop fuel
        (by simp only [ExpressionPart.extraSteps]; omega)
      have parsed := repeatedParsed fuel (by omega)
      simp only [ExpressionPart.ParsedBy, ParsedBy] at parsedTest parsed ⊢
      simp [Parser.statement, isWhile, parsedTest, parsed]
  | conditional isIf test chosen more chosenParsed moreParsed =>
      have shorter := test.length_lt rfl
      have chosenShorter := chosen.length_lt rfl
      refine forall_steps fun fuel enough => ?_
      simp only [extraSteps, List.length_cons] at *
      have parsedTest := test.parsedBy isStop fuel
        (by simp only [ExpressionPart.extraSteps]; omega)
      have parsed := chosenParsed fuel (by omega)
      have parsedMore := moreParsed fuel (by omega)
      simp only [ExpressionPart.ParsedBy, ParsedBy] at parsedTest parsed parsedMore ⊢
      simp [Parser.statement, isIf, parsedTest, parsed, parsedMore]
  | breakLoop isBreak inLoop =>
      refine forall_steps fun fuel enough => ?_
      simp [ParsedBy, Parser.statement, isBreak, Parser.allowed, inLoop]
  | continueLoop isContinue inLoop =>
      refine forall_steps fun fuel enough => ?_
      simp [ParsedBy, Parser.statement, isContinue, Parser.allowed, inLoop]
  | returnNothing isReturn inFunction isClosed =>
      refine forall_steps fun fuel enough => ?_
      simp [ParsedBy, Parser.statement, isReturn, Parser.returnStatement,
        Parser.allowed, inFunction, peeked, isClosed, -Parser.peekKind_apply]
  | returnValue isReturn inFunction result =>
      have notClosed := fun around =>
        TokenKind.not_closedBy_of_startsExpression (result.startsExpression rfl)
          around
      refine forall_steps fun fuel enough => ?_
      simp only [extraSteps, List.length_cons] at *
      have parsed := result.parsedBy isStop fuel
        (by simp only [ExpressionPart.extraSteps]; omega)
      simp only [ExpressionPart.ParsedBy, ParsedBy] at parsed ⊢
      simp [Parser.statement, isReturn, Parser.returnStatement,
        Parser.allowed, inFunction, peeked, notClosed, parsed,
        -Parser.peekKind_apply]
  | expression inner =>
      have starts := inner.startsExpression rfl
      refine forall_steps fun fuel enough => ?_
      simp only [extraSteps] at *
      have parsed := inner.parsedBy isStop fuel
        (by simp only [ExpressionPart.extraSteps]; omega)
      have notStart := TokenKind.ne_of_startsExpression starts
      simp only [ExpressionPart.ParsedBy, ParsedBy] at parsed ⊢
      simp [Parser.statement, peeked, notStart .leftBrace rfl,
        notStart .whileKeyword rfl, notStart .ifKeyword rfl,
        notStart .breakKeyword rfl, notStart .continueKeyword rfl,
        notStart .returnKeyword rfl, parsed, -Parser.peekKind_apply]
  | elifBranch atBranch isElif test chosen more chosenParsed moreParsed =>
      have behindBreak := length_lt_of_skipBranchBreak atBranch
      have shorter := test.length_lt rfl
      have chosenShorter := chosen.length_lt rfl
      refine forall_steps fun fuel enough => ?_
      simp only [extraSteps] at *
      have parsedTest := test.parsedBy isStop fuel
        (by simp only [ExpressionPart.extraSteps]; omega)
      have parsed := chosenParsed fuel (by omega)
      have parsedMore := moreParsed fuel (by omega)
      simp only [ExpressionPart.ParsedBy, ParsedBy] at parsedTest parsed parsedMore ⊢
      simp [Parser.branches, Parser.skipNewlineBeforeBranch_eq, atBranch,
        Parser.accept_cons isElif, parsedTest, parsed, parsedMore]
  | elseBranch atBranch isElse chosen chosenParsed =>
      have behindBreak := length_lt_of_skipBranchBreak atBranch
      refine forall_steps fun fuel enough => ?_
      simp only [extraSteps] at *
      have parsed := chosenParsed fuel (by omega)
      simp only [ParsedBy] at parsed ⊢
      simp [Parser.branches, Parser.skipNewlineBeforeBranch_eq, atBranch,
        Parser.accept, isElse, parsed]
  | noBranch notElif notElse =>
      refine forall_steps fun fuel enough => ?_
      have unchanged := skipBranchBreak_of_noBranch notElif notElse
      rw [unchanged] at notElif notElse
      simp [ParsedBy, Parser.branches, Parser.skipNewlineBeforeBranch_eq, unchanged,
        Parser.accept_of_ne isStop notElif, Parser.accept_of_ne isStop notElse]
  | braces isOpening content isClosing contentParsed =>
      refine forall_steps fun fuel enough => ?_
      simp only [extraSteps, List.length_cons] at *
      have parsed := contentParsed fuel (by omega)
      simp only [ParsedBy] at parsed ⊢
      simp [Parser.block, Parser.expect_cons isOpening, parsed,
        Parser.expect_cons isClosing]
  | noStatement isEnded =>
      refine forall_steps fun fuel enough => ?_
      simp [ParsedBy, Parser.statements, Parser.skipNewlines_eq, peeked, isEnded,
        -Parser.peekKind_apply]
  | @moreStatements _ _ tokens _ _ _ _ first ends others firstParsed
      othersParsed =>
      have behindBreaks := length_skipBreaks_le tokens
      have shorter := first.length_lt rfl
      have behindEnd := ends.length_le
      have notEnded := fun around =>
        TokenKind.not_endedBy_of_startsDeclaration first.startsWith around
      refine forall_steps fun fuel enough => ?_
      simp only [extraSteps] at *
      have parsed := firstParsed fuel (by omega)
      have parsedOthers := othersParsed fuel (by omega)
      have terminated := (Parser.terminate_eq_done_iff isStop).mpr ends
      simp only [ParsedBy] at parsed parsedOthers ⊢
      simp [Parser.statements, Parser.skipNewlines_eq, peeked, notEnded, parsed,
        terminated, parsedOthers, -Parser.peekKind_apply]

/-! ## What is found is a reading -/

section

variable {stop : Token} {fuel : Nat} {tokens rest : List Token}

variable
  (isStop : stop.kind = .endOfInput)
  (below :
    ∀ part tokens rest, ParsedBy fuel stop part tokens rest →
      part.ReadFrom tokens rest)

include isStop

theorem readFrom_expression
    {result : Expression}
    (parsed : Parser.expression fuel stop tokens = .done result rest) :
    (ExpressionPart.expression result).ReadFrom tokens rest :=
  ExpressionPart.readFrom_of_parsedBy isStop (.expression result) parsed

theorem readFrom_variableDeclaration
    {around : Surroundings}
    {result : Statement}
    (isVariable :
      nextKind tokens = .varKeyword ∨ nextKind tokens = .constKeyword)
    (parsed :
      Parser.variableDeclaration fuel stop tokens = .done result rest) :
    (declaration around result).ReadFrom tokens rest := by
  have notAtEnd : nextKind tokens ≠ .endOfInput := by
    rcases isVariable with isVar | isConst
    · rw [isVar]
      decide
    · rw [isConst]
      decide
  obtain ⟨keyword, behind, rfl, _⟩ := exists_cons_of_nextKind notAtEnd
  rw [Parser.variableDeclaration, Parser.bind_apply, Parser.advance_apply,
    Parsed.done_andThen, List.tail_cons] at parsed
  obtain ⟨name, afterName, nameExpected, named⟩ := Parsed.andThen_eq_done parsed
  obtain ⟨rfl, isName⟩ := Parser.cons_of_expect isStop (by decide) nameExpected
  obtain ⟨equals, afterEquals, equalsExpected, assigned⟩ :=
    Parsed.andThen_eq_done named
  obtain ⟨rfl, isEqual⟩ := Parser.cons_of_expect isStop (by decide) equalsExpected
  obtain ⟨initializer, _, valueParsed, finished⟩ := Parsed.andThen_eq_done assigned
  obtain ⟨rfl, rfl⟩ := Parsed.done_eq_done finished
  exact .variableDeclaration isVariable isName isEqual
    (readFrom_expression isStop valueParsed)

theorem readFrom_returnStatement
    {around : Surroundings}
    {result : Statement}
    (isReturn : nextKind tokens = .returnKeyword)
    (parsed :
      Parser.returnStatement fuel around stop tokens = .done result rest) :
    (statement around result).ReadFrom tokens rest := by
  obtain ⟨keyword, behind, rfl, _⟩ :=
    exists_cons_of_nextKind (isReturn ▸ by decide : nextKind tokens ≠ _)
  rw [Parser.returnStatement, Parser.bind_apply, Parser.advance_apply,
    Parsed.done_andThen] at parsed
  obtain ⟨_, later, permitted, parsed⟩ := Parsed.andThen_eq_done parsed
  obtain ⟨inFunction, rfl⟩ := Parser.allowed_eq_done permitted
  simp only [Parser.bind_apply, Parser.peekKind_eq isStop, Parsed.done_andThen,
    List.tail_cons] at parsed
  by_cases isClosed : around.closedBy (nextKind behind) = true
  · rw [if_pos isClosed] at parsed
    obtain ⟨rfl, rfl⟩ := Parsed.done_eq_done parsed
    exact .returnNothing isReturn inFunction isClosed
  · rw [if_neg isClosed] at parsed
    obtain ⟨value, _, valueParsed, parsed⟩ := Parsed.andThen_eq_done parsed
    obtain ⟨rfl, rfl⟩ := Parsed.done_eq_done parsed
    exact .returnValue isReturn inFunction (readFrom_expression isStop valueParsed)

include below

theorem readFrom_declaration
    {around : Surroundings}
    {result : Statement}
    (parsed :
      Parser.declaration (fuel + 1) around stop tokens = .done result rest) :
    (declaration around result).ReadFrom tokens rest := by
  rw [Parser.declaration, Parser.bind_apply, Parser.peekKind_eq isStop,
    Parsed.done_andThen] at parsed
  split at parsed
  · next isVariable =>
      exact readFrom_variableDeclaration isStop isVariable parsed
  split at parsed
  · next isFunction =>
      obtain ⟨keyword, behind, rfl, _⟩ :=
        exists_cons_of_nextKind (isFunction ▸ by decide : nextKind tokens ≠ _)
      rw [Parser.bind_apply, Parser.advance_apply, Parsed.done_andThen,
        List.tail_cons] at parsed
      obtain ⟨name, afterName, nameExpected, named⟩ :=
        Parsed.andThen_eq_done parsed
      obtain ⟨rfl, isName⟩ :=
        Parser.cons_of_expect isStop (by decide) nameExpected
      obtain ⟨names, afterNames, namesParsed, headed⟩ :=
        Parsed.andThen_eq_done named
      obtain ⟨⟨body, span⟩, _, blockParsed, finished⟩ :=
        Parsed.andThen_eq_done headed
      obtain ⟨rfl, rfl⟩ := Parsed.done_eq_done finished
      exact .functionDeclaration isFunction isName
        ((Parser.parameters_eq_done_iff isStop).mp namesParsed)
        (below (.block around.insideFunction body span) _ _ blockParsed)
  · exact .simple (below (.statement around result) _ _ parsed)

theorem readFrom_statement
    {around : Surroundings}
    {result : Statement}
    (parsed :
      Parser.statement (fuel + 1) around stop tokens = .done result rest) :
    (statement around result).ReadFrom tokens rest := by
  rw [Parser.statement, Parser.bind_apply, Parser.peekKind_eq isStop,
    Parsed.done_andThen] at parsed
  split at parsed
  · obtain ⟨⟨body, span⟩, _, blockParsed, parsed⟩ := Parsed.andThen_eq_done parsed
    obtain ⟨rfl, rfl⟩ := Parsed.done_eq_done parsed
    exact .block (below (.block around body span) _ _ blockParsed)
  split at parsed
  · next isWhile =>
      obtain ⟨keyword, behind, rfl, _⟩ :=
        exists_cons_of_nextKind (isWhile ▸ by decide : nextKind tokens ≠ _)
      rw [Parser.bind_apply, Parser.advance_apply, Parsed.done_andThen] at parsed
      obtain ⟨condition, later, testParsed, parsed⟩ := Parsed.andThen_eq_done parsed
      obtain ⟨body, _, bodyParsed, parsed⟩ := Parsed.andThen_eq_done parsed
      obtain ⟨rfl, rfl⟩ := Parsed.done_eq_done parsed
      exact .whileLoop isWhile (readFrom_expression isStop testParsed)
        (below (.statement around.insideLoop body) _ _ bodyParsed)
  split at parsed
  · next isIf =>
      obtain ⟨keyword, behind, rfl, _⟩ :=
        exists_cons_of_nextKind (isIf ▸ by decide : nextKind tokens ≠ _)
      rw [Parser.bind_apply, Parser.advance_apply, Parsed.done_andThen] at parsed
      obtain ⟨condition, afterTest, testParsed, parsed⟩ :=
        Parsed.andThen_eq_done parsed
      obtain ⟨body, afterBody, bodyParsed, parsed⟩ := Parsed.andThen_eq_done parsed
      obtain ⟨⟨others, otherwise⟩, _, moreParsed, parsed⟩ :=
        Parsed.andThen_eq_done parsed
      obtain ⟨rfl, rfl⟩ := Parsed.done_eq_done parsed
      exact .conditional isIf (readFrom_expression isStop testParsed)
        (below (.statement around body) _ _ bodyParsed)
        (below (.branches around others otherwise) _ _ moreParsed)
  split at parsed
  · next isBreak =>
      obtain ⟨keyword, behind, rfl, _⟩ :=
        exists_cons_of_nextKind (isBreak ▸ by decide : nextKind tokens ≠ _)
      rw [Parser.bind_apply, Parser.advance_apply, Parsed.done_andThen] at parsed
      obtain ⟨_, later, permitted, parsed⟩ := Parsed.andThen_eq_done parsed
      obtain ⟨inLoop, rfl⟩ := Parser.allowed_eq_done permitted
      obtain ⟨rfl, rfl⟩ := Parsed.done_eq_done parsed
      exact .breakLoop isBreak inLoop
  split at parsed
  · next isContinue =>
      obtain ⟨keyword, behind, rfl, _⟩ :=
        exists_cons_of_nextKind (isContinue ▸ by decide : nextKind tokens ≠ _)
      rw [Parser.bind_apply, Parser.advance_apply, Parsed.done_andThen] at parsed
      obtain ⟨_, later, permitted, parsed⟩ := Parsed.andThen_eq_done parsed
      obtain ⟨inLoop, rfl⟩ := Parser.allowed_eq_done permitted
      obtain ⟨rfl, rfl⟩ := Parsed.done_eq_done parsed
      exact .continueLoop isContinue inLoop
  split at parsed
  · next isReturn => exact readFrom_returnStatement isStop isReturn parsed
  · obtain ⟨inner, _, innerParsed, parsed⟩ := Parsed.andThen_eq_done parsed
    obtain ⟨rfl, rfl⟩ := Parsed.done_eq_done parsed
    exact .expression (readFrom_expression isStop innerParsed)

theorem readFrom_branches
    {around : Surroundings}
    {others : List (Expression × Statement)}
    {otherwise : Option Statement}
    (parsed :
      Parser.branches (fuel + 1) around stop tokens =
        .done (others, otherwise) rest) :
    (branches around others otherwise).ReadFrom tokens rest := by
  rw [Parser.branches, Parser.bind_apply, Parser.skipNewlineBeforeBranch_eq,
    Parsed.done_andThen, Parser.bind_apply] at parsed
  rcases Parser.accept_cases isStop .elifKeyword (by decide)
      (skipBranchBreak tokens) with
    ⟨keyword, behind, atBranch, isElif, accepted⟩ | ⟨notElif, refused⟩
  · rw [accepted, Parsed.done_andThen, if_pos rfl] at parsed
    obtain ⟨condition, afterTest, testParsed, parsed⟩ :=
      Parsed.andThen_eq_done parsed
    obtain ⟨body, afterBody, bodyParsed, parsed⟩ := Parsed.andThen_eq_done parsed
    obtain ⟨⟨more, final⟩, _, moreParsed, parsed⟩ := Parsed.andThen_eq_done parsed
    obtain ⟨same, rfl⟩ := Parsed.done_eq_done parsed
    obtain ⟨rfl, rfl⟩ := Prod.mk.injEq _ _ _ _ ▸ same
    exact .elifBranch atBranch isElif (readFrom_expression isStop testParsed)
      (below (.statement around body) _ _ bodyParsed)
      (below (.branches around more final) _ _ moreParsed)
  rw [refused, Parsed.done_andThen, if_neg (by decide), Parser.bind_apply] at parsed
  rcases Parser.accept_cases isStop .elseKeyword (by decide)
      (skipBranchBreak tokens) with
    ⟨keyword, behind, atBranch, isElse, accepted⟩ | ⟨notElse, refused⟩
  · rw [accepted, Parsed.done_andThen, if_pos rfl] at parsed
    obtain ⟨body, _, bodyParsed, parsed⟩ := Parsed.andThen_eq_done parsed
    obtain ⟨same, rfl⟩ := Parsed.done_eq_done parsed
    obtain ⟨rfl, rfl⟩ := Prod.mk.injEq _ _ _ _ ▸ same
    exact .elseBranch atBranch isElse
      (below (.statement around body) _ _ bodyParsed)
  · rw [refused, Parsed.done_andThen, if_neg (by decide),
      skipBranchBreak_of_noBranch notElif notElse] at parsed
    obtain ⟨same, rfl⟩ := Parsed.done_eq_done parsed
    obtain ⟨rfl, rfl⟩ := Prod.mk.injEq _ _ _ _ ▸ same
    exact .noBranch notElif notElse

theorem readFrom_block
    {around : Surroundings}
    {body : List Statement}
    {span : Span}
    (parsed :
      Parser.block (fuel + 1) around stop tokens = .done (body, span) rest) :
    (block around body span).ReadFrom tokens rest := by
  rw [Parser.block, Parser.bind_apply] at parsed
  obtain ⟨opening, behind, openingExpected, inside⟩ :=
    Parsed.andThen_eq_done parsed
  obtain ⟨rfl, isOpening⟩ :=
    Parser.cons_of_expect isStop (by decide) openingExpected
  obtain ⟨content, later, contentParsed, closed⟩ := Parsed.andThen_eq_done inside
  obtain ⟨closing, final, closingExpected, finished⟩ :=
    Parsed.andThen_eq_done closed
  obtain ⟨rfl, isClosing⟩ :=
    Parser.cons_of_expect isStop (by decide) closingExpected
  obtain ⟨same, rfl⟩ := Parsed.done_eq_done finished
  obtain ⟨rfl, rfl⟩ := Prod.mk.injEq _ _ _ _ ▸ same
  exact .braces isOpening
    (below (.statements around.insideBlock content) _ _ contentParsed) isClosing

theorem readFrom_statements
    {around : Surroundings}
    {body : List Statement}
    (parsed :
      Parser.statements (fuel + 1) around stop tokens = .done body rest) :
    (statements around body).ReadFrom tokens rest := by
  rw [Parser.statements, Parser.bind_apply, Parser.skipNewlines_eq,
    Parsed.done_andThen, Parser.bind_apply, Parser.peekKind_eq isStop,
    Parsed.done_andThen] at parsed
  by_cases isEnded : around.endedBy (nextKind (skipBreaks tokens)) = true
  · rw [if_pos isEnded] at parsed
    obtain ⟨rfl, rfl⟩ := Parsed.done_eq_done parsed
    exact .noStatement isEnded
  · rw [if_neg isEnded] at parsed
    obtain ⟨first, later, firstParsed, parsed⟩ := Parsed.andThen_eq_done parsed
    obtain ⟨_, next, terminated, parsed⟩ := Parsed.andThen_eq_done parsed
    obtain ⟨others, _, othersParsed, parsed⟩ := Parsed.andThen_eq_done parsed
    obtain ⟨rfl, rfl⟩ := Parsed.done_eq_done parsed
    exact .moreStatements (below (.declaration around first) _ _ firstParsed)
      ((Parser.terminate_eq_done_iff isStop).mp terminated)
      (below (.statements around others) _ _ othersParsed)

end

/-- What the function for a part finds is a reading. -/
theorem readFrom_of_parsedBy
    {stop : Token}
    {fuel : Nat}
    {tokens rest : List Token}
    (isStop : stop.kind = .endOfInput)
    (part : StatementPart)
    (parsed : part.ParsedBy fuel stop tokens rest) :
    part.ReadFrom tokens rest := by
  induction fuel generalizing part tokens rest with
  | zero => cases part <;> cases parsed
  | succ fuel inductionHypothesis =>
      have below part tokens rest :=
        @inductionHypothesis tokens rest part
      cases part with
      | declaration => exact readFrom_declaration isStop below parsed
      | statement => exact readFrom_statement isStop below parsed
      | branches => exact readFrom_branches isStop below parsed
      | block => exact readFrom_block isStop below parsed
      | statements => exact readFrom_statements isStop below parsed

end StatementPart

/-! ## Programs -/

/-- Statements are read up to a token that ends them. -/
theorem StatementPart.ReadFrom.endedBy
    {around : Surroundings}
    {body : List Statement}
    {tokens rest : List Token}
    (read : (StatementPart.statements around body).ReadFrom tokens rest) :
    around.endedBy (nextKind rest) = true := by
  induction body generalizing tokens with
  | nil =>
      cases read with
      | noStatement isEnded => exact isEnded
  | cons first others inductionHypothesis =>
      cases read with
      | moreStatements _ _ othersRead => exact inductionHypothesis othersRead

/-- No branch starts where statements are read. -/
theorem StatementPart.ReadFrom.not_atBranch
    {around : Surroundings}
    {body : List Statement}
    {tokens rest : List Token}
    (reads : (StatementPart.statements around body).ReadFrom tokens rest) :
    nextKind tokens ≠ .elifKeyword ∧ nextKind tokens ≠ .elseKeyword := by
  by_cases isBreak : nextKind tokens = .newline
  · rw [isBreak]
    exact ⟨nofun, nofun⟩
  · cases reads with
    | noStatement isEnded =>
        rw [skipBreaks_of_ne isBreak] at isEnded
        constructor <;> intro isBranch <;> rw [isBranch] at isEnded <;>
          cases isEnded
    | moreStatements first _ _ =>
        rw [skipBreaks_of_ne isBreak] at first
        exact ⟨TokenKind.ne_of_startsDeclaration first.startsWith _ rfl,
          TokenKind.ne_of_startsDeclaration first.startsWith _ rfl⟩

namespace TokenStream

/-- No token of a stream marks the end of the input. -/
theorem kind_ne_endOfInput
    {tokens : List Token}
    {token : Token}
    (member : token ∈ (ofTokens tokens).body) :
    token.kind ≠ .endOfInput := by
  simpa using List.all_eq_true.mp List.all_takeWhile token member

/-- A program is read up to the end of its stream. -/
theorem rest_eq_nil
    {tokens rest : List Token}
    {program : List Statement}
    (read :
      (StatementPart.statements .outermost program).ReadFrom
        (ofTokens tokens).body rest) :
    rest = [] := by
  cases rest with
  | nil => rfl
  | cons token later =>
      have isEnded := read.endedBy
      have member : token ∈ (ofTokens tokens).body :=
        read.suffix.subset List.mem_cons_self
      have notEnd := kind_ne_endOfInput member
      rw [nextKind_cons] at isEnded
      cases kind : token.kind <;> rw [kind] at isEnded notEnd <;>
        first | exact (notEnd rfl).elim | cases isEnded

end TokenStream

/-- Tokens are accepted as a program exactly if the program is read from all
tokens before the end of the input. -/
theorem parse_eq_ok_iff
    {tokens : List Token}
    {program : List Statement} :
    parse tokens = .ok program ↔
      (StatementPart.statements .outermost program).ReadFrom
        (TokenStream.ofTokens tokens).body [] := by
  constructor
  · intro accepted
    obtain ⟨rest, parsed⟩ := Parsed.of_result_eq_ok accepted
    have read :=
      StatementPart.readFrom_of_parsedBy (TokenStream.ofTokens tokens).isStop
        (.statements .outermost program) parsed
    rw [TokenStream.rest_eq_nil read] at read
    exact read
  · intro read
    have parsed :=
      read.parsedBy (TokenStream.ofTokens tokens).isStop
        (TokenStream.ofTokens tokens).steps
        (by simp only [StatementPart.extraSteps, TokenStream.steps]; omega)
    exact Parsed.result_eq_ok parsed _

theorem exists_parse
    {tokens : List Token}
    (accepted : (parse tokens).toOption.isSome = true) :
    ∃ program, parse tokens = .ok program := by
  cases parsed : parse tokens with
  | error fault =>
      rw [parsed] at accepted
      cases accepted
  | ok program =>
      exact ⟨program, rfl⟩

end Scriptlet
