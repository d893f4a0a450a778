import Scriptlet.Proofs.Grammar.Origins
import Scriptlet.Proofs.Token.Admitted
import Scriptlet.Proofs.Tree.StatementForms

namespace Scriptlet

/-!
# Statements with one text

What is read from a text can be told from its text form: its names are no reserved words,
its operators are spelled as such, and its numbers are finite.  So two statements that are
read from texts and are shown alike are equal up to spans, wherever they come from.
-/

/-- Whether all tokens are spelled as tokens of their kinds may be. -/
def AllAdmitted (tokens : List Token) : Prop :=
  ∀ token ∈ tokens, token.IsAdmitted

theorem AllAdmitted.of_part
    {part tokens : List Token}
    (admitted : AllAdmitted tokens)
    (isPart : part <:+: tokens) :
    AllAdmitted part :=
  fun token member => admitted token (isPart.subset member)

theorem AllAdmitted.of_suffix
    {part tokens : List Token}
    (admitted : AllAdmitted tokens)
    (isBehind : part <:+ tokens) :
    AllAdmitted part :=
  admitted.of_part isBehind.isInfix

theorem AllAdmitted.first
    {front behind : List Token}
    (admitted : AllAdmitted (front ++ behind)) :
    AllAdmitted front :=
  (List.forall_mem_append.mp admitted).1

theorem AllAdmitted.second
    {front behind : List Token}
    (admitted : AllAdmitted (front ++ behind)) :
    AllAdmitted behind :=
  (List.forall_mem_append.mp admitted).2

/-- The first token, if it is a name, is not reserved. -/
theorem AllAdmitted.isName
    {token : Token}
    {rest : List Token}
    (admitted : AllAdmitted (token :: rest))
    (isName : token.kind = .identifier) :
    IsName token.lexeme :=
  (admitted token List.mem_cons_self).isName isName

/-! ## Operators -/

theorem operatorKinds_spelled :
    ∀ kind ∈ operatorKinds, kind.spelling?.isSome = true := by
  decide +kernel

theorem mem_operatorKinds
    {kind : TokenKind}
    (isOperator : kind.isUnary = true ∨ ∃ level, kind.level? = some level) :
    kind ∈ operatorKinds := by
  refine List.mem_filter.mpr ⟨?_, ?_⟩
  · cases kind <;> decide
  · rw [Bool.or_eq_true, Option.isSome_iff_exists]
    exact isOperator

/-- The operator that a token spells. -/
theorem Token.IsAdmitted.isSpelled
    {token : Token}
    (admitted : token.IsAdmitted)
    (isOperator :
      token.kind.isUnary = true ∨ ∃ level, token.kind.level? = some level) :
    token.operator.IsSpelled := by
  have member := mem_operatorKinds isOperator
  obtain ⟨text, isText⟩ := Option.isSome_iff_exists.mp (operatorKinds_spelled _ member)
  refine ⟨member, ?_⟩
  rw [operator, admitted.isOnly text isText]
  exact isText

theorem Expression.legible_combine
    {operator : Token}
    {level : Nat}
    (hasLevel : operator.kind.level? = some level)
    (admitted : operator.IsAdmitted)
    {left right : Expression}
    (leftLegible : left.Legible)
    (rightLegible : right.Legible) :
    (left.combine operator right).Legible := by
  have isSpelled := admitted.isSpelled (.inr ⟨level, hasLevel⟩)
  rw [combine_of_level hasLevel]
  split
  case isTrue isLow =>
    exact ⟨⟨isSpelled, level, hasLevel, isLow⟩, leftLegible, rightLegible⟩
  case isFalse isHigh =>
    exact ⟨⟨isSpelled, level, hasLevel, Nat.not_lt.mp isHigh⟩, leftLegible, rightLegible⟩

/-! ## Expressions -/

/-- Whether an expression, or the arguments of a call, can be told from their texts. -/
def Composed.Legible : Composed → Prop
  | .expression result => result.Legible
  | .arguments results => Expression.AllLegible results

/-- What is built from tokens can be told from its text. -/
theorem Composed.BuiltFrom.legible
    {composed : Composed}
    {used : List Token}
    (built : composed.BuiltFrom used)
    (admitted : AllAdmitted used) :
    composed.Legible := by
  induction built with
  | literal isLiteral =>
      exact Token.isFinite_of_literal? isLiteral
  | reference isName =>
      exact admitted.isName isName
  | assign _ _ _ target assigned =>
      exact ⟨target admitted.first, assigned admitted.second.second⟩
  | getAttribute _ _ isName object =>
      exact ⟨object admitted.first, admitted.second.second.isName isName⟩
  | setAttribute _ _ _ target assigned =>
      obtain ⟨objectLegible, isName⟩ := target admitted.first
      exact ⟨objectLegible, isName, assigned admitted.second.second⟩
  | unary isUnary _ operand =>
      exact ⟨(admitted _ List.mem_cons_self).isSpelled (.inl isUnary),
        operand admitted.second.second⟩
  | combine hasLevel _ _ first second =>
      exact Expression.legible_combine hasLevel
        (admitted.second _ List.mem_cons_self) (first admitted.first)
        (second admitted.second.second)
  | grouping _ _ _ content =>
      exact content admitted.second.first
  | call _ _ _ _ called passed =>
      exact ⟨called admitted.first, passed admitted.second.first.second⟩
  | noArguments => trivial
  | lastArgument _ last =>
      exact ⟨last admitted, trivial⟩
  | moreArguments _ _ _ _ first others =>
      exact ⟨first admitted.first, others admitted.second.second⟩

/-- An expression that is read from tokens can be told from its text. -/
theorem ExpressionPart.ReadFrom.legible
    {result : Expression}
    {tokens rest : List Token}
    (reads : (ExpressionPart.expression result).ReadFrom tokens rest)
    (admitted : AllAdmitted tokens) :
    result.Legible := by
  obtain ⟨used, isUsed, built⟩ := reads.origin
  exact built.legible (admitted.of_part isUsed)

/-! ## Statements -/

theorem NamesReadFrom.areNames
    {names : List String}
    {tokens rest : List Token}
    (read : NamesReadFrom names tokens rest)
    (admitted : AllAdmitted tokens) :
    ∀ name ∈ names, IsName name := by
  induction read with
  | last isName _ =>
      exact List.forall_mem_singleton.mpr (admitted.isName isName)
  | more isName _ _ inOthers =>
      refine List.forall_mem_cons.mpr ⟨admitted.isName isName, inOthers ?_⟩
      exact admitted.of_suffix ((List.suffix_cons _ _).trans (List.suffix_cons _ _))

theorem ParametersReadFrom.areNames
    {names : List String}
    {tokens rest : List Token}
    (read : ParametersReadFrom names tokens rest)
    (admitted : AllAdmitted tokens) :
    ∀ name ∈ names, IsName name := by
  cases read with
  | none => nofun
  | some _ given _ => exact given.areNames (admitted.of_suffix (List.suffix_cons _ _))

namespace StatementPart

/-- Whether the statements and expressions of a part can be told from their texts. -/
def Legible : StatementPart → Prop
  | .declaration _ result | .statement _ result => result.Legible
  | .branches _ others otherwise =>
      Statement.BranchesLegible others ∧ Statement.OtherwiseLegible otherwise
  | .block _ body _ | .statements _ body => Statement.BodyLegible body

/-- What is read from tokens can be told from its text. -/
theorem ReadFrom.legible
    {part : StatementPart}
    {tokens rest : List Token}
    (reads : part.ReadFrom tokens rest)
    (admitted : AllAdmitted tokens) :
    part.Legible := by
  induction reads with
  | variableDeclaration _ isName _ value =>
      have behindKeyword := admitted.of_suffix (List.suffix_cons _ _)
      refine ⟨behindKeyword.isName isName, value.legible ?_⟩
      exact behindKeyword.of_suffix ((List.suffix_cons _ _).trans (List.suffix_cons _ _))
  | functionDeclaration _ isName parameters _ block =>
      have behindKeyword := admitted.of_suffix (List.suffix_cons _ _)
      have behindName := behindKeyword.of_suffix (List.suffix_cons _ _)
      exact ⟨behindKeyword.isName isName, parameters.areNames behindName,
        block (behindName.of_suffix parameters.suffix)⟩
  | simple _ statement =>
      exact statement admitted
  | block _ block =>
      exact block admitted
  | whileLoop _ test _ repeated =>
      have behindKeyword := admitted.of_suffix (List.suffix_cons _ _)
      exact ⟨test.legible behindKeyword, repeated (behindKeyword.of_suffix test.suffix)⟩
  | conditional _ test chosen _ inChosen inMore =>
      have behindKeyword := admitted.of_suffix (List.suffix_cons _ _)
      have behindTest := behindKeyword.of_suffix test.suffix
      obtain ⟨others, otherwise⟩ := inMore (behindTest.of_suffix chosen.suffix)
      exact ⟨List.cons_ne_nil _ _,
        ⟨⟨test.legible behindKeyword, inChosen behindTest⟩, others⟩, otherwise⟩
  | breakLoop _ _ => trivial
  | continueLoop _ _ => trivial
  | returnNothing _ _ _ => trivial
  | returnValue _ _ result =>
      exact result.legible (admitted.of_suffix (List.suffix_cons _ _))
  | expression inner =>
      exact inner.legible admitted
  | elifBranch atBranch _ test chosen _ inChosen inMore =>
      have behindKeyword := admitted.of_suffix (suffix_of_skipBranchBreak atBranch)
      have behindTest := behindKeyword.of_suffix test.suffix
      obtain ⟨others, otherwise⟩ := inMore (behindTest.of_suffix chosen.suffix)
      exact ⟨⟨⟨test.legible behindKeyword, inChosen behindTest⟩, others⟩, otherwise⟩
  | elseBranch atBranch _ _ chosen =>
      exact ⟨trivial, chosen (admitted.of_suffix (suffix_of_skipBranchBreak atBranch))⟩
  | noBranch _ _ =>
      exact ⟨trivial, trivial⟩
  | braces _ _ _ content =>
      exact content (admitted.of_suffix (List.suffix_cons _ _))
  | noStatement _ => trivial
  | moreStatements first ends _ inFirst inOthers =>
      have atFirst : AllAdmitted (skipBreaks _) :=
        admitted.of_suffix (List.dropWhile_suffix _)
      have behindFirst := atFirst.of_suffix first.suffix
      exact ⟨inFirst atFirst, inOthers (behindFirst.of_suffix ends.suffix)⟩

end StatementPart

/-! ## Programs -/

theorem Statement.legible_of_mem
    {body : List Statement}
    (legible : BodyLegible body)
    {statement : Statement}
    (isInside : statement ∈ body) :
    statement.Legible := by
  induction body with
  | nil => cases isInside
  | cons first rest inductionHypothesis =>
      rcases List.mem_cons.mp isInside with rfl | isLater
      · exact legible.1
      · exact inductionHypothesis legible.2 isLater

namespace SourceUnit

/-- The statements that are read from a text can be told from their text forms. -/
theorem ReadAs.legible
    {source : SourceUnit}
    {program : List Statement}
    (reads : source.ReadAs program)
    {statement : Statement}
    (isInside : statement ∈ program) :
    statement.Legible := by
  have read := parse_eq_ok_iff.mp reads.parsed
  rw [body_scan] at read
  exact Statement.legible_of_mem
    (read.legible fun _ member => Token.isAdmitted_of_mem member) isInside

/-- Statements that are read from texts and have one text form are equal up to spans. -/
theorem ReadAs.unambiguous
    {source other : SourceUnit}
    {program otherProgram : List Statement}
    (reads : source.ReadAs program)
    (otherReads : other.ReadAs otherProgram)
    {statement otherStatement : Statement}
    (isInside : statement ∈ program)
    (otherInside : otherStatement ∈ otherProgram)
    (sameText : statement.display = otherStatement.display) :
    statement.bare = otherStatement.bare :=
  statement.bare_eq_of_display otherStatement (reads.legible isInside)
    (otherReads.legible otherInside) sameText

/-- A text that is shown as one statement is read as one. -/
theorem exists_readAs_of_display
    {source : SourceUnit}
    {text : String}
    (scanned : source.scan.diagnostics = [])
    (shown : (parse source.scan.tokens).toOption.any
      (fun program => program.map Statement.display = [text]) = true) :
    ∃ statement, source.ReadAs [statement] ∧ statement.display = text := by
  obtain ⟨program, reads, isShown⟩ := exists_readAs source _ scanned shown
  obtain ⟨statement, rfl, isText⟩ := List.map_eq_singleton_iff.mp (of_decide_eq_true isShown)
  exact ⟨statement, reads, isText⟩

/-- A function with signs and with an attribute of a number, in two layouts. -/
theorem ReadAs.unambiguous_layouts :
    ∃ statement other : Statement,
      (SourceUnit.mk "spaced"
          "function get(a) \x7b if - a \x7b 1.5 . b = - get(a) \x7d \x7d").ReadAs
            [statement] ∧
        (SourceUnit.mk "dense"
          "function get(a)\x7b\nif -a\x7b1.5 .b=-get(a)\x7d\x7d").ReadAs [other] ∧
        statement.display = other.display ∧ statement.bare = other.bare := by
  obtain ⟨statement, reads, isText⟩ :
      ∃ statement, (SourceUnit.mk "spaced"
          "function get(a) \x7b if - a \x7b 1.5 . b = - get(a) \x7d \x7d").ReadAs
            [statement] ∧
        statement.display =
          "(function get (a) (block (if (- a) (block (set 1.5.b=(- (call get (a))))))))" :=
    exists_readAs_of_display (by decide +kernel) (by decide +kernel)
  obtain ⟨other, otherReads, isOtherText⟩ :
      ∃ other, (SourceUnit.mk "dense"
          "function get(a)\x7b\nif -a\x7b1.5 .b=-get(a)\x7d\x7d").ReadAs [other] ∧
        other.display =
          "(function get (a) (block (if (- a) (block (set 1.5.b=(- (call get (a))))))))" :=
    exists_readAs_of_display (by decide +kernel) (by decide +kernel)
  have sameText := isText.trans isOtherText.symm
  exact ⟨statement, other, reads, otherReads, sameText,
    reads.unambiguous otherReads List.mem_cons_self List.mem_cons_self sameText⟩

end SourceUnit

end Scriptlet
