import Scriptlet.Proofs.Grammar.AcceptedPrograms
import Scriptlet.Proofs.Grammar.WrittenExpressions

namespace Scriptlet

/-!
# Reading programs that were written out

A program that is well shaped can be read back from tokens that spell its words
with a line break behind every statement.  What is shown of a statement is that it
is read in front of every line break that no further branch follows; a block needs
nothing behind it.
-/

/-- The line break behind every statement of a body. -/
def lineBreak : List Word :=
  [.mark .newline]

theorem EndsLine.not_extendsExpression
    {rest : List Token}
    (ends : EndsLine rest) :
    (nextKind rest).extendsExpression = false := by
  rw [ends.nextKind_eq]
  rfl

/-! ## Names -/

theorem NamesReadFrom.of_spells
    {names : List String}
    {used rest : List Token}
    (someNames : names ≠ [])
    (spells : List.Forall₂ Token.Spells used
      (commaSeparated (names.map fun name => [.name name])))
    (notComma : nextKind rest ≠ .comma) :
    NamesReadFrom names (used ++ rest) rest := by
  induction names generalizing used with
  | nil =>
      exact absurd rfl someNames
  | cons first others inductionHypothesis =>
      by_cases isLast : others = []
      · subst isLast
        rw [List.map_singleton, commaSeparated_singleton] at spells
        obtain ⟨token, _, ⟨isName, rfl⟩, ends, rfl⟩ :=
          List.forall₂_cons_right_iff.mp spells
        cases ends
        exact .last isName notComma
      · rw [List.map_cons, commaSeparated_cons _ (by simpa using isLast)]
          at spells
        obtain ⟨token, _, ⟨isName, rfl⟩, spellsOthers, rfl⟩ :=
          List.forall₂_cons_right_iff.mp spells
        obtain ⟨comma, usedOthers, isComma, spellsRest, rfl⟩ :=
          List.forall₂_cons_right_iff.mp spellsOthers
        exact .more isName isComma (inductionHypothesis isLast spellsRest)

theorem ParametersReadFrom.of_spells
    {names : List String}
    {used : List Token}
    (spells : List.Forall₂ Token.Spells used (parameterWords names))
    (rest : List Token) :
    ParametersReadFrom names (used ++ rest) rest := by
  obtain ⟨opening, _, isOpening, spellsGiven, rfl⟩ :=
    List.forall₂_cons_right_iff.mp spells
  obtain ⟨usedNames, _, rfl, spellsNames, spellsClosing⟩ :=
    exists_of_spells_append spellsGiven
  obtain ⟨closing, _, isClosing, ends, rfl⟩ :=
    List.forall₂_cons_right_iff.mp spellsClosing
  cases ends
  by_cases noNames : names = []
  · subst noNames
    cases spellsNames
    exact .none isOpening isClosing
  · have notComma : nextKind (closing :: rest) ≠ .comma := by
      rw [nextKind_cons, show closing.kind = .rightParen from isClosing]
      nofun
    have named := NamesReadFrom.of_spells noNames spellsNames notComma
    simpa using ParametersReadFrom.some isOpening named isClosing

/-! ## Statements that can be read back -/

namespace Statement

/-- That a statement is read back, up to spans, from all tokens that spell its
words. -/
structure Readable (around : Surroundings) (statement : Statement) : Prop where
  inBody : ∀ used,
    List.Forall₂ Token.Spells used (statement.words lineBreak) →
    ∃ result : Statement, result.bare = statement.bare ∧
      ∀ rest, EndsLine rest →
        (StatementPart.declaration around result).ReadFrom (used ++ rest) rest
  asBody : statement.isBlock = true →
    ∀ used, List.Forall₂ Token.Spells used (statement.words lineBreak) →
    ∃ result : Statement, result.bare = statement.bare ∧
      ∀ rest,
        (StatementPart.statement around result).ReadFrom (used ++ rest) rest

/-- That statements are read back up to the end of their block or of the
input. -/
def BodyReadable (around : Surroundings) (body : List Statement) : Prop :=
  ∀ used, List.Forall₂ Token.Spells used (bodyWords lineBreak body) →
    ∃ results : List Statement, results.map bare = body.map bare ∧
      ∀ rest, around.endedBy (nextKind rest) = true →
        (StatementPart.statements around results).ReadFrom (used ++ rest) rest

/-- That the further branches of a conditional are read back. -/
def BranchesReadable
    (around : Surroundings)
    (others : List (Expression × Statement))
    (otherwise : Option Statement) :
    Prop :=
  ∀ used,
    List.Forall₂ Token.Spells used
      (branchWords lineBreak .elifKeyword others ++
        otherwiseWords lineBreak otherwise) →
    ∃ (results : List (Expression × Statement)) (last : Option Statement),
      results.map bareBranch = others.map bareBranch ∧
      last.map bare = otherwise.map bare ∧
      ∀ rest, EndsLine rest →
        (StatementPart.branches around results last).ReadFrom (used ++ rest)
          rest

namespace Readable

/-- A statement that is no block need only be read in a body. -/
theorem of_inBody
    {around : Surroundings}
    {statement : Statement}
    (notBlock : statement.isBlock = false)
    (inBody : ∀ used,
      List.Forall₂ Token.Spells used (statement.words lineBreak) →
      ∃ result : Statement, result.bare = statement.bare ∧
        ∀ rest, EndsLine rest →
          (StatementPart.declaration around result).ReadFrom (used ++ rest)
            rest) :
    statement.Readable around := by
  refine ⟨inBody, ?_⟩
  intro isBlock
  rw [notBlock] at isBlock
  cases isBlock

theorem expression
    {inner : Expression}
    (readable : inner.Readable)
    (around : Surroundings) :
    (Statement.expression inner).Readable around := by
  refine of_inBody rfl ?_
  intro used spells
  obtain ⟨result, alike, reads⟩ := readable.alone used spells
  refine ⟨.expression result, ?_, ?_⟩
  · rw [bare, mapSpans, mapSpans]
    exact congrArg Statement.expression alike
  · intro rest ends
    exact .simple (.expression (reads rest ends.not_extendsExpression))

theorem declaration
    {initializer : Expression}
    (readable : initializer.Readable)
    (around : Surroundings)
    (constant : Bool)
    (name : String)
    (span : Span) :
    (Statement.declaration constant name initializer span).Readable around := by
  refine of_inBody rfl ?_
  intro used spells
  obtain ⟨keyword, _, isKeyword, spellsNamed, rfl⟩ :=
    List.forall₂_cons_right_iff.mp spells
  obtain ⟨token, _, ⟨isName, rfl⟩, spellsGiven, rfl⟩ :=
    List.forall₂_cons_right_iff.mp spellsNamed
  obtain ⟨equals, usedValue, isEqual, spellsValue, rfl⟩ :=
    List.forall₂_cons_right_iff.mp spellsGiven
  obtain ⟨result, alike, reads⟩ := readable.alone usedValue spellsValue
  have isVariable :
      keyword.kind = .varKeyword ∨ keyword.kind = .constKeyword := by
    cases constant with
    | false => exact .inl isKeyword
    | true => exact .inr isKeyword
  have isConstant : decide (keyword.kind = .constKeyword) = constant := by
    cases constant <;> simp [show keyword.kind = _ from isKeyword]
  refine ⟨.declaration (keyword.kind = .constKeyword) token.lexeme result
    (keyword.span.through result.span), ?_, ?_⟩
  · rw [isConstant]
    simpa [bare, mapSpans, Expression.bare] using alike
  · intro rest ends
    exact .variableDeclaration isVariable isName isEqual
      (reads rest ends.not_extendsExpression)

/-- The tokens of a block start with a brace. -/
theorem nextKind_of_isBlock
    {statement : Statement}
    {used : List Token}
    (isBlock : statement.isBlock = true)
    (spells : List.Forall₂ Token.Spells used (statement.words lineBreak))
    (rest : List Token) :
    nextKind (used ++ rest) = .leftBrace := by
  cases statement with
  | block body span =>
      obtain ⟨opening, _, isOpening, _, rfl⟩ :=
        List.forall₂_cons_right_iff.mp spells
      exact isOpening
  | _ => cases isBlock

/-- The braces of a block, wherever they stand. -/
theorem braces
    {around : Surroundings}
    {body : List Statement}
    (readable : BodyReadable around.insideBlock body)
    {used : List Token}
    (spells : List.Forall₂ Token.Spells used
      (.mark .leftBrace :: bodyWords lineBreak body ++ [.mark .rightBrace])) :
    ∃ (results : List Statement) (span : Span),
      results.map bare = body.map bare ∧
      ∀ rest, (StatementPart.block around results span).ReadFrom (used ++ rest)
        rest := by
  obtain ⟨opening, _, isOpening, spellsInside, rfl⟩ :=
    List.forall₂_cons_right_iff.mp spells
  obtain ⟨usedBody, _, rfl, spellsBody, spellsClosing⟩ :=
    exists_of_spells_append spellsInside
  obtain ⟨closing, _, isClosing, ends, rfl⟩ :=
    List.forall₂_cons_right_iff.mp spellsClosing
  cases ends
  obtain ⟨results, alike, reads⟩ := readable usedBody spellsBody
  refine ⟨results, opening.span.through closing.span, alike, ?_⟩
  intro rest
  have content := reads (closing :: rest) (by
    rw [nextKind_cons, show closing.kind = .rightBrace from isClosing]
    rfl)
  simpa using StatementPart.ReadFrom.braces isOpening content isClosing

theorem block
    {around : Surroundings}
    {body : List Statement}
    (readable : BodyReadable around.insideBlock body)
    (span : Span) :
    (Statement.block body span).Readable around := by
  have asBody : ∀ used,
      List.Forall₂ Token.Spells used
        ((Statement.block body span).words lineBreak) →
      ∃ result : Statement, result.bare = (Statement.block body span).bare ∧
        ∀ rest, (StatementPart.statement around result).ReadFrom (used ++ rest)
          rest := by
    intro used spells
    obtain ⟨results, resultSpan, alike, reads⟩ := braces readable spells
    exact ⟨.block results resultSpan, by simpa [bare, mapSpans] using alike,
      fun rest => .block (reads rest)⟩
  refine ⟨?_, fun _ => asBody⟩
  intro used spells
  obtain ⟨result, alike, reads⟩ := asBody used spells
  exact ⟨result, alike, fun rest _ => .simple (reads rest)⟩

/-- A condition with the block that it guards. -/
theorem guarded
    {around : Surroundings}
    {condition : Expression}
    {body : Statement}
    (conditionReadable : condition.Readable)
    (bodyReadable : body.Readable around)
    (isBlock : body.isBlock = true)
    {used : List Token}
    (spells : List.Forall₂ Token.Spells used
      (condition.words ++ body.words lineBreak)) :
    ∃ (test : Expression) (result : Statement),
      test.bare = condition.bare ∧ result.bare = body.bare ∧
      ∀ rest, ∃ later,
        (ExpressionPart.expression test).ReadFrom (used ++ rest) later ∧
        (StatementPart.statement around result).ReadFrom later rest := by
  obtain ⟨usedCondition, usedBody, rfl, spellsCondition, spellsBody⟩ :=
    exists_of_spells_append spells
  obtain ⟨test, testAlike, readsTest⟩ :=
    conditionReadable.alone usedCondition spellsCondition
  obtain ⟨result, alike, reads⟩ :=
    bodyReadable.asBody isBlock usedBody spellsBody
  refine ⟨test, result, testAlike, alike, ?_⟩
  intro rest
  have notExtends : (nextKind (usedBody ++ rest)).extendsExpression = false := by
    rw [nextKind_of_isBlock isBlock spellsBody rest]
    rfl
  have tested := readsTest (usedBody ++ rest) notExtends
  rw [← List.append_assoc] at tested
  exact ⟨usedBody ++ rest, tested, reads rest⟩

theorem whileLoop
    {around : Surroundings}
    {condition : Expression}
    {body : Statement}
    (conditionReadable : condition.Readable)
    (bodyReadable : body.Readable around.insideLoop)
    (isBlock : body.isBlock = true)
    (span : Span) :
    (Statement.whileLoop condition body span).Readable around := by
  refine of_inBody rfl ?_
  intro used spells
  obtain ⟨keyword, usedLoop, isWhile, spellsLoop, rfl⟩ :=
    List.forall₂_cons_right_iff.mp spells
  obtain ⟨test, result, testAlike, alike, reads⟩ :=
    guarded conditionReadable bodyReadable isBlock spellsLoop
  refine ⟨.whileLoop test result (keyword.span.through result.span), ?_, ?_⟩
  · simpa [bare, Expression.bare, mapSpans] using And.intro testAlike alike
  · intro rest _
    obtain ⟨later, tested, repeated⟩ := reads rest
    exact .simple (.whileLoop isWhile tested repeated)

theorem conditional
    {around : Surroundings}
    {condition : Expression}
    {body : Statement}
    {others : List (Expression × Statement)}
    {otherwise : Option Statement}
    (conditionReadable : condition.Readable)
    (bodyReadable : body.Readable around)
    (isBlock : body.isBlock = true)
    (branchesReadable : BranchesReadable around others otherwise)
    (span : Span) :
    (Statement.conditional ((condition, body) :: others) otherwise
      span).Readable around := by
  refine of_inBody rfl ?_
  intro used spells
  rw [words, branchWords, List.append_assoc] at spells
  obtain ⟨_, usedOthers, rfl, spellsFirst, spellsOthers⟩ :=
    exists_of_spells_append spells
  obtain ⟨keyword, usedFirst, isIf, spellsGuarded, rfl⟩ :=
    List.forall₂_cons_right_iff.mp spellsFirst
  obtain ⟨test, result, testAlike, alike, reads⟩ :=
    guarded conditionReadable bodyReadable isBlock spellsGuarded
  obtain ⟨results, last, resultsAlike, lastAlike, readsOthers⟩ :=
    branchesReadable usedOthers spellsOthers
  refine ⟨.conditional ((test, result) :: results) last
    (keyword.span.through (Parser.lastBranch result results last).span), ?_, ?_⟩
  · rw [bare_conditional, bare_conditional, List.map_cons, List.map_cons,
      resultsAlike, lastAlike, bareBranch, bareBranch, testAlike, alike]
  · intro rest ends
    obtain ⟨later, tested, chosen⟩ := reads (usedOthers ++ rest)
    have read := StatementPart.ReadFrom.conditional isIf tested chosen
      (readsOthers rest ends)
    simpa using StatementPart.ReadFrom.simple read

theorem breakLoop
    {around : Surroundings}
    (inLoop : around.inLoop = true)
    (span : Span) :
    (Statement.breakLoop span).Readable around := by
  refine of_inBody rfl ?_
  intro used spells
  obtain ⟨keyword, _, isBreak, ends, rfl⟩ :=
    List.forall₂_cons_right_iff.mp spells
  cases ends
  exact ⟨.breakLoop keyword.span, rfl,
    fun rest _ => .simple (.breakLoop isBreak inLoop)⟩

theorem continueLoop
    {around : Surroundings}
    (inLoop : around.inLoop = true)
    (span : Span) :
    (Statement.continueLoop span).Readable around := by
  refine of_inBody rfl ?_
  intro used spells
  obtain ⟨keyword, _, isContinue, ends, rfl⟩ :=
    List.forall₂_cons_right_iff.mp spells
  cases ends
  exact ⟨.continueLoop keyword.span, rfl,
    fun rest _ => .simple (.continueLoop isContinue inLoop)⟩

theorem returnNothing
    {around : Surroundings}
    (inFunction : around.inFunction = true)
    (span : Span) :
    (Statement.returnValue none span).Readable around := by
  refine of_inBody rfl ?_
  intro used spells
  obtain ⟨keyword, _, isReturn, ends, rfl⟩ :=
    List.forall₂_cons_right_iff.mp spells
  cases ends
  refine ⟨.returnValue none keyword.span, rfl, ?_⟩
  intro rest ends
  have isClosed : around.closedBy (nextKind rest) = true := by
    rw [ends.nextKind_eq]
    rfl
  exact .simple (.returnNothing isReturn inFunction isClosed)

theorem returnValue
    {around : Surroundings}
    {value : Expression}
    (readable : value.Readable)
    (inFunction : around.inFunction = true)
    (span : Span) :
    (Statement.returnValue (some value) span).Readable around := by
  refine of_inBody rfl ?_
  intro used spells
  obtain ⟨keyword, usedValue, isReturn, spellsValue, rfl⟩ :=
    List.forall₂_cons_right_iff.mp spells
  obtain ⟨result, alike, reads⟩ := readable.alone usedValue spellsValue
  refine ⟨.returnValue (some result) (keyword.span.through result.span), ?_, ?_⟩
  · simpa [bare, Expression.bare, mapSpans] using alike
  · intro rest ends
    exact .simple (.returnValue isReturn inFunction
      (reads rest ends.not_extendsExpression))

theorem function
    {around : Surroundings}
    {body : List Statement}
    (readable : BodyReadable around.insideFunction.insideBlock body)
    (name : String)
    (parameters : List String)
    (span : Span) :
    (Statement.function name parameters body span).Readable around := by
  refine of_inBody rfl ?_
  intro used spells
  rw [words, List.cons_append, List.cons_append, List.append_assoc] at spells
  obtain ⟨keyword, _, isFunction, spellsNamed, rfl⟩ :=
    List.forall₂_cons_right_iff.mp spells
  obtain ⟨token, _, ⟨isName, rfl⟩, spellsDeclared, rfl⟩ :=
    List.forall₂_cons_right_iff.mp spellsNamed
  obtain ⟨usedParameters, usedBody, rfl, spellsParameters, spellsBody⟩ :=
    exists_of_spells_append spellsDeclared
  obtain ⟨results, resultSpan, alike, reads⟩ := braces readable spellsBody
  refine ⟨.function token.lexeme parameters results
    (keyword.span.through resultSpan), ?_, ?_⟩
  · simpa [bare, mapSpans] using alike
  · intro rest _
    have named := ParametersReadFrom.of_spells spellsParameters
      (usedBody ++ rest)
    have read := StatementPart.ReadFrom.functionDeclaration isFunction isName
      named (reads rest)
    simpa using read

end Readable

/-! ## Bodies and branches -/

theorem BodyReadable.nil (around : Surroundings) :
    BodyReadable around [] := by
  intro used spells
  cases spells
  refine ⟨[], rfl, ?_⟩
  intro rest isEnded
  have noBreak : nextKind rest ≠ .newline := by
    intro isBreak
    rw [isBreak] at isEnded
    cases isEnded
  have skipped := skipBreaks_of_ne noBreak
  have read : (StatementPart.statements around []).ReadFrom rest
      (skipBreaks rest) :=
    .noStatement (by rw [skipped]; exact isEnded)
  rwa [skipped] at read

theorem BodyReadable.cons
    {around : Surroundings}
    {statement : Statement}
    {others : List Statement}
    (readable : statement.Readable around)
    (othersReadable : BodyReadable around others) :
    BodyReadable around (statement :: others) := by
  intro used spells
  rw [bodyWords, List.append_assoc] at spells
  obtain ⟨usedFirst, _, rfl, spellsFirst, spellsRest⟩ :=
    exists_of_spells_append spells
  obtain ⟨newline, usedOthers, isBreak, spellsOthers, rfl⟩ :=
    List.forall₂_cons_right_iff.mp spellsRest
  obtain ⟨result, alike, reads⟩ := readable.inBody usedFirst spellsFirst
  obtain ⟨results, othersAlike, readsOthers⟩ :=
    othersReadable usedOthers spellsOthers
  refine ⟨result :: results, by simp [alike, othersAlike], ?_⟩
  intro rest isEnded
  have later := readsOthers rest isEnded
  have first := reads (newline :: (usedOthers ++ rest))
    ⟨isBreak, later.not_atBranch⟩
  have noBreak :
      nextKind (usedFirst ++ newline :: (usedOthers ++ rest)) ≠ .newline :=
    TokenKind.ne_of_startsDeclaration first.startsWith _ rfl
  have read : (StatementPart.statements around (result :: results)).ReadFrom
      (usedFirst ++ newline :: (usedOthers ++ rest)) rest :=
    .moreStatements (by rw [skipBreaks_of_ne noBreak]; exact first)
      (.newline isBreak) later
  simpa using read

theorem BranchesReadable.none (around : Surroundings) :
    BranchesReadable around [] none := by
  intro used spells
  cases spells
  refine ⟨[], .none, rfl, rfl, ?_⟩
  intro rest ends
  rw [List.nil_append]
  have isBreak : nextKind (skipBranchBreak rest) = .newline := by
    rw [ends.skipBranchBreak_eq, ends.nextKind_eq]
  exact .noBranch (by rw [isBreak]; nofun) (by rw [isBreak]; nofun)

theorem BranchesReadable.otherwise
    {around : Surroundings}
    {body : Statement}
    (readable : body.Readable around)
    (isBlock : body.isBlock = true) :
    BranchesReadable around [] (some body) := by
  intro used spells
  obtain ⟨keyword, usedBody, isElse, spellsBody, rfl⟩ :=
    List.forall₂_cons_right_iff.mp spells
  obtain ⟨result, alike, reads⟩ := readable.asBody isBlock usedBody spellsBody
  refine ⟨[], some result, rfl, congrArg some alike, ?_⟩
  intro rest _
  have notBreak : keyword.kind ≠ .newline := by
    rw [show keyword.kind = .elseKeyword from isElse]
    nofun
  exact .elseBranch (skipBranchBreak_cons_of_ne notBreak _) isElse (reads rest)

theorem BranchesReadable.cons
    {around : Surroundings}
    {condition : Expression}
    {body : Statement}
    {others : List (Expression × Statement)}
    {otherwise : Option Statement}
    (conditionReadable : condition.Readable)
    (bodyReadable : body.Readable around)
    (isBlock : body.isBlock = true)
    (othersReadable : BranchesReadable around others otherwise) :
    BranchesReadable around ((condition, body) :: others) otherwise := by
  intro used spells
  rw [branchWords, List.append_assoc] at spells
  obtain ⟨_, usedOthers, rfl, spellsFirst, spellsOthers⟩ :=
    exists_of_spells_append spells
  obtain ⟨keyword, usedFirst, isElif, spellsGuarded, rfl⟩ :=
    List.forall₂_cons_right_iff.mp spellsFirst
  obtain ⟨test, result, testAlike, alike, reads⟩ :=
    Readable.guarded conditionReadable bodyReadable isBlock spellsGuarded
  obtain ⟨results, last, resultsAlike, lastAlike, readsOthers⟩ :=
    othersReadable usedOthers spellsOthers
  refine ⟨(test, result) :: results, last, ?_, lastAlike, ?_⟩
  · rw [List.map_cons, List.map_cons, resultsAlike, bareBranch, bareBranch,
      testAlike, alike]
  · intro rest ends
    obtain ⟨later, tested, chosen⟩ := reads (usedOthers ++ rest)
    have notBreak : keyword.kind ≠ .newline := by
      rw [show keyword.kind = .elifKeyword from isElif]
      decide
    have read := StatementPart.ReadFrom.elifBranch
      (skipBranchBreak_cons_of_ne notBreak _) isElif tested chosen
      (readsOthers rest ends)
    simpa using read

mutual

/-- Whatever is well shaped can be read back. -/
theorem readable_of_wellShaped : ∀ (statement : Statement)
    (around : Surroundings),
    statement.Placed around.inLoop around.inFunction →
    statement.Braced →
    (∀ expression ∈ statement.expressions, expression.Levelled) →
    statement.Readable around
  | .expression inner, around, _, _, nested =>
      .expression (inner.readable_of_levelled (nested _ (by simp [expressions])))
        around
  | .declaration constant name initializer span, around, _, _, nested =>
      .declaration
        (initializer.readable_of_levelled (nested _ (by simp [expressions])))
        around constant name span
  | .block body span, around, placed, braced, nested =>
      .block (bodyReadable_of_wellShaped body _ placed braced nested) span
  | .whileLoop condition body span, around, placed, braced, nested =>
      .whileLoop
        (condition.readable_of_levelled (nested _ (by simp [expressions])))
        (readable_of_wellShaped body _ placed braced.2
          fun _ member => nested _ (by simp [expressions, member]))
        braced.1 span
  | .conditional [] _ _, _, _, braced, _ =>
      absurd rfl braced.1
  | .conditional ((condition, body) :: others) otherwise span, around, placed,
      braced, nested =>
      .conditional
        (condition.readable_of_levelled
          (nested _ (by simp [expressions, branchExpressions])))
        (readable_of_wellShaped body _ placed.1.1 braced.2.1.1.2
          fun _ member =>
            nested _ (by simp [expressions, branchExpressions, member]))
        braced.2.1.1.1
        (branchesReadable_of_wellShaped others otherwise around placed.1.2
          braced.2.1.2
          (fun _ member =>
            nested _ (by simp [expressions, branchExpressions, member]))
          (otherwiseReadable_of_wellShaped otherwise around placed.2
            braced.2.2
            (fun _ member => nested _ (by simp [expressions, member]))))
        span
  | .breakLoop span, _, placed, _, _ => .breakLoop placed span
  | .continueLoop span, _, placed, _, _ => .continueLoop placed span
  | .returnValue none span, _, placed, _, _ => .returnNothing placed span
  | .returnValue (some value) span, _, placed, _, nested =>
      .returnValue
        (value.readable_of_levelled (nested _ (by simp [expressions])))
        placed span
  | .function name parameters body span, around, placed, braced, nested =>
      .function (bodyReadable_of_wellShaped body _ placed braced nested) name
        parameters span

theorem bodyReadable_of_wellShaped : ∀ (body : List Statement)
    (around : Surroundings),
    BodyPlaced around.inLoop around.inFunction body →
    BodyBraced body →
    (∀ expression ∈ bodyExpressions body, expression.Levelled) →
    BodyReadable around body
  | [], around, _, _, _ => .nil around
  | statement :: others, around, placed, braced, nested =>
      .cons
        (readable_of_wellShaped statement around placed.1 braced.1
          fun _ member => nested _ (by simp [bodyExpressions, member]))
        (bodyReadable_of_wellShaped others around placed.2 braced.2
          fun _ member => nested _ (by simp [bodyExpressions, member]))

theorem branchesReadable_of_wellShaped :
    ∀ (branches : List (Expression × Statement)) (otherwise : Option Statement)
      (around : Surroundings),
    BranchesPlaced around.inLoop around.inFunction branches →
    BranchesBraced branches →
    (∀ expression ∈ branchExpressions branches, expression.Levelled) →
    BranchesReadable around [] otherwise →
    BranchesReadable around branches otherwise
  | [], _, _, _, _, _, lastReadable => lastReadable
  | (condition, body) :: others, otherwise, around, placed, braced, nested,
      lastReadable =>
      .cons
        (condition.readable_of_levelled
          (nested _ (by simp [branchExpressions])))
        (readable_of_wellShaped body around placed.1 braced.1.2
          fun _ member => nested _ (by simp [branchExpressions, member]))
        braced.1.1
        (branchesReadable_of_wellShaped others otherwise around placed.2
          braced.2
          (fun _ member => nested _ (by simp [branchExpressions, member]))
          lastReadable)

theorem otherwiseReadable_of_wellShaped : ∀ (otherwise : Option Statement)
    (around : Surroundings),
    OtherwisePlaced around.inLoop around.inFunction otherwise →
    OtherwiseBraced otherwise →
    (∀ expression ∈ otherwiseExpressions otherwise, expression.Levelled) →
    BranchesReadable around [] otherwise
  | none, around, _, _, _ => .none around
  | some body, around, placed, braced, nested =>
      .otherwise (readable_of_wellShaped body around placed braced.2 nested)
        braced.1

end

end Statement

/-! ## Where the words end -/

/-- Whether no word of a list stands for the end of the input. -/
def NoEnd (words : List Word) : Prop :=
  ∀ word ∈ words, word.kind ≠ .endOfInput

namespace NoEnd

@[simp] theorem nil : NoEnd [] :=
  nofun

@[simp] theorem cons_iff
    {word : Word}
    {words : List Word} :
    NoEnd (word :: words) ↔ word.kind ≠ .endOfInput ∧ NoEnd words :=
  List.forall_mem_cons

@[simp] theorem append_iff
    {first second : List Word} :
    NoEnd (first ++ second) ↔ NoEnd first ∧ NoEnd second :=
  List.forall_mem_append

theorem commaSeparated
    {parts : List (List Word)}
    (noEnds : ∀ part ∈ parts, NoEnd part) :
    NoEnd (commaSeparated parts) := by
  induction parts with
  | nil =>
      exact nil
  | cons first others inductionHypothesis =>
      obtain ⟨noEnd, othersNoEnd⟩ := List.forall_mem_cons.mp noEnds
      by_cases isLast : others = []
      · subst isLast
        simpa using noEnd
      · rw [commaSeparated_cons _ isLast]
        simpa [Word.kind] using
          And.intro noEnd (inductionHypothesis othersNoEnd)

theorem operator
    {operator : Operator}
    {level : Nat}
    {words : List Word}
    (hasLevel : operator.kind.level? = some level)
    (noEnd : NoEnd words) :
    NoEnd (.operator operator :: words) := by
  refine cons_iff.mpr ⟨?_, noEnd⟩
  intro isEnd
  rw [Word.kind] at isEnd
  rw [isEnd] at hasLevel
  cases hasLevel

theorem sign
    {operator : Operator}
    {words : List Word}
    (isUnary : operator.kind.isUnary = true)
    (noEnd : NoEnd words) :
    NoEnd (.operator operator :: words) := by
  refine cons_iff.mpr ⟨?_, noEnd⟩
  intro isEnd
  rw [Word.kind] at isEnd
  rw [isEnd] at isUnary
  cases isUnary

theorem literal (value : Literal) :
    NoEnd [.literal value] := by
  refine cons_iff.mpr ⟨?_, nil⟩
  cases value with
  | int number => nofun
  | float number => nofun
  | bool truth => cases truth <;> nofun

end NoEnd

namespace Expression

mutual

theorem noEnd_words : ∀ expression : Expression,
    expression.Levelled → NoEnd expression.words
  | .literal value _, _ => .literal value
  | .reference _ _, _ => by
      simp [words, Word.kind]
  | .assign _ value _, nested => by
      simpa [words, Word.kind] using noEnd_words value nested
  | .getAttribute object _ _, nested => by
      simpa [words, Word.kind] using noEnd_words object nested.2
  | .setAttribute object _ value _, nested => by
      simpa [words, Word.kind] using
        And.intro (noEnd_words object nested.1.2) (noEnd_words value nested.2)
  | .unary _ operand _, nested =>
      .sign nested.1 (noEnd_words operand nested.2.2)
  | .binary left _ right _, ⟨_, hasLevel, _, leftNested, rightNested⟩ =>
      NoEnd.append_iff.mpr
        ⟨noEnd_words left leftNested.2,
          .operator hasLevel (noEnd_words right rightNested.2)⟩
  | .logical left _ right _, ⟨_, hasLevel, _, leftNested, rightNested⟩ =>
      NoEnd.append_iff.mpr
        ⟨noEnd_words left leftNested.2,
          .operator hasLevel (noEnd_words right rightNested.2)⟩
  | .grouping inner _, nested => by
      simpa [words, Word.kind] using noEnd_words inner nested
  | .call callee arguments _, nested => by
      have given := NoEnd.commaSeparated
        (noEnd_wordsOfEach arguments nested.2)
      simpa [words, Word.kind] using
        And.intro (noEnd_words callee nested.1.2) given

theorem noEnd_wordsOfEach : ∀ expressions : List Expression,
    AllLevelled expressions → ∀ part ∈ wordsOfEach expressions, NoEnd part
  | [], _ => nofun
  | first :: others, nested =>
      List.forall_mem_cons.mpr
        ⟨noEnd_words first nested.1, noEnd_wordsOfEach others nested.2⟩

end

end Expression

theorem noEnd_parameterWords (names : List String) :
    NoEnd (parameterWords names) := by
  have given : NoEnd (commaSeparated (names.map fun name => [.name name])) := by
    apply NoEnd.commaSeparated
    intro part isPart
    obtain ⟨name, _, rfl⟩ := List.mem_map.mp isPart
    simp [Word.kind]
  simpa [parameterWords, Word.kind] using given

namespace Statement

mutual

theorem noEnd_words
    {separator : List Word}
    (separated : NoEnd separator) :
    ∀ statement : Statement,
    (∀ expression ∈ statement.expressions, expression.Levelled) →
    NoEnd (statement.words separator)
  | .expression inner, nested =>
      inner.noEnd_words (nested _ (by simp [expressions]))
  | .declaration constant _ initializer _, nested => by
      have noEnd := initializer.noEnd_words (nested _ (by simp [expressions]))
      cases constant <;> simpa [words, Word.kind] using noEnd
  | .block body _, nested => by
      simpa [words, Word.kind] using noEnd_bodyWords separated body nested
  | .whileLoop condition body _, nested => by
      have tested := condition.noEnd_words (nested _ (by simp [expressions]))
      have repeated := noEnd_words separated body fun _ member =>
        nested _ (by simp [expressions, member])
      simpa [words, Word.kind] using And.intro tested repeated
  | .conditional branches otherwise _, nested => by
      have chosen := noEnd_branchWords separated branches .ifKeyword nofun
        fun _ member => nested _ (by simp [expressions, member])
      have last := noEnd_otherwiseWords separated otherwise
        fun _ member => nested _ (by simp [expressions, member])
      simpa [words, Word.kind] using And.intro chosen last
  | .breakLoop _, _ => by
      simp [words, Word.kind]
  | .continueLoop _, _ => by
      simp [words, Word.kind]
  | .returnValue none _, _ => by
      simp [words, Word.kind]
  | .returnValue (some value) _, nested => by
      simpa [words, Word.kind] using
        value.noEnd_words (nested _ (by simp [expressions]))
  | .function _ parameters body _, nested => by
      simpa [words, Word.kind] using
        And.intro (noEnd_parameterWords parameters)
          (noEnd_bodyWords separated body nested)

theorem noEnd_bodyWords
    {separator : List Word}
    (separated : NoEnd separator) :
    ∀ body : List Statement,
    (∀ expression ∈ bodyExpressions body, expression.Levelled) →
    NoEnd (bodyWords separator body)
  | [], _ => .nil
  | statement :: others, nested => by
      have first := noEnd_words separated statement fun _ member =>
        nested _ (by simp [bodyExpressions, member])
      have rest := noEnd_bodyWords separated others fun _ member =>
        nested _ (by simp [bodyExpressions, member])
      simpa [bodyWords] using And.intro first (And.intro separated rest)

theorem noEnd_branchWords
    {separator : List Word}
    (separated : NoEnd separator) :
    ∀ (branches : List (Expression × Statement))
    (keyword : TokenKind),
    keyword ≠ .endOfInput →
    (∀ expression ∈ branchExpressions branches, expression.Levelled) →
    NoEnd (branchWords separator keyword branches)
  | [], _, _, _ => .nil
  | (condition, body) :: others, keyword, notEnd, nested => by
      have tested := condition.noEnd_words
        (nested _ (by simp [branchExpressions]))
      have chosen := noEnd_words separated body fun _ member =>
        nested _ (by simp [branchExpressions, member])
      have rest := noEnd_branchWords separated others .elifKeyword nofun
        fun _ member => nested _ (by simp [branchExpressions, member])
      simpa [branchWords, Word.kind] using
        And.intro notEnd (And.intro tested (And.intro chosen rest))

theorem noEnd_otherwiseWords
    {separator : List Word}
    (separated : NoEnd separator) :
    ∀ otherwise : Option Statement,
    (∀ expression ∈ otherwiseExpressions otherwise, expression.Levelled) →
    NoEnd (otherwiseWords separator otherwise)
  | none, _ => .nil
  | some body, nested => by
      simpa [otherwiseWords, Word.kind] using noEnd_words separated body nested

end

end Statement

theorem NoEnd.kind_ne_of_spells
    {used : List Token}
    {words : List Word}
    (noEnd : NoEnd words)
    (spells : List.Forall₂ Token.Spells used words) :
    ∀ token ∈ used, token.kind ≠ .endOfInput := by
  induction spells with
  | nil =>
      nofun
  | cons spellsFirst _ inductionHypothesis =>
      obtain ⟨notEnd, othersNoEnd⟩ := cons_iff.mp noEnd
      rw [← spellsFirst.kind_eq] at notEnd
      exact List.forall_mem_cons.mpr
        ⟨notEnd, inductionHypothesis othersNoEnd⟩

/-- Tokens before the first one that marks the end of the input. -/
theorem TokenStream.body_of_spells
    {used : List Token}
    {words : List Word}
    {stop : Token}
    (spells : List.Forall₂ Token.Spells used words)
    (noEnd : NoEnd words)
    (isStop : stop.kind = .endOfInput) :
    (TokenStream.ofTokens (used ++ [stop])).body = used := by
  have kept : ∀ token ∈ used, decide (token.kind ≠ .endOfInput) = true := by
    intro token member
    simpa using noEnd.kind_ne_of_spells spells token member
  simp only [ofTokens]
  rw [List.takeWhile_append_of_pos kept]
  simp [isStop]

/-! ## Programs -/

/-- A program is read back, up to spans, from tokens that spell its words with a
line break behind every statement.  Its operators have to be nested by their
levels, loops and functions may only be left from inside, and the bodies of loops
and branches have to be blocks. -/
theorem parse_written
    {program : List Statement}
    {tokens : List Token}
    (nested : ∀ expression ∈ Statement.bodyExpressions program,
      expression.Levelled)
    (placed : Statement.BodyPlaced false false program)
    (braced : Statement.BodyBraced program)
    (spells : List.Forall₂ Token.Spells tokens
      (Statement.bodyWords [.mark .newline] program ++
        [.mark .endOfInput])) :
    ∃ result : List Statement,
      parse tokens = .ok result ∧
      result.map Statement.bare = program.map Statement.bare := by
  obtain ⟨used, _, rfl, spellsProgram, spellsEnd⟩ :=
    exists_of_spells_append spells
  obtain ⟨stop, _, isStop, ends, rfl⟩ :=
    List.forall₂_cons_right_iff.mp spellsEnd
  cases ends
  obtain ⟨result, alike, reads⟩ :=
    Statement.bodyReadable_of_wellShaped program .outermost placed braced nested
      used spellsProgram
  refine ⟨result, parse_eq_ok_iff.mpr ?_, alike⟩
  rw [TokenStream.body_of_spells spellsProgram
    (Statement.noEnd_bodyWords (by simp [Word.kind]) program nested) isStop]
  simpa using reads [] rfl

/-- The program `while x { a = 1 + 2 * -f(c)`, line break, `break`, line break, `}`,
line break. -/
theorem parse_written_loop :
    let here := Span.emptyAt .origin ⟨"", ""⟩
    let tokens : List Token :=
      [⟨.whileKeyword, "while", here⟩, ⟨.identifier, "x", here⟩,
        ⟨.leftBrace, "\x7b", here⟩, ⟨.identifier, "a", here⟩,
        ⟨.equal, "=", here⟩, ⟨.int, "1", here⟩, ⟨.plus, "+", here⟩,
        ⟨.int, "2", here⟩, ⟨.star, "*", here⟩, ⟨.dash, "-", here⟩,
        ⟨.identifier, "f", here⟩, ⟨.leftParen, "(", here⟩,
        ⟨.identifier, "c", here⟩, ⟨.rightParen, ")", here⟩,
        ⟨.newline, "\n", here⟩, ⟨.breakKeyword, "break", here⟩,
        ⟨.newline, "\n", here⟩, ⟨.rightBrace, "\x7d", here⟩,
        ⟨.newline, "\n", here⟩, ⟨.endOfInput, "", here⟩]
    let assignment : Expression :=
      .assign "a"
        (.binary (.literal (.int 1) here) ⟨.plus, "+"⟩
          (.binary (.literal (.int 2) here) ⟨.star, "*"⟩
            (.unary ⟨.dash, "-"⟩
              (.call (.reference "f" here) [.reference "c" here] here) here)
            here)
          here)
        here
    let program : List Statement :=
      [.whileLoop (.reference "x" here)
        (.block [.expression assignment, .breakLoop here] here) here]
    ∃ result : List Statement,
      parse tokens = .ok result ∧
      result.map Statement.bare = program.map Statement.bare := by
  apply parse_written
  · simp [Statement.bodyExpressions, Statement.expressions,
      Expression.Levelled, Expression.AllLevelled, Expression.level,
      TokenKind.level?, TokenKind.isUnary, unaryLevel, callLevel,
      primaryLevel]
  · simp [Statement.BodyPlaced, Statement.Placed]
  · simp [Statement.BodyBraced, Statement.Braced, Statement.isBlock]
  · simp [Statement.bodyWords, Statement.words, Expression.words,
      Expression.wordsOfEach, Token.Spells, Token.operator, Token.literal?]
    exact ⟨rfl, rfl⟩

end Scriptlet
