import Scriptlet.Proofs.Tree.Nesting
import Scriptlet.Proofs.Tree.Words

namespace Scriptlet

/-!
# The layout of nodes

A node of a tree is written with some words of its own and with the nodes directly inside
of it, in a fixed order.  The layout of a node lists the two kinds in this order.  So the
words of a node are those of its layout, and what is directly inside of it can be told
apart by its place even if it is written like its neighbour.
-/

namespace Phrase

/-- The words of an expression or a statement. -/
def words : Phrase → List Word
  | .expression inner => inner.words
  | .statement inner => inner.words []

/-- The stretch of text of an expression or a statement. -/
def span : Phrase → Span
  | .expression inner => inner.span
  | .statement inner => inner.span

/-- The nodes directly inside of one, in the order of the text.  The statements in a block
or in the body of a function are among them. -/
def children : Phrase → List Phrase
  | .statement (.block body _) => body.map .statement
  | .statement (.function _ _ body _) => body.map .statement
  | phrase => phrase.parts

end Phrase

/-- What stands in a node: a word of its own, or a node directly inside of it. -/
inductive Item where
  | word (text : Word)
  | node (phrase : Phrase)

namespace Item

/-- A keyword, a delimiter or an assignment sign. -/
def mark (kind : TokenKind) : Item :=
  .word (.mark kind)

/-- An expression directly inside of a node. -/
def expression (inner : Expression) : Item :=
  .node (.expression inner)

/-- A statement directly inside of a node. -/
def statement (inner : Statement) : Item :=
  .node (.statement inner)

/-- The words of an item. -/
def words : Item → List Word
  | .word text => [text]
  | .node phrase => phrase.words

/-- The node that an item is, if it is one. -/
def node? : Item → Option Phrase
  | .word _ => none
  | .node phrase => some phrase

end Item

/-! ## Layouts -/

/-- The layout of the arguments of a call. -/
def argumentLayout (arguments : List Expression) : List Item :=
  (arguments.map Item.expression).intersperse (.mark .comma)

/-- The layout of an expression. -/
def Expression.layout : Expression → List Item
  | .literal value _ => [.word (.literal value)]
  | .reference name _ => [.word (.name name)]
  | .assign name value _ => [.word (.name name), .mark .equal, .expression value]
  | .getAttribute object name _ =>
      [.expression object, .mark .dot, .word (.name name)]
  | .setAttribute object name value _ =>
      [.expression object, .mark .dot, .word (.name name), .mark .equal,
        .expression value]
  | .unary operator operand _ => [.word (.operator operator), .expression operand]
  | .binary left operator right _ =>
      [.expression left, .word (.operator operator), .expression right]
  | .logical left operator right _ =>
      [.expression left, .word (.operator operator), .expression right]
  | .grouping inner _ => [.mark .leftParen, .expression inner, .mark .rightParen]
  | .call callee arguments _ =>
      .expression callee :: .mark .leftParen ::
        (argumentLayout arguments ++ [.mark .rightParen])

theorem Expression.layout_combine
    (left right : Expression)
    (operator : Token) :
    (left.combine operator right).layout =
      [.expression left, .word (.operator operator.operator), .expression right] := by
  unfold combine
  split <;> rfl

namespace Statement

/-- The layout of statements between braces. -/
def blockLayout (body : List Statement) : List Item :=
  .mark .leftBrace :: (body.map Item.statement ++ [.mark .rightBrace])

/-- The layout of branches, of which the first has the given keyword. -/
def branchLayout : TokenKind → List (Expression × Statement) → List Item
  | _, [] => []
  | keyword, (condition, body) :: rest =>
      .mark keyword :: .expression condition :: .statement body ::
        branchLayout .elifKeyword rest

/-- The layout of the last resort of a conditional. -/
def otherwiseLayout : Option Statement → List Item
  | none => []
  | some body => [.mark .elseKeyword, .statement body]

/-- The layout of a statement. -/
def layout : Statement → List Item
  | .expression inner => [.expression inner]
  | .declaration constant name initializer _ =>
      [.mark (if constant then .constKeyword else .varKeyword), .word (.name name),
        .mark .equal, .expression initializer]
  | .block body _ => blockLayout body
  | .whileLoop condition body _ =>
      [.mark .whileKeyword, .expression condition, .statement body]
  | .conditional branches otherwise _ =>
      branchLayout .ifKeyword branches ++ otherwiseLayout otherwise
  | .breakLoop _ => [.mark .breakKeyword]
  | .continueLoop _ => [.mark .continueKeyword]
  | .returnValue value _ =>
      .mark .returnKeyword :: value.toList.map Item.expression
  | .function name parameters body _ =>
      .mark .functionKeyword :: .word (.name name) ::
        ((parameterWords parameters).map Item.word ++ blockLayout body)

end Statement

/-- The layout of an expression or a statement. -/
def Phrase.layout : Phrase → List Item
  | .expression inner => inner.layout
  | .statement inner => inner.layout

/-! ## The words of a layout -/

theorem argumentLayout_cons
    (first : Expression)
    {others : List Expression}
    (someOthers : others ≠ []) :
    argumentLayout (first :: others) =
      .expression first :: .mark .comma :: argumentLayout others := by
  obtain ⟨second, rest, rfl⟩ := List.exists_cons_of_ne_nil someOthers
  rfl

theorem words_argumentLayout (arguments : List Expression) :
    (argumentLayout arguments).flatMap Item.words =
      commaSeparated (Expression.wordsOfEach arguments) := by
  induction arguments with
  | nil => rfl
  | cons first others inductionHypothesis =>
      rw [Expression.wordsOfEach]
      by_cases noOthers : others = []
      · subst noOthers
        rw [Expression.wordsOfEach, commaSeparated_singleton]
        exact List.append_nil _
      · have someWords : Expression.wordsOfEach others ≠ [] := by
          rwa [ne_eq, Expression.wordsOfEach_eq_nil_iff]
        rw [argumentLayout_cons first noOthers, commaSeparated_cons _ someWords,
          List.flatMap_cons, List.flatMap_cons, inductionHypothesis]
        rfl

theorem Expression.words_layout (expression : Expression) :
    expression.layout.flatMap Item.words = expression.words := by
  cases expression with
  | call callee arguments span =>
      rw [layout, words, List.flatMap_cons, List.flatMap_cons, List.flatMap_append,
        words_argumentLayout, List.append_assoc]
      rfl
  | _ => simp [layout, words, Item.words, Item.mark, Item.expression, Phrase.words]

namespace Statement

theorem words_parameters (parameters : List String) :
    ((parameterWords parameters).map Item.word).flatMap Item.words =
      parameterWords parameters := by
  rw [List.flatMap_map]
  exact List.flatMap_singleton' _

theorem words_body (body : List Statement) :
    (body.map Item.statement).flatMap Item.words = bodyWords [] body := by
  induction body with
  | nil => rfl
  | cons first rest inductionHypothesis =>
      rw [bodyWords, List.map_cons, List.flatMap_cons, inductionHypothesis,
        List.append_nil]
      rfl

theorem words_blockLayout (body : List Statement) :
    (blockLayout body).flatMap Item.words =
      .mark .leftBrace :: bodyWords [] body ++ [.mark .rightBrace] := by
  rw [blockLayout, List.flatMap_cons, List.flatMap_append, words_body]
  rfl

theorem words_branchLayout
    (keyword : TokenKind)
    (branches : List (Expression × Statement)) :
    (branchLayout keyword branches).flatMap Item.words =
      branchWords [] keyword branches := by
  induction branches generalizing keyword with
  | nil => rfl
  | cons branch rest inductionHypothesis =>
      rw [branchLayout, branchWords, List.flatMap_cons, List.flatMap_cons,
        List.flatMap_cons, inductionHypothesis, ← List.append_assoc, ← List.append_assoc]
      rfl

theorem words_otherwiseLayout (otherwise : Option Statement) :
    (otherwiseLayout otherwise).flatMap Item.words = otherwiseWords [] otherwise := by
  cases otherwise with
  | none => rfl
  | some body => exact congrArg (_ :: ·) (List.append_nil _)

theorem words_layout (statement : Statement) :
    statement.layout.flatMap Item.words = statement.words [] := by
  cases statement with
  | block body => exact words_blockLayout body
  | conditional branches otherwise =>
      rw [layout, words, List.flatMap_append, words_branchLayout, words_otherwiseLayout]
  | function name parameters body =>
      rw [layout, words, List.flatMap_cons, List.flatMap_cons, List.flatMap_append,
        words_parameters, words_blockLayout]
      simp [Item.mark, Item.words]
  | returnValue value =>
      cases value with
      | none => rfl
      | some value => exact congrArg (_ :: ·) (List.append_nil _)
  | _ => simp [layout, words, Item.words, Item.mark, Item.expression, Item.statement,
      Phrase.words]

end Statement

/-- The words of a node are those of its layout. -/
theorem Phrase.words_layout (phrase : Phrase) :
    phrase.layout.flatMap Item.words = phrase.words := by
  cases phrase with
  | expression inner => exact inner.words_layout
  | statement inner => exact inner.words_layout

/-! ## The nodes of a layout -/

theorem nodes_argumentLayout (arguments : List Expression) :
    (argumentLayout arguments).filterMap Item.node? = arguments.map .expression := by
  induction arguments with
  | nil => rfl
  | cons first others inductionHypothesis =>
      by_cases noOthers : others = []
      · subst noOthers
        rfl
      · rw [argumentLayout_cons first noOthers, List.map_cons, ← inductionHypothesis]
        rfl

namespace Statement

theorem nodes_body (body : List Statement) :
    (body.map Item.statement).filterMap Item.node? = body.map .statement := by
  rw [List.filterMap_map]
  exact congrFun List.filterMap_eq_map body

theorem nodes_blockLayout (body : List Statement) :
    (blockLayout body).filterMap Item.node? = body.map .statement := by
  rw [blockLayout, List.filterMap_cons_none rfl, List.filterMap_append, nodes_body]
  exact List.append_nil _

theorem nodes_branchLayout
    (keyword : TokenKind)
    (branches : List (Expression × Statement)) :
    (branchLayout keyword branches).filterMap Item.node? =
      branches.flatMap fun branch => [.expression branch.1, .statement branch.2] := by
  induction branches generalizing keyword with
  | nil => rfl
  | cons branch rest inductionHypothesis =>
      rw [branchLayout, List.flatMap_cons, ← inductionHypothesis .elifKeyword]
      rfl

theorem nodes_otherwiseLayout (otherwise : Option Statement) :
    (otherwiseLayout otherwise).filterMap Item.node? =
      otherwise.toList.map .statement := by
  cases otherwise <;> rfl

end Statement

/-- The nodes directly inside of a node are those of its layout. -/
theorem Phrase.nodes_layout (phrase : Phrase) :
    phrase.layout.filterMap Item.node? = phrase.children := by
  cases phrase with
  | expression inner =>
      cases inner with
      | call callee arguments =>
          show Phrase.expression callee ::
            (argumentLayout arguments ++ [Item.mark .rightParen]).filterMap Item.node? = _
          rw [List.filterMap_append, nodes_argumentLayout]
          exact congrArg (_ :: ·) (List.append_nil _)
      | _ => rfl
  | statement inner =>
      cases inner with
      | block body => exact Statement.nodes_blockLayout body
      | conditional branches otherwise =>
          show (Statement.branchLayout _ branches ++ _).filterMap Item.node? = _
          rw [List.filterMap_append, Statement.nodes_branchLayout,
            Statement.nodes_otherwiseLayout]
          rfl
      | returnValue value => cases value <;> rfl
      | function name parameters body =>
          show ((parameterWords parameters).map Item.word ++
            Statement.blockLayout body).filterMap Item.node? = _
          rw [List.filterMap_append, Statement.nodes_blockLayout, List.filterMap_map]
          exact congrArg (· ++ _) (List.filterMap_none ..)
      | _ => rfl

end Scriptlet
