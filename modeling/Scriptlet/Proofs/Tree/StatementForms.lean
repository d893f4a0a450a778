import Scriptlet.Proofs.Tree.Forms

namespace Scriptlet

/-!
# The text forms of statements

The text form of a statement is that of an expression, or a list of items of which the
first is a word that no expression starts with.  The branches of a conditional behind the
first one, its last resort and the parameters of a function are lists of their own.  So the
text form determines the statement up to spans.
-/

/-- Whether a form is that of a statement that is no expression. -/
def Construct.isStatement : Construct → Bool
  | .declaration _ | .block | .loop | .conditional | .breaking | .continuing | .returning
  | .function => true
  | _ => false

theorem Expression.isStatement_construct (expression : Expression) :
    expression.construct.isStatement = false := by
  cases expression <;> rfl

namespace Statement

mutual

/-- Whether a statement can be told from its text: its names are no reserved words, its
expressions can be told from their texts, and every conditional has a branch. -/
def Legible : Statement → Prop
  | .expression inner => inner.Legible
  | .declaration _ name initializer _ => IsName name ∧ initializer.Legible
  | .block body _ => BodyLegible body
  | .whileLoop condition body _ => condition.Legible ∧ body.Legible
  | .conditional branches otherwise _ =>
      branches ≠ [] ∧ BranchesLegible branches ∧ OtherwiseLegible otherwise
  | .breakLoop _ => True
  | .continueLoop _ => True
  | .returnValue none _ => True
  | .returnValue (some value) _ => value.Legible
  | .function name parameters body _ =>
      IsName name ∧ (∀ parameter ∈ parameters, IsName parameter) ∧ BodyLegible body

/-- Whether all statements of a body can be told from their texts. -/
def BodyLegible : List Statement → Prop
  | [] => True
  | statement :: rest => statement.Legible ∧ BodyLegible rest

/-- Whether all branches can be told from their texts. -/
def BranchesLegible : List (Expression × Statement) → Prop
  | [] => True
  | (condition, body) :: rest =>
      (condition.Legible ∧ body.Legible) ∧ BranchesLegible rest

/-- Whether a last resort can be told from its text. -/
def OtherwiseLegible : Option Statement → Prop
  | none => True
  | some body => body.Legible

end

/-! ## Forms -/

/-- The text of a branch behind the first one. -/
def branchText (branch : Expression × Statement) : String :=
  bracketed ["elif", branch.1.display, branch.2.display]

/-- The text of a last resort. -/
def otherwiseText (body : Statement) : String :=
  bracketed ["else", body.display]

/-- The texts of the branches behind the first one and of the last resort. -/
def furtherTexts
    (branches : List (Expression × Statement))
    (otherwise : Option Statement) :
    List String :=
  branches.map branchText ++ otherwise.toList.map otherwiseText

/-- The form of the text of a block. -/
def blockForm (body : List Statement) : Form :=
  .list ("block" :: body.map display)

/-- The form of the text of a statement. -/
def form : Statement → Form
  | .expression inner => inner.form
  | .declaration false name initializer _ => .list ["var", name, initializer.display]
  | .declaration true name initializer _ => .list ["const", name, initializer.display]
  | .block body _ => blockForm body
  | .whileLoop condition body _ => .list ["while", condition.display, body.display]
  | .conditional [] _ _ => .list []
  | .conditional ((condition, body) :: others) otherwise _ =>
      .list ("if" :: condition.display :: body.display :: furtherTexts others otherwise)
  | .breakLoop _ => .list ["break"]
  | .continueLoop _ => .list ["continue"]
  | .returnValue none _ => .list ["return"]
  | .returnValue (some value) _ => .list ["return", value.display]
  | .function name parameters body _ =>
      .list ["function", name, bracketed parameters, (blockForm body).text]

theorem displayBody_eq (body : List Statement) :
    (displayBody body).toList = spaced (body.map display) := by
  induction body with
  | nil => rfl
  | cons statement rest inductionHypothesis =>
      simp [displayBody, spaced, inductionHypothesis]

theorem displayBranches_eq (branches : List (Expression × Statement)) :
    (displayBranches false branches).toList = spaced (branches.map branchText) := by
  induction branches with
  | nil => rfl
  | cons branch rest inductionHypothesis =>
      simp [displayBranches, spaced, inductionHypothesis, branchText, bracketed,
        String.intercalate_cons_cons]

theorem displayOtherwise_eq (otherwise : Option Statement) :
    (displayOtherwise otherwise).toList = spaced (otherwise.toList.map otherwiseText) := by
  cases otherwise with
  | none => rfl
  | some body =>
      simp [displayOtherwise, spaced, otherwiseText, bracketed,
        String.intercalate_cons_cons]

theorem text_blockForm (body : List Statement) :
    (blockForm body).text = "(block" ++ displayBody body ++ ")" := by
  apply String.toList_inj.mp
  rw [blockForm, Form.text, toList_bracketed_cons]
  simp [displayBody_eq]

theorem display_eq
    {statement : Statement}
    (legible : statement.Legible) :
    statement.display = statement.form.text := by
  apply String.toList_inj.mp
  cases statement with
  | expression inner => rw [display, form, inner.display_eq]
  | declaration constant name initializer span =>
      cases constant <;>
        simp [display, form, Form.text, bracketed, String.intercalate_cons_cons]
  | block body span => rw [display, form, text_blockForm]
  | whileLoop condition body span =>
      simp [display, form, Form.text, bracketed, String.intercalate_cons_cons]
  | conditional branches otherwise span =>
      cases branches with
      | nil => exact absurd rfl legible.1
      | cons branch others =>
          simp [display, displayBranches, form, Form.text, toList_bracketed_cons,
            furtherTexts, displayBranches_eq, displayOtherwise_eq, spaced]
  | breakLoop span => simp [display, form, Form.text, bracketed]
  | continueLoop span => simp [display, form, Form.text, bracketed]
  | returnValue value span =>
      cases value <;>
        simp [display, form, Form.text, bracketed, String.intercalate_cons_cons]
  | function name parameters body span =>
      rw [form, text_blockForm]
      simp [display, Form.text, bracketed, String.intercalate_cons_cons]

/-- What the text form of a statement is. -/
def construct : Statement → Construct
  | .expression inner => inner.construct
  | .declaration constant _ _ _ => .declaration constant
  | .block _ _ => .block
  | .whileLoop _ _ _ => .loop
  | .conditional _ _ _ => .conditional
  | .breakLoop _ => .breaking
  | .continueLoop _ => .continuing
  | .returnValue _ _ => .returning
  | .function _ _ _ _ => .function

theorem construct_form
    {statement : Statement}
    (legible : statement.Legible) :
    statement.form.construct = statement.construct := by
  cases statement with
  | expression inner => exact Expression.construct_form legible
  | declaration constant => cases constant <;> rfl
  | conditional branches =>
      cases branches with
      | nil => exact absurd rfl legible.1
      | cons => rfl
  | returnValue value => cases value <;> rfl
  | _ => rfl

/-! ## Legible statements have legible forms -/

theorem isItem_name
    {name : String}
    (isName : IsName name) :
    IsItem name :=
  isName.isWord.isPart.isItem

theorem isItem_expression
    {expression : Expression}
    (legible : expression.Legible) :
    IsItem expression.display :=
  (Expression.isPart_display legible).isItem

/-- A statement with a legible form is one item. -/
theorem isItem_of_form
    {statement : Statement}
    (legible : statement.Legible)
    (legibleForm : statement.form.IsLegible) :
    IsItem statement.display :=
  display_eq legible ▸ legibleForm.isPart.isItem

theorem legible_blockForm
    {body : List Statement}
    (areItems : ∀ item ∈ body.map display, IsItem item) :
    (blockForm body).IsLegible :=
  List.forall_mem_cons.mpr ⟨isItem_mark (by decide), areItems⟩

theorem isItem_branchText
    {branch : Expression × Statement}
    (legible : branch.1.Legible)
    (isItem : IsItem branch.2.display) :
    IsItem (branchText branch) :=
  isItem_bracketed
    (forall_mem_triple (isItem_mark (by decide)) (isItem_expression legible) isItem)

theorem isItem_otherwiseText
    {body : Statement}
    (isItem : IsItem body.display) :
    IsItem (otherwiseText body) :=
  isItem_bracketed (forall_mem_pair (isItem_mark (by decide)) isItem)

mutual

theorem legible_form : ∀ statement : Statement,
    statement.Legible → statement.form.IsLegible
  | .expression inner, legible => inner.legible_form legible
  | .declaration false _ _ _, ⟨isName, legible⟩ =>
      forall_mem_triple (isItem_mark (by decide)) (isItem_name isName)
        (isItem_expression legible)
  | .declaration true _ _ _, ⟨isName, legible⟩ =>
      forall_mem_triple (isItem_mark (by decide)) (isItem_name isName)
        (isItem_expression legible)
  | .block body _, legible => legible_blockForm (areItems_body body legible)
  | .whileLoop _ body _, ⟨legible, bodyLegible⟩ =>
      forall_mem_triple (isItem_mark (by decide)) (isItem_expression legible)
        (isItem_of_form bodyLegible (legible_form body bodyLegible))
  | .conditional [] _ _, legible => absurd rfl legible.1
  | .conditional ((_, body) :: others) otherwise _,
      ⟨_, ⟨⟨legible, bodyLegible⟩, othersLegible⟩, otherwiseLegible⟩ =>
      List.forall_mem_append.mpr
        ⟨forall_mem_triple (isItem_mark (by decide)) (isItem_expression legible)
            (isItem_of_form bodyLegible (legible_form body bodyLegible)),
          List.forall_mem_append.mpr
            ⟨areItems_branches others othersLegible,
              areItems_otherwise otherwise otherwiseLegible⟩⟩
  | .breakLoop _, _ => List.forall_mem_singleton.mpr (isItem_mark (by decide))
  | .continueLoop _, _ => List.forall_mem_singleton.mpr (isItem_mark (by decide))
  | .returnValue none _, _ => List.forall_mem_singleton.mpr (isItem_mark (by decide))
  | .returnValue (some _) _, legible =>
      forall_mem_pair (isItem_mark (by decide)) (isItem_expression legible)
  | .function _ _ body _, ⟨isName, areNames, legible⟩ =>
      List.forall_mem_cons.mpr ⟨isItem_mark (by decide),
        forall_mem_triple (isItem_name isName)
          (isItem_bracketed fun parameter member => isItem_name (areNames parameter member))
          (legible_blockForm (areItems_body body legible)).isPart.isItem⟩

theorem areItems_body : ∀ body : List Statement,
    BodyLegible body → ∀ item ∈ body.map display, IsItem item
  | [], _ => nofun
  | statement :: rest, ⟨legible, restLegible⟩ =>
      List.forall_mem_cons.mpr
        ⟨isItem_of_form legible (legible_form statement legible),
          areItems_body rest restLegible⟩

theorem areItems_branches : ∀ branches : List (Expression × Statement),
    BranchesLegible branches → ∀ item ∈ branches.map branchText, IsItem item
  | [], _ => nofun
  | (_, body) :: rest, ⟨⟨legible, bodyLegible⟩, restLegible⟩ =>
      List.forall_mem_cons.mpr
        ⟨isItem_branchText legible
            (isItem_of_form bodyLegible (legible_form body bodyLegible)),
          areItems_branches rest restLegible⟩

theorem areItems_otherwise : ∀ otherwise : Option Statement,
    OtherwiseLegible otherwise → ∀ item ∈ otherwise.toList.map otherwiseText, IsItem item
  | none, _ => nofun
  | some body, legible =>
      List.forall_mem_singleton.mpr
        (isItem_otherwiseText (isItem_of_form legible (legible_form body legible)))

end

/-- The text of a statement is one item. -/
theorem isItem_display
    {statement : Statement}
    (legible : statement.Legible) :
    IsItem statement.display :=
  isItem_of_form legible (legible_form statement legible)

/-! ## Branches -/

theorem branchText_injective
    {condition otherCondition : Expression}
    {body otherBody : Statement}
    (legible : condition.Legible ∧ body.Legible)
    (otherLegible : otherCondition.Legible ∧ otherBody.Legible)
    (sameText : branchText (condition, body) = branchText (otherCondition, otherBody)) :
    condition.display = otherCondition.display ∧ body.display = otherBody.display := by
  have sameItems := bracketed_injective
    (forall_mem_triple (isItem_mark (by decide)) (isItem_expression legible.1)
      (isItem_display legible.2))
    (forall_mem_triple (isItem_mark (by decide)) (isItem_expression otherLegible.1)
      (isItem_display otherLegible.2))
    sameText
  simpa using sameItems

theorem otherwiseText_injective
    {body other : Statement}
    (legible : body.Legible)
    (otherLegible : other.Legible)
    (sameText : otherwiseText body = otherwiseText other) :
    body.display = other.display := by
  have sameItems := bracketed_injective
    (forall_mem_pair (isItem_mark (by decide)) (isItem_display legible))
    (forall_mem_pair (isItem_mark (by decide)) (isItem_display otherLegible))
    sameText
  simpa using sameItems

/-- A branch is told from a last resort. -/
theorem branchText_ne_otherwiseText
    {condition : Expression}
    {body other : Statement}
    (legible : condition.Legible ∧ body.Legible)
    (otherLegible : other.Legible) :
    branchText (condition, body) ≠ otherwiseText other := by
  intro sameText
  have sameItems := bracketed_injective
    (forall_mem_triple (isItem_mark (by decide)) (isItem_expression legible.1)
      (isItem_display legible.2))
    (forall_mem_pair (isItem_mark (by decide)) (isItem_display otherLegible))
    sameText
  simp at sameItems

/-- Where the branches end and the last resort begins is determined by their texts. -/
theorem furtherTexts_injective
    {branches others : List (Expression × Statement)}
    {otherwise otherOtherwise : Option Statement}
    (legible : BranchesLegible branches ∧ OtherwiseLegible otherwise)
    (otherLegible : BranchesLegible others ∧ OtherwiseLegible otherOtherwise)
    (sameTexts : furtherTexts branches otherwise = furtherTexts others otherOtherwise) :
    branches.map branchText = others.map branchText ∧
      otherwise.map otherwiseText = otherOtherwise.map otherwiseText := by
  induction branches generalizing others with
  | nil =>
      cases others with
      | nil =>
          refine ⟨rfl, ?_⟩
          cases otherwise <;> cases otherOtherwise <;> simp_all [furtherTexts]
      | cons branch rest =>
          cases otherwise with
          | none => cases sameTexts
          | some body =>
              have sameFirst := (List.cons.inj sameTexts).1
              exact absurd sameFirst.symm
                (branchText_ne_otherwiseText otherLegible.1.1 legible.2)
  | cons branch rest inductionHypothesis =>
      cases others with
      | nil =>
          cases otherOtherwise with
          | none => cases sameTexts
          | some body =>
              have sameFirst := (List.cons.inj sameTexts).1
              exact absurd sameFirst
                (branchText_ne_otherwiseText legible.1.1 otherLegible.2)
      | cons other otherRest =>
          obtain ⟨sameFirst, sameRest⟩ := List.cons.inj sameTexts
          obtain ⟨sameBranches, sameOtherwise⟩ := inductionHypothesis
            ⟨legible.1.2, legible.2⟩ ⟨otherLegible.1.2, otherLegible.2⟩ sameRest
          exact ⟨by rw [List.map_cons, List.map_cons, sameFirst, sameBranches],
            sameOtherwise⟩

/-! ## Statements with one text -/

/-- Statements with one text have one form and are of one kind. -/
theorem alike_of_display
    {statement other : Statement}
    (legible : statement.Legible)
    (otherLegible : other.Legible)
    (sameText : statement.display = other.display) :
    statement.form = other.form ∧ statement.construct = other.construct := by
  rw [display_eq legible, display_eq otherLegible] at sameText
  have sameForm := Form.text_injective (legible_form statement legible)
    (legible_form other otherLegible) sameText
  refine ⟨sameForm, ?_⟩
  rw [← construct_form legible, sameForm, construct_form otherLegible]

/-- A form that no expression has is that of no expression. -/
theorem ne_construct_expression
    {construct : Construct}
    (isStatement : construct.isStatement = true)
    (inner : Expression) :
    construct ≠ inner.construct := by
  rintro rfl
  rw [inner.isStatement_construct] at isStatement
  cases isStatement

mutual

/-- Statements with one text are equal up to spans. -/
theorem bare_eq_of_display : ∀ statement other : Statement,
    statement.Legible → other.Legible → statement.display = other.display →
    statement.bare = other.bare
  | .expression inner, other, innerLegible, otherLegible, sameText => by
      have legible : (Statement.expression inner).Legible := innerLegible
      obtain ⟨sameForm, sameConstruct⟩ := alike_of_display legible otherLegible sameText
      cases other with
      | expression otherInner =>
          exact congrArg Statement.expression
            (inner.bare_eq_of_display otherInner innerLegible otherLegible sameText)
      | _ => exact absurd sameConstruct.symm (ne_construct_expression rfl inner)
  | .declaration constant name initializer span, other, legible, otherLegible, sameText => by
      obtain ⟨sameForm, sameConstruct⟩ := alike_of_display legible otherLegible sameText
      cases other with
      | expression inner => exact absurd sameConstruct (ne_construct_expression rfl inner)
      | declaration otherConstant otherName otherInitializer otherSpan =>
          obtain rfl : constant = otherConstant := Construct.declaration.inj sameConstruct
          obtain ⟨rfl, sameInitializer⟩ : name = otherName ∧
              initializer.display = otherInitializer.display := by
            cases constant <;> simpa [form] using sameForm
          exact congrArg (Statement.declaration constant name · Span.nowhere)
            (initializer.bare_eq_of_display otherInitializer legible.2 otherLegible.2
              sameInitializer)
      | _ => cases sameConstruct
  | .block body span, other, bodyLegible, otherLegible, sameText => by
      have legible : (Statement.block body span).Legible := bodyLegible
      obtain ⟨sameForm, sameConstruct⟩ := alike_of_display legible otherLegible sameText
      cases other with
      | expression inner => exact absurd sameConstruct (ne_construct_expression rfl inner)
      | block otherBody otherSpan =>
          have sameTexts : body.map display = otherBody.map display := by
            simpa [form, blockForm] using sameForm
          rw [bare, mapSpans, mapSpans, mapSpansOfEach_eq_map, mapSpansOfEach_eq_map]
          exact congrArg (Statement.block · Span.nowhere)
            (bareBody_eq_of_display body otherBody bodyLegible otherLegible sameTexts)
      | _ => cases sameConstruct
  | .whileLoop condition body span, other, legible, otherLegible, sameText => by
      obtain ⟨sameForm, sameConstruct⟩ := alike_of_display legible otherLegible sameText
      cases other with
      | expression inner => exact absurd sameConstruct (ne_construct_expression rfl inner)
      | whileLoop otherCondition otherBody otherSpan =>
          obtain ⟨sameCondition, sameBody⟩ : condition.display = otherCondition.display ∧
              body.display = otherBody.display := by
            simpa [form] using sameForm
          exact congrArg₂ (Statement.whileLoop · · Span.nowhere)
            (condition.bare_eq_of_display otherCondition legible.1 otherLegible.1
              sameCondition)
            (bare_eq_of_display body otherBody legible.2 otherLegible.2 sameBody)
      | _ => cases sameConstruct
  | .conditional [] otherwise span, other, legible, otherLegible, sameText =>
      absurd rfl legible.1
  | .conditional ((condition, body) :: rest) otherwise span, other, legible, otherLegible,
      sameText => by
      obtain ⟨sameForm, sameConstruct⟩ := alike_of_display legible otherLegible sameText
      cases other with
      | expression inner => exact absurd sameConstruct (ne_construct_expression rfl inner)
      | conditional branches otherOtherwise otherSpan =>
          cases branches with
          | nil => exact absurd rfl otherLegible.1
          | cons branch otherRest =>
              obtain ⟨otherCondition, otherBody⟩ := branch
              obtain ⟨_, ⟨⟨conditionLegible, bodyLegible⟩, restLegible⟩, otherwiseLegible⟩ :=
                legible
              obtain ⟨_, ⟨⟨otherConditionLegible, otherBodyLegible⟩, otherRestLegible⟩,
                otherOtherwiseLegible⟩ := otherLegible
              obtain ⟨sameCondition, sameBody, sameTexts⟩ :
                  condition.display = otherCondition.display ∧
                    body.display = otherBody.display ∧
                    furtherTexts rest otherwise = furtherTexts otherRest otherOtherwise := by
                simpa [form] using sameForm
              obtain ⟨sameBranches, sameOtherwise⟩ := furtherTexts_injective
                ⟨restLegible, otherwiseLegible⟩ ⟨otherRestLegible, otherOtherwiseLegible⟩
                sameTexts
              have bareCondition := condition.bare_eq_of_display otherCondition
                conditionLegible otherConditionLegible sameCondition
              have bareBody := bare_eq_of_display body otherBody bodyLegible
                otherBodyLegible sameBody
              have bareRest := bareBranches_eq_of_text rest otherRest restLegible
                otherRestLegible sameBranches
              have bareLast := bareOtherwise_eq_of_text otherwise otherOtherwise
                otherwiseLegible otherOtherwiseLegible sameOtherwise
              rw [bare_conditional, bare_conditional]
              exact congrArg₂ (Statement.conditional · · Span.nowhere)
                (congrArg₂ List.cons (congrArg₂ Prod.mk bareCondition bareBody) bareRest)
                bareLast
      | _ => cases sameConstruct
  | .breakLoop span, other, legible, otherLegible, sameText => by
      obtain ⟨sameForm, sameConstruct⟩ := alike_of_display legible otherLegible sameText
      cases other with
      | expression inner => exact absurd sameConstruct (ne_construct_expression rfl inner)
      | breakLoop => rfl
      | _ => cases sameConstruct
  | .continueLoop span, other, legible, otherLegible, sameText => by
      obtain ⟨sameForm, sameConstruct⟩ := alike_of_display legible otherLegible sameText
      cases other with
      | expression inner => exact absurd sameConstruct (ne_construct_expression rfl inner)
      | continueLoop => rfl
      | _ => cases sameConstruct
  | .returnValue value span, other, legible, otherLegible, sameText => by
      obtain ⟨sameForm, sameConstruct⟩ := alike_of_display legible otherLegible sameText
      cases other with
      | expression inner => exact absurd sameConstruct (ne_construct_expression rfl inner)
      | returnValue otherValue otherSpan =>
          cases value with
          | none =>
              cases otherValue with
              | none => rfl
              | some => simp [form] at sameForm
          | some result =>
              cases otherValue with
              | none => simp [form] at sameForm
              | some otherResult =>
                  have sameResult : result.display = otherResult.display := by
                    simpa [form] using sameForm
                  exact congrArg
                    (fun result => Statement.returnValue (some result) Span.nowhere)
                    (result.bare_eq_of_display otherResult legible otherLegible sameResult)
      | _ => cases sameConstruct
  | .function name parameters body span, other, legible, otherLegible, sameText => by
      obtain ⟨sameForm, sameConstruct⟩ := alike_of_display legible otherLegible sameText
      cases other with
      | expression inner => exact absurd sameConstruct (ne_construct_expression rfl inner)
      | function otherName otherParameters otherBody otherSpan =>
          obtain ⟨isName, areNames, bodyLegible⟩ := legible
          obtain ⟨otherIsName, otherAreNames, otherBodyLegible⟩ := otherLegible
          obtain ⟨rfl, sameParameters, sameBlock⟩ : name = otherName ∧
              bracketed parameters = bracketed otherParameters ∧
              (blockForm body).text = (blockForm otherBody).text := by
            simpa [form] using sameForm
          obtain rfl := bracketed_injective
            (fun parameter member => isItem_name (areNames parameter member))
            (fun parameter member => isItem_name (otherAreNames parameter member))
            sameParameters
          have sameForms := Form.text_injective
            (legible_blockForm (areItems_body body bodyLegible))
            (legible_blockForm (areItems_body otherBody otherBodyLegible)) sameBlock
          have sameTexts : body.map display = otherBody.map display := by
            simpa [blockForm] using sameForms
          rw [bare, mapSpans, mapSpans, mapSpansOfEach_eq_map, mapSpansOfEach_eq_map]
          exact congrArg (Statement.function name parameters · Span.nowhere)
            (bareBody_eq_of_display body otherBody bodyLegible otherBodyLegible sameTexts)
      | _ => cases sameConstruct

termination_by structural statement => statement

theorem bareBody_eq_of_display : ∀ body other : List Statement,
    BodyLegible body → BodyLegible other → body.map display = other.map display →
    body.map bare = other.map bare
  | [], [], _, _, _ => rfl
  | statement :: rest, other :: otherRest, ⟨legible, restLegible⟩,
      ⟨otherLegible, otherRestLegible⟩, sameTexts => by
      obtain ⟨sameText, sameRest⟩ := List.cons.inj sameTexts
      rw [List.map_cons, List.map_cons,
        bare_eq_of_display statement other legible otherLegible sameText,
        bareBody_eq_of_display rest otherRest restLegible otherRestLegible sameRest]
termination_by structural body => body

theorem bareBranches_eq_of_text : ∀ branches others : List (Expression × Statement),
    BranchesLegible branches → BranchesLegible others →
    branches.map branchText = others.map branchText →
    branches.map bareBranch = others.map bareBranch
  | [], [], _, _, _ => rfl
  | (condition, body) :: rest, (otherCondition, otherBody) :: otherRest,
      ⟨legible, restLegible⟩, ⟨otherLegible, otherRestLegible⟩, sameTexts => by
      obtain ⟨sameText, sameRest⟩ := List.cons.inj sameTexts
      obtain ⟨sameCondition, sameBody⟩ :=
        branchText_injective legible otherLegible sameText
      rw [List.map_cons, List.map_cons, bareBranch, bareBranch,
        condition.bare_eq_of_display otherCondition legible.1 otherLegible.1 sameCondition,
        bare_eq_of_display body otherBody legible.2 otherLegible.2 sameBody,
        bareBranches_eq_of_text rest otherRest restLegible otherRestLegible sameRest]
termination_by structural branches => branches

theorem bareOtherwise_eq_of_text : ∀ otherwise other : Option Statement,
    OtherwiseLegible otherwise → OtherwiseLegible other →
    otherwise.map otherwiseText = other.map otherwiseText →
    otherwise.map bare = other.map bare
  | none, none, _, _, _ => rfl
  | some body, some other, legible, otherLegible, sameText => by
      have sameBody :=
        otherwiseText_injective legible otherLegible (Option.some.inj sameText)
      rw [Option.map_some, Option.map_some,
        bare_eq_of_display body other legible otherLegible sameBody]
termination_by structural otherwise => otherwise

end

end Statement

end Scriptlet
