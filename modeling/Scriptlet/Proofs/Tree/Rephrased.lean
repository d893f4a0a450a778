import Mathlib.Data.List.Forall2
import Scriptlet.Tree.Statement

namespace Scriptlet

/-!
# Programs that say the same

Two trees rephrase each other if they differ only in ways of writing: in parentheses, in
whether further branches of a conditional stand in it or in a conditional as its last
resort, and in whether a function body ends with an expression or returns its value.
Everything else is the same, up to the spans of groupings and of statements whose spans
nothing shows.
-/

/-! ## Expressions -/

mutual

/-- Expressions that differ only in parentheses. -/
inductive Expression.Rephrases : Expression → Expression → Prop where
  | literal (value : Literal) (place : Span) :
      Rephrases (.literal value place) (.literal value place)
  | reference (name : String) (place : Span) :
      Rephrases (.reference name place) (.reference name place)
  | assign
      (name : String)
      (values : Rephrases value found)
      (place : Span) :
      Rephrases (.assign name value place) (.assign name found place)
  | getAttribute
      (objects : Rephrases object owner)
      (name : String)
      (place : Span) :
      Rephrases (.getAttribute object name place) (.getAttribute owner name place)
  | setAttribute
      (objects : Rephrases object owner)
      (name : String)
      (values : Rephrases value found)
      (place : Span) :
      Rephrases (.setAttribute object name value place)
        (.setAttribute owner name found place)
  | unary
      (operator : Operator)
      (operands : Rephrases operand other)
      (place : Span) :
      Rephrases (.unary operator operand place) (.unary operator other place)
  | binary
      (lefts : Rephrases left leftOther)
      (operator : Operator)
      (rights : Rephrases right rightOther)
      (place : Span) :
      Rephrases (.binary left operator right place)
        (.binary leftOther operator rightOther place)
  | logical
      (lefts : Rephrases left leftOther)
      (operator : Operator)
      (rights : Rephrases right rightOther)
      (place : Span) :
      Rephrases (.logical left operator right place)
        (.logical leftOther operator rightOther place)
  | call
      (callees : Rephrases callee function)
      (arguments : Expression.RephrasesEach given others)
      (place : Span) :
      Rephrases (.call callee given place) (.call function others place)
  | groupingLeft
      {inner other : Expression}
      (inners : Rephrases inner other)
      (place : Span) :
      Rephrases (.grouping inner place) other
  | groupingRight
      {expression inner : Expression}
      (inners : Rephrases expression inner)
      (place : Span) :
      Rephrases expression (.grouping inner place)

/-- Expressions that rephrase each other one by one. -/
inductive Expression.RephrasesEach : List Expression → List Expression → Prop where
  | nil :
      RephrasesEach [] []
  | cons
      (firsts : Expression.Rephrases first other)
      (rests : RephrasesEach rest others) :
      RephrasesEach (first :: rest) (other :: others)

end

namespace Expression

mutual

theorem Rephrases.refl : ∀ expression : Expression, expression.Rephrases expression
  | .literal value place => .literal value place
  | .reference name place => .reference name place
  | .assign name value place => .assign name (.refl value) place
  | .getAttribute object name place => .getAttribute (.refl object) name place
  | .setAttribute object name value place =>
      .setAttribute (.refl object) name (.refl value) place
  | .unary operator operand place => .unary operator (.refl operand) place
  | .binary left operator right place =>
      .binary (.refl left) operator (.refl right) place
  | .logical left operator right place =>
      .logical (.refl left) operator (.refl right) place
  | .grouping inner place => .groupingLeft (.groupingRight (.refl inner) place) place
  | .call callee arguments place => .call (.refl callee) (.refl arguments) place

theorem RephrasesEach.refl : ∀ expressions : List Expression,
    RephrasesEach expressions expressions
  | [] => .nil
  | expression :: rest => .cons (.refl expression) (.refl rest)

end

mutual

theorem Rephrases.symm : ∀ {expression other : Expression},
    expression.Rephrases other → other.Rephrases expression
  | _, _, .literal value place => .literal value place
  | _, _, .reference name place => .reference name place
  | _, _, .assign name values place => .assign name values.symm place
  | _, _, .getAttribute objects name place => .getAttribute objects.symm name place
  | _, _, .setAttribute objects name values place =>
      .setAttribute objects.symm name values.symm place
  | _, _, .unary operator operands place => .unary operator operands.symm place
  | _, _, .binary lefts operator rights place =>
      .binary lefts.symm operator rights.symm place
  | _, _, .logical lefts operator rights place =>
      .logical lefts.symm operator rights.symm place
  | _, _, .call callees arguments place => .call callees.symm arguments.symm place
  | _, _, .groupingLeft inners place => .groupingRight inners.symm place
  | _, _, .groupingRight inners place => .groupingLeft inners.symm place

theorem RephrasesEach.symm : ∀ {expressions others : List Expression},
    RephrasesEach expressions others → RephrasesEach others expressions
  | _, _, .nil => .nil
  | _, _, .cons firsts rests => .cons firsts.symm rests.symm

end

theorem RephrasesEach.forall₂ : ∀ {expressions others : List Expression},
    RephrasesEach expressions others → List.Forall₂ Rephrases expressions others
  | _, _, .nil => .nil
  | _, _, .cons firsts rests => .cons firsts rests.forall₂

end Expression

/-! ## Statements -/

mutual

/-- Statements that differ only in ways of writing. -/
inductive Statement.Rephrases : Statement → Statement → Prop where
  | expression {inner other : Expression} (inners : inner.Rephrases other) :
      Rephrases (.expression inner) (.expression other)
  | declaration
      (constant : Bool)
      (name : String)
      (initializers : Expression.Rephrases initializer other)
      (place : Span) :
      Rephrases (.declaration constant name initializer place)
        (.declaration constant name other place)
  | block (bodies : Statement.RephrasesEach body other) (place : Span) :
      Rephrases (.block body place) (.block other place)
  | whileLoop
      (conditions : Expression.Rephrases condition test)
      (bodies : Rephrases body other)
      (place otherPlace : Span) :
      Rephrases (.whileLoop condition body place) (.whileLoop test other otherPlace)
  /-- Conditionals with nothing to be run. -/
  | noBranch (place otherPlace : Span) :
      Rephrases (.conditional [] none place) (.conditional [] none otherPlace)
  /-- Conditionals that agree without their first branches. -/
  | branch
      (conditions : Expression.Rephrases condition test)
      (bodies : Rephrases body other)
      (rests : Rephrases (.conditional branches otherwise place)
        (.conditional others lastResort otherPlace)) :
      Rephrases (.conditional ((condition, body) :: branches) otherwise place)
        (.conditional ((test, other) :: others) lastResort otherPlace)
  /-- A conditional of which only the last resort is left stands for this. -/
  | lastResortLeft (bodies : Rephrases body other) (place : Span) :
      Rephrases (.conditional [] (some body) place) other
  | lastResortRight (bodies : Rephrases statement body) (place : Span) :
      Rephrases statement (.conditional [] (some body) place)
  | breakLoop (place otherPlace : Span) :
      Rephrases (.breakLoop place) (.breakLoop otherPlace)
  | continueLoop (place otherPlace : Span) :
      Rephrases (.continueLoop place) (.continueLoop otherPlace)
  | returnNothing (place otherPlace : Span) :
      Rephrases (.returnValue none place) (.returnValue none otherPlace)
  | returnValue
      (results : Expression.Rephrases result other)
      (place otherPlace : Span) :
      Rephrases (.returnValue (some result) place)
        (.returnValue (some other) otherPlace)
  | function
      (name : String)
      (parameters : List String)
      (bodies : Statement.RephrasesBody body other)
      (place : Span) :
      Rephrases (.function name parameters body place)
        (.function name parameters other place)

/-- Statements that rephrase each other one by one. -/
inductive Statement.RephrasesEach : List Statement → List Statement → Prop where
  | nil :
      RephrasesEach [] []
  | cons
      (firsts : Statement.Rephrases first other)
      (rests : RephrasesEach rest others) :
      RephrasesEach (first :: rest) (other :: others)

/-- Function bodies that rephrase each other: it makes no difference whether they end
with an expression or return its value. -/
inductive Statement.RephrasesBody : List Statement → List Statement → Prop where
  | nil :
      RephrasesBody [] []
  | cons
      (firsts : Statement.Rephrases first other)
      (rests : RephrasesBody rest others) :
      RephrasesBody (first :: rest) (other :: others)
  | returnsLeft
      {result inner : Expression}
      (results : result.Rephrases inner)
      (place : Span) :
      RephrasesBody [.returnValue (some result) place] [.expression inner]
  | returnsRight
      {inner result : Expression}
      (results : inner.Rephrases result)
      (place : Span) :
      RephrasesBody [.expression inner] [.returnValue (some result) place]

end

namespace Statement

mutual

theorem Rephrases.refl : ∀ statement : Statement, statement.Rephrases statement
  | .expression inner => .expression (.refl inner)
  | .declaration constant name initializer place =>
      .declaration constant name (.refl initializer) place
  | .block body place => .block (.refl body) place
  | .whileLoop condition body place =>
      .whileLoop (.refl condition) (.refl body) place place
  | .conditional branches otherwise place =>
      .refl_branches (.refl_otherwise otherwise place) branches
  | .breakLoop place => .breakLoop place place
  | .continueLoop place => .continueLoop place place
  | .returnValue none place => .returnNothing place place
  | .returnValue (some value) place => .returnValue (.refl value) place place
  | .function name parameters body place =>
      .function name parameters (.refl body) place

theorem RephrasesEach.refl : ∀ statements : List Statement,
    RephrasesEach statements statements
  | [] => .nil
  | statement :: rest => .cons (.refl statement) (.refl rest)

theorem RephrasesBody.refl : ∀ body : List Statement, RephrasesBody body body
  | [] => .nil
  | statement :: rest => .cons (.refl statement) (.refl rest)

theorem Rephrases.refl_branches
    {otherwise : Option Statement}
    {place : Span}
    (lastResorts : Rephrases (.conditional [] otherwise place)
      (.conditional [] otherwise place)) :
    ∀ branches : List (Expression × Statement),
      Rephrases (.conditional branches otherwise place)
        (.conditional branches otherwise place)
  | [] => lastResorts
  | (condition, body) :: rest =>
      .branch (.refl condition) (.refl body) (.refl_branches lastResorts rest)

theorem Rephrases.refl_otherwise : ∀ (otherwise : Option Statement) (place : Span),
    Rephrases (.conditional [] otherwise place) (.conditional [] otherwise place)
  | none, place => .noBranch place place
  | some body, place =>
      .lastResortLeft (.lastResortRight (.refl body) place) place

end

mutual

theorem Rephrases.symm : ∀ {statement other : Statement},
    statement.Rephrases other → other.Rephrases statement
  | _, _, .expression inners => .expression inners.symm
  | _, _, .declaration constant name initializers place =>
      .declaration constant name initializers.symm place
  | _, _, .block bodies place => .block bodies.symm place
  | _, _, .whileLoop conditions bodies place otherPlace =>
      .whileLoop conditions.symm bodies.symm otherPlace place
  | _, _, .noBranch place otherPlace => .noBranch otherPlace place
  | _, _, .branch conditions bodies rests =>
      .branch conditions.symm bodies.symm rests.symm
  | _, _, .lastResortLeft bodies place => .lastResortRight bodies.symm place
  | _, _, .lastResortRight bodies place => .lastResortLeft bodies.symm place
  | _, _, .breakLoop place otherPlace => .breakLoop otherPlace place
  | _, _, .continueLoop place otherPlace => .continueLoop otherPlace place
  | _, _, .returnNothing place otherPlace => .returnNothing otherPlace place
  | _, _, .returnValue results place otherPlace =>
      .returnValue results.symm otherPlace place
  | _, _, .function name parameters bodies place =>
      .function name parameters bodies.symm place

theorem RephrasesEach.symm : ∀ {statements others : List Statement},
    RephrasesEach statements others → RephrasesEach others statements
  | _, _, .nil => .nil
  | _, _, .cons firsts rests => .cons firsts.symm rests.symm

theorem RephrasesBody.symm : ∀ {body other : List Statement},
    RephrasesBody body other → RephrasesBody other body
  | _, _, .nil => .nil
  | _, _, .cons firsts rests => .cons firsts.symm rests.symm
  | _, _, .returnsLeft results place => .returnsRight results.symm place
  | _, _, .returnsRight results place => .returnsLeft results.symm place

end

theorem RephrasesEach.forall₂ : ∀ {statements others : List Statement},
    RephrasesEach statements others → List.Forall₂ Rephrases statements others
  | _, _, .nil => .nil
  | _, _, .cons firsts rests => .cons firsts rests.forall₂

end Statement

end Scriptlet
