import Mathlib.Algebra.Ring.Int.Defs
import Mathlib.Algebra.Ring.Nat
import Scriptlet.Proofs.Evaluation.Ensured
import Scriptlet.Proofs.Evaluation.Settling

namespace Scriptlet

/-!
# Expressions of integers

Sums, differences and products of integers have an exact value, however large it is.  What
such an expression evaluates to is this value modulo `2 ^ 64`, in the range of the integers
of the language: wrapping around at every step comes to the same as doing so once at the
end.
-/

/-- The operation on exact integers of an operator that stays within the integers. -/
def TokenKind.exactOperation? : TokenKind → Option (Int → Int → Int)
  | .plus => some (· + ·)
  | .dash => some (· - ·)
  | .star => some (· * ·)
  | _ => none

/-- The exact value of an expression that is built from integers, names that stand for
integers, parentheses, signs, and sums, differences and products. -/
inductive HasExactValue (machine : Machine) : Expression → Int → Prop where
  | literal :
      HasExactValue machine (.literal (.int number) span) number.toInt
  | reference
      (isFound : machine.store.get machine.current name span = .ok found)
      (isInt : found.payload = .int number) :
      HasExactValue machine (.reference name span) number.toInt
  | grouping
      (inside : HasExactValue machine content value) :
      HasExactValue machine (.grouping content span) value
  | negation
      (isDash : operator.kind = .dash)
      (negated : HasExactValue machine operand value) :
      HasExactValue machine (.unary operator operand span) (-value)
  | operation
      (isOperation : operator.kind.exactOperation? = some exact)
      (first : HasExactValue machine left value)
      (second : HasExactValue machine right other) :
      HasExactValue machine (.binary left operator right span) (exact value other)

/-! ## Operators -/

namespace Value

variable {kind : TokenKind} {value other : Int} {scope otherScope : ScopeId}

/-- A number is negated by multiplying it by minus one. -/
theorem unary_ofInt (isDash : kind = .dash) :
    unary kind ⟨.int (Int64.ofInt value), scope⟩ =
      .ok ⟨.int (Int64.ofInt (-value)), scope⟩ := by
  have isNegated : Int64.ofInt value * -1 = Int64.ofInt (-value) := by
    rw [Int64.mul_neg, Int64.mul_one, Int64.ofInt_neg]
  rw [← isNegated, isDash]
  rfl

/-- An operation on integers that have been wrapped around gives the exact result, wrapped
around. -/
theorem binary_ofInt
    {exact : Int → Int → Int}
    (isOperation : kind.exactOperation? = some exact) :
    binary kind ⟨.int (Int64.ofInt value), scope⟩ ⟨.int (Int64.ofInt other), otherScope⟩ =
      .ok ⟨.int (Int64.ofInt (exact value other)), scope⟩ := by
  cases kind with
  | plus =>
      cases isOperation
      rw [Int64.ofInt_add]
      rfl
  | dash =>
      cases isOperation
      rw [Int64.ofInt_sub]
      rfl
  | star =>
      cases isOperation
      rw [Int64.ofInt_mul]
      rfl
  | _ => cases isOperation

end Value

/-! ## Evaluation -/

namespace Eval

/-- Whether an expression evaluates to a value, once it may use enough steps, and leaves the
machine as it is. -/
def Computes (machine : Machine) (expression : Expression) (result : Value) : Prop :=
  Outcome.SettlesOn (fun steps => evaluate steps expression machine)
    (.done (some result) machine)

namespace Computes

variable {machine : Machine} {result operandValue leftValue rightValue : Value}
  {left right operand content : Expression} {operator : Operator} {span : Span}

theorem literal (literal : Literal) :
    Computes machine (.literal literal span) ⟨literal.payload, machine.current⟩ :=
  .of_succ (.const _)

theorem reference
    {name : String}
    (isFound : machine.store.get machine.current name span = .ok result) :
    Computes machine (.reference name span) result := by
  have looksUp : lookUp name span machine = .done result machine := by
    rw [lookUp, isFound]
  have ends : Outcome.SettlesOn
      (fun _ => (lookUp name span machine).andThen
        (fun value => (pure (some value) : Eval (Option Value))))
      (.done (some result) machine) := by
    rw [looksUp]
    exact .const _
  exact .of_succ ends

theorem grouping (inside : Computes machine content result) :
    Computes machine (.grouping content span) result :=
  .of_succ inside

/-- An operation that can be applied gives its result. -/
theorem settlesOn_located
    {applied : Except RuntimeFault Value}
    (isResult : applied = .ok result)
    (span : Span)
    (machine : Machine) :
    Outcome.SettlesOn
      (fun _ => ((Runner.located span applied : Eval Value) machine).andThen
        (fun value => (pure (some value) : Eval (Option Value))))
      (.done (some result) machine) := by
  rw [isResult]
  exact .const _

theorem unary
    (computes : Computes machine operand operandValue)
    (applied : operandValue.unary operator.kind = .ok result) :
    Computes machine (.unary operator operand span) result := by
  exact .of_succ
    (Outcome.SettlesOn.andThen computes (settlesOn_located applied span machine))

theorem binary
    (first : Computes machine left leftValue)
    (second : Computes machine right rightValue)
    (applied : leftValue.binary operator.kind rightValue = .ok result) :
    Computes machine (.binary left operator right span) result := by
  apply Outcome.SettlesOn.of_succ
  apply Outcome.SettlesOn.andThen first
  show Outcome.SettlesOn (fun steps => (evaluate steps right machine).andThen _) _
  exact Outcome.SettlesOn.andThen second (settlesOn_located applied span machine)

end Computes

/-- The exact value is wrapped around into the range of the integers. -/
theorem computes_ofInt
    {machine : Machine}
    {expression : Expression}
    {value : Int}
    (exact : HasExactValue machine expression value) :
    ∃ scope, Computes machine expression ⟨.int (Int64.ofInt value), scope⟩ := by
  induction exact with
  | @literal number span =>
      rw [Int64.ofInt_toInt]
      exact ⟨machine.current, .literal (.int number)⟩
  | @reference name span found number isFound isInt =>
      rw [Int64.ofInt_toInt, ← isInt]
      exact ⟨found.scope, .reference isFound⟩
  | grouping _ inside =>
      obtain ⟨scope, computes⟩ := inside
      exact ⟨scope, computes.grouping⟩
  | negation isDash _ negated =>
      obtain ⟨scope, computes⟩ := negated
      exact ⟨scope, computes.unary (Value.unary_ofInt isDash)⟩
  | operation isOperation _ _ first second =>
      obtain ⟨scope, computes⟩ := first
      obtain ⟨_, computesOther⟩ := second
      exact ⟨scope, computes.binary computesOther (Value.binary_ofInt isOperation)⟩

/-- An expression of integers is evaluated without a fault and leaves the machine, and with
it the store, as it is.  It gives an integer, which is the exact value of the expression
modulo `2 ^ 64`, from `-2 ^ 63` up to `2 ^ 63 - 1`. -/
theorem evaluates_modulo
    {machine : Machine}
    {expression : Expression}
    {value : Int}
    (exact : HasExactValue machine expression value) :
    ∃ result number,
      Outcome.SettlesOn (fun steps => evaluate steps expression machine)
        (.done (some result) machine) ∧
      result.payload = .int number ∧
      number.toInt = value.bmod (2 ^ 64) := by
  obtain ⟨scope, computes⟩ := computes_ofInt exact
  exact ⟨_, Int64.ofInt value, computes, rfl, Int64.toInt_ofInt⟩

/-- The least integer, negated and lessened by one: the negation is not exact, and neither
is the difference, but the result is the greatest integer. -/
theorem evaluates_modulo_least :
    ∃ machine expression result number,
      expression.display = "(- (group (- least)) 1)" ∧
      HasExactValue machine expression (2 ^ 63 - 1) ∧
      Outcome.SettlesOn (fun steps => evaluate steps expression machine)
        (.done (some result) machine) ∧
      result.payload = .int number ∧
      number.toInt = 2 ^ 63 - 1 := by
  have isFound : (Store.mk #[⟨.file "main", none,
      [⟨"least", ⟨.int Int64.minValue, 0⟩, false, default⟩]⟩]).get 0 "least" default =
        .ok ⟨.int Int64.minValue, 0⟩ := by
    cbv
  have negated : HasExactValue ⟨_, 0⟩
      (.grouping (.unary ⟨.dash, "-"⟩ (.reference "least" default) default) default)
      (-Int64.minValue.toInt) :=
    .grouping (.negation rfl (.reference isFound rfl))
  have exact : HasExactValue ⟨_, 0⟩
      (.binary
        (.grouping (.unary ⟨.dash, "-"⟩ (.reference "least" default) default) default)
        ⟨.dash, "-"⟩ (.literal (.int 1) default) default)
      (-Int64.minValue.toInt - Int64.toInt 1) :=
    .operation rfl negated .literal
  obtain ⟨result, number, settles, isInt, isModulo⟩ := evaluates_modulo exact
  exact ⟨_, _, result, number, by cbv, exact, settles, isInt, isModulo⟩

end Eval

end Scriptlet
