import Scriptlet.Tree.Expression

namespace Scriptlet

/-!
# Binding levels of operators

Operators bind the tighter the higher their level is: disjunction, conjunction,
equality, comparison, sums, products.  Operators of one level associate to the
left.  Above them come signs and negation, then calls and attributes, and at the
top what stands for itself.
-/

/-- The level of the operators that bind tighter than all operators between two
operands. -/
def unaryLevel : Nat := 7

/-- The level of calls and attributes. -/
def callLevel : Nat := 8

/-- The level of what stands for itself. -/
def primaryLevel : Nat := 9

/-- The level of an operator between two operands. -/
def TokenKind.level? : TokenKind → Option Nat
  | .orKeyword => some 1
  | .andKeyword => some 2
  | .equalEqual | .bangEqual => some 3
  | .greater | .greaterEqual | .less | .lessEqual => some 4
  | .plus | .dash => some 5
  | .star | .slash => some 6
  | _ => none

/-- Whether an operator stands before its single operand. -/
def TokenKind.isUnary : TokenKind → Bool
  | .notKeyword | .dash => true
  | _ => false

/-- The node that an operator makes of its two operands. -/
def Expression.combine
    (left : Expression)
    (operator : Token)
    (right : Expression) :
    Expression :=
  match operator.kind with
  | .orKeyword | .andKeyword => Expression.ofLogical left operator right
  | _ => Expression.ofBinary left operator right

end Scriptlet
