import Scriptlet.Proofs.Tree.Bare
import Scriptlet.Value.Arithmetic

namespace Scriptlet

/-!
# Values that operators do not tell apart

A function value holds the statements it was declared with.  No operator looks at
them, nor at its parameters: functions of one name that were declared in one scope
have the same type, the same text and the same truth, and operators give the same
numbers, truth values and faults for them.  Values that agree up to spans are a case
of this.
-/

/-- A declaration with all its spans changed. -/
def FunctionDeclaration.mapSpans
    (change : Span → Span)
    (declaration : FunctionDeclaration) :
    FunctionDeclaration where
  name := declaration.name
  parameters := declaration.parameters
  body := declaration.body.map (Statement.mapSpans change)
  span := change declaration.span

theorem FunctionDeclaration.mapSpans_id (declaration : FunctionDeclaration) :
    declaration.mapSpans id = declaration := by
  rw [mapSpans, Statement.map_mapSpans_id]
  rfl

namespace Payload

/-- A payload with all its spans changed. -/
def mapSpans (change : Span → Span) : Payload → Payload
  | .function declaration closure =>
      .function (declaration.mapSpans change) closure
  | payload => payload

@[simp] theorem mapSpans_id (payload : Payload) :
    payload.mapSpans id = payload := by
  cases payload with
  | function declaration closure =>
      exact congrArg (Payload.function · closure) declaration.mapSpans_id
  | _ => rfl

/-- Payloads that no operator tells apart: the same payload, or functions of one name
that were declared in one scope. -/
inductive Resembles : Payload → Payload → Prop where
  | same (payload : Payload) :
      Resembles payload payload
  | function
      {declaration other : FunctionDeclaration}
      (name_eq : other.name = declaration.name)
      (closure : ScopeId) :
      Resembles (.function declaration closure) (.function other closure)

namespace Resembles

variable {payload other left left' right right' : Payload}

theorem type_eq (alike : payload.Resembles other) :
    other.type = payload.type := by
  cases alike <;> rfl

theorem display_eq (alike : payload.Resembles other) :
    other.display = payload.display := by
  cases alike with
  | same => rfl
  | function name_eq closure => exact congrArg ("function " ++ ·) name_eq

theorem isTrue_eq (alike : payload.Resembles other) :
    other.isTrue = payload.isTrue := by
  cases alike <;> rfl

theorem numbers?_eq
    (leftAlike : left.Resembles left')
    (rightAlike : right.Resembles right') :
    numbers? left' right' = numbers? left right := by
  cases leftAlike with
  | same =>
      cases rightAlike with
      | same => rfl
      | function => cases left <;> rfl
  | function => rfl

theorem same_eq
    (leftAlike : left.Resembles left')
    (rightAlike : right.Resembles right') :
    Payload.same left' right' = Payload.same left right := by
  cases leftAlike with
  | same =>
      cases rightAlike with
      | same => rfl
      | function name_eq closure =>
          cases left with
          | function declaration scope => simp only [Payload.same, name_eq]
          | _ => rfl
  | function left_eq closure =>
      cases rightAlike with
      | same =>
          cases right with
          | function declaration scope => simp only [Payload.same, left_eq]
          | _ => rfl
      | function right_eq scope => simp only [Payload.same, left_eq, right_eq]

theorem equal_eq
    (leftAlike : left.Resembles left')
    (rightAlike : right.Resembles right') :
    equal left' right' = equal left right := by
  rw [equal, leftAlike.numbers?_eq rightAlike, leftAlike.same_eq rightAlike, equal]

end Resembles

theorem resembles_mapSpans (change : Span → Span) (payload : Payload) :
    payload.Resembles (payload.mapSpans change) := by
  cases payload with
  | function declaration closure =>
      have sameName : (declaration.mapSpans change).name = declaration.name := rfl
      exact .function sameName closure
  | _ => exact .same _

/-- Whether a payload is no function. -/
def isPlain : Payload → Bool
  | .function _ _ => false
  | _ => true

theorem mapSpans_of_isPlain
    (change : Span → Span)
    {payload : Payload}
    (isPlain : payload.isPlain = true) :
    payload.mapSpans change = payload := by
  cases payload with
  | function declaration closure => cases isPlain
  | _ => rfl

end Payload

/-- Values that no operator tells apart. -/
def Value.Resembles (value other : Value) : Prop :=
  value.payload.Resembles other.payload

namespace Value.Resembles

variable {value other : Value}

theorem type_eq (alike : value.Resembles other) :
    other.type = value.type :=
  Payload.Resembles.type_eq alike

theorem operand_eq (alike : value.Resembles other) :
    other.operand = value.operand := by
  rw [Value.operand, Value.operand, alike.type_eq, Value.display, Value.display,
    Payload.Resembles.display_eq alike]

theorem isTrue_eq (alike : value.Resembles other) :
    other.isTrue = value.isTrue :=
  Payload.Resembles.isTrue_eq alike

end Value.Resembles

/-- Whether the payload of a value is that of another with its spans changed. -/
def Value.MappedTo (change : Span → Span) (value mapped : Value) : Prop :=
  mapped.payload = value.payload.mapSpans change

theorem Value.MappedTo.resembles
    {change : Span → Span}
    {value mapped : Value}
    (isMapped : value.MappedTo change mapped) :
    value.Resembles mapped := by
  rw [Value.Resembles, isMapped]
  exact value.payload.resembles_mapSpans change

/-! ## Results of operators -/

/-- What the results of an operator on two values have in common: the same fault, or
the same plain payload in the scopes of the two values. -/
inductive Value.SameResult (value mapped : Value) :
    Except RuntimeFault Value → Except RuntimeFault Value → Prop where
  | fault (fault : RuntimeFault) : SameResult value mapped (.error fault)
      (.error fault)
  | plain (payload : Payload) (isPlain : payload.isPlain = true) :
      SameResult value mapped (.ok (value.withPayload payload))
        (.ok (mapped.withPayload payload))

namespace Value

variable {left left' right right' : Value}

theorem Resembles.numbers
    (leftAlike : left.Resembles left')
    (rightAlike : right.Resembles right')
    (operation : Operation) :
    Value.numbers operation left' right' =
      Value.numbers operation left right := by
  rw [Value.numbers, Payload.Resembles.numbers?_eq leftAlike rightAlike,
    leftAlike.operand_eq, rightAlike.operand_eq, Value.numbers]

theorem Resembles.arithmetic
    (leftAlike : left.Resembles left')
    (rightAlike : right.Resembles right')
    (operation : Operation)
    (onInts : Int64 → Int64 → Int64)
    (onFloats : Float → Float → Float) :
    left.SameResult left'
      (Value.arithmetic operation onInts onFloats left right)
      (Value.arithmetic operation onInts onFloats left' right') := by
  rw [Value.arithmetic, Value.arithmetic, leftAlike.numbers rightAlike]
  cases Value.numbers operation left right with
  | error fault =>
      exact .fault fault
  | ok pair =>
      cases pair with
      | ints leftNumber rightNumber => exact .plain _ rfl
      | floats leftNumber rightNumber => exact .plain _ rfl

theorem Resembles.divide
    (leftAlike : left.Resembles left')
    (rightAlike : right.Resembles right') :
    left.SameResult left' (Value.divide left right)
      (Value.divide left' right') := by
  rw [Value.divide, Value.divide, leftAlike.numbers rightAlike,
    leftAlike.operand_eq, rightAlike.operand_eq]
  cases Value.numbers .divide left right with
  | error fault =>
      exact .fault fault
  | ok pair =>
      simp only [bind, Except.bind]
      split
      · exact .fault _
      · exact .plain _ rfl

theorem Resembles.comparison
    (leftAlike : left.Resembles left')
    (rightAlike : right.Resembles right')
    (wanted : Option Ordering → Bool) :
    left.SameResult left' (Value.comparison wanted left right)
      (Value.comparison wanted left' right') := by
  rw [Value.comparison, Value.comparison, leftAlike.numbers rightAlike]
  cases Value.numbers .compare left right with
  | error fault => exact .fault fault
  | ok pair => exact .plain _ rfl

/-- An operator between two values does not tell them from values that resemble them. -/
theorem Resembles.binary
    (leftAlike : left.Resembles left')
    (rightAlike : right.Resembles right')
    (kind : TokenKind) :
    left.SameResult left' (Value.binary kind left right)
      (Value.binary kind left' right') := by
  unfold Value.binary
  split
  case h_1 | h_2 | h_3 =>
    exact leftAlike.arithmetic rightAlike _ _ _
  case h_4 =>
    exact leftAlike.divide rightAlike
  case h_5 | h_6 | h_7 | h_8 =>
    exact leftAlike.comparison rightAlike _
  case h_9 =>
    rw [Value.equals, Value.equals,
      Payload.Resembles.equal_eq leftAlike rightAlike]
    exact .plain _ rfl
  case h_10 =>
    rw [Value.notEquals, Value.notEquals,
      Payload.Resembles.equal_eq leftAlike rightAlike]
    exact .plain _ rfl
  case h_11 =>
    exact .fault _

/-- An operator before a value does not tell it from one that resembles it. -/
theorem Resembles.unary
    {value mapped : Value}
    (alike : value.Resembles mapped)
    (kind : TokenKind) :
    value.SameResult mapped (Value.unary kind value)
      (Value.unary kind mapped) := by
  unfold Value.unary
  split
  case h_1 =>
    have minusOne : (value.withPayload (.int (-1))).Resembles
        (mapped.withPayload (.int (-1))) :=
      Payload.Resembles.same _
    exact alike.arithmetic minusOne _ _ _
  case h_2 =>
    rw [Value.negation, Value.negation, alike.isTrue_eq]
    exact .plain _ rfl
  case h_3 =>
    exact .fault _

theorem Resembles.getAttribute
    {value mapped : Value}
    (alike : value.Resembles mapped)
    (name : String) :
    value.SameResult mapped (value.getAttribute name)
      (mapped.getAttribute name) := by
  rw [Value.getAttribute, Value.getAttribute, alike.type_eq]
  exact .fault _

theorem Resembles.setAttribute
    {object object' value mapped : Value}
    (objectAlike : object.Resembles object')
    (alike : value.Resembles mapped)
    (name : String) :
    object.SameResult object' (object.setAttribute name value)
      (object'.setAttribute name mapped) := by
  rw [Value.setAttribute, Value.setAttribute, objectAlike.type_eq,
    alike.operand_eq]
  exact .fault _

end Value

end Scriptlet
