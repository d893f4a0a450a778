import Scriptlet.Proofs.Decimal.Conversion

namespace Scriptlet

open Binary64

/-!
# The order of numbers

Two integers are compared as they are.  An integer and a floating-point number are compared
after the integer has been converted, and the conversion rounds.  So the comparisons follow
one order of all numbers, with one exception: an integer of 2 ^ 53 or more, or as much below
zero, may be equal to the same floating-point number as another integer.
-/

/-- The integers of 64 bits are in the order of the integers. -/
theorem compare_eq_compare_toInt (left right : Int64) :
    compare left right = compare left.toInt right.toInt := by
  show compareOfLessAndEq left right = _
  unfold compareOfLessAndEq
  rcases lt_trichotomy left.toInt right.toInt with isLess | isEqual | isGreater
  · rw [if_pos (Int64.lt_iff_toInt_lt.mpr isLess), compare_lt_iff_lt.mpr isLess]
  · obtain rfl := Int64.toInt_inj.mp isEqual
    rw [if_neg (fun isLess => lt_irrefl _ (Int64.lt_iff_toInt_lt.mp isLess)), if_pos rfl,
      compare_eq_iff_eq.mpr rfl]
  · have notLess : ¬ left < right := fun isLess =>
      isGreater.not_gt (Int64.lt_iff_toInt_lt.mp isLess)
    have notEqual : left ≠ right := fun isEqual =>
      isGreater.ne (congrArg Int64.toInt isEqual.symm)
    rw [if_neg notLess, if_neg notEqual, compare_gt_iff_gt.mpr isGreater]

theorem order?_floats
    {left right : Float}
    (isLeft : left.isNaN = false)
    (isRight : right.isNaN = false) :
    (NumberPair.floats left right).order? =
      some (compare (floatRank left) (floatRank right)) := by
  have less := lt_iff_floatRank isLeft isRight
  have greater := lt_iff_floatRank isRight isLeft
  have equal := beq_iff_floatRank isLeft isRight
  rw [NumberPair.order?]
  rcases lt_trichotomy (floatRank left) (floatRank right) with isLess | isEqual | isGreater
  · rw [if_pos (less.mpr isLess), compare_lt_iff_lt.mpr isLess]
  · rw [if_neg (fun isLess => isEqual.not_lt (less.mp isLess)), if_pos (equal.mpr isEqual),
      compare_eq_iff_eq.mpr isEqual]
  · rw [if_neg (fun isLess => isGreater.not_gt (less.mp isLess)),
      if_neg (fun isEqual => isGreater.ne' (equal.mp isEqual)),
      if_pos (greater.mpr isGreater), compare_gt_iff_gt.mpr isGreater]

namespace Payload

/-- Whether a payload is a number that has a place in the order: all have but NaN. -/
def IsOrdered : Payload → Prop
  | .int _ => True
  | .float number => number.isNaN = false
  | _ => False

instance : DecidablePred IsOrdered
  | .int _ => inferInstanceAs (Decidable True)
  | .float number => inferInstanceAs (Decidable (number.isNaN = false))
  | .bool _ => inferInstanceAs (Decidable False)
  | .function _ _ => inferInstanceAs (Decidable False)

/-- The place of a number among the floating-point numbers. -/
def rank : Payload → Int
  | .int number => intRank number.toInt
  | .float number => floatRank number
  | _ => 0

/-- How two numbers compare. -/
def order : Payload → Payload → Ordering
  | .int left, .int right => compare left.toInt right.toInt
  | left, right => compare left.rank right.rank

variable {left middle right : Payload}

theorem exists_order_floats
    {leftNumber rightNumber : Float}
    (isLeft : leftNumber.isNaN = false)
    (isRight : rightNumber.isNaN = false)
    (leftRank : floatRank leftNumber = left.rank)
    (rightRank : floatRank rightNumber = right.rank)
    (numbers : left.numbers? right = some (.floats leftNumber rightNumber))
    (isOrder : left.order right = compare left.rank right.rank) :
    ∃ pair, left.numbers? right = some pair ∧
      pair.order? = some (left.order right) ∧
      left.equal right = (left.order right == .eq) := by
  refine ⟨_, numbers, ?_, ?_⟩
  · rw [order?_floats isLeft isRight, leftRank, rightRank, isOrder]
  · rw [equal, numbers]
    show (leftNumber == rightNumber) = _
    rw [isOrder, ← leftRank, ← rightRank, Bool.eq_iff_iff,
      beq_iff_floatRank isLeft isRight, beq_iff_eq, compare_eq_iff_eq]

/-- Two numbers are compared by their order. -/
theorem exists_order
    (isLeft : left.IsOrdered)
    (isRight : right.IsOrdered) :
    ∃ pair, left.numbers? right = some pair ∧
      pair.order? = some (left.order right) ∧
      left.equal right = (left.order right == .eq) := by
  cases left with
  | int leftNumber =>
      have leftFloat := floatOfInt_rank leftNumber
      cases right with
      | int rightNumber =>
          refine ⟨_, rfl, congrArg some (compare_eq_compare_toInt _ _), ?_⟩
          show (leftNumber == rightNumber) = _
          rw [Bool.eq_iff_iff, beq_iff_eq, beq_iff_eq, order, compare_eq_iff_eq,
            Int64.toInt_inj]
      | float rightNumber =>
          exact exists_order_floats leftFloat.1 isRight leftFloat.2 rfl rfl rfl
      | bool truth => exact isRight.elim
      | function declaration closure => exact isRight.elim
  | float leftNumber =>
      cases right with
      | int rightNumber =>
          have rightFloat := floatOfInt_rank rightNumber
          exact exists_order_floats isLeft rightFloat.1 rfl rightFloat.2 rfl rfl
      | float rightNumber =>
          exact exists_order_floats isLeft isRight rfl rfl rfl rfl
      | bool truth => exact isRight.elim
      | function declaration closure => exact isRight.elim
  | bool truth => exact isLeft.elim
  | function declaration closure => exact isLeft.elim

/-- Two payloads are two integers, or are ordered by their places. -/
theorem ints_or_order_eq (left right : Payload) :
    (∃ leftNumber rightNumber, left = .int leftNumber ∧ right = .int rightNumber) ∨
      left.order right = compare left.rank right.rank := by
  cases left with
  | int leftNumber =>
      cases right with
      | int rightNumber => exact .inl ⟨_, _, rfl, rfl⟩
      | _ => exact .inr rfl
  | _ => exact .inr rfl

theorem order_self (payload : Payload) : payload.order payload = .eq := by
  rcases ints_or_order_eq payload payload with ⟨number, _, rfl, -⟩ | byRank
  · exact compare_eq_iff_eq.mpr rfl
  · rw [byRank, compare_eq_iff_eq]

theorem order_swap (left right : Payload) :
    right.order left = (left.order right).swap := by
  cases left <;> cases right <;> exact Std.OrientedOrd.eq_swap

/-- The order never goes against the places. -/
theorem rank_le_of_order
    (atMost : left.order right ≠ .gt) :
    left.rank ≤ right.rank := by
  rcases ints_or_order_eq left right with ⟨leftNumber, rightNumber, rfl, rfl⟩ | byRank
  · exact intRank_mono (compare_le_iff_le.mp atMost)
  · rw [byRank] at atMost
    exact compare_le_iff_le.mp atMost

/-- Whether two different integers, both far from zero, equal one floating-point number. -/
inductive Conflated : Payload → Payload → Payload → Prop where
  | intro
      {first last : Int64}
      {middle : Float}
      (differ : first ≠ last)
      (firstEqual : floatOfInt first == middle)
      (lastEqual : floatOfInt last == middle)
      (firstGreat : 2 ^ 53 ≤ first.toInt.natAbs)
      (lastGreat : 2 ^ 53 ≤ last.toInt.natAbs) :
      Conflated (.int first) (.float middle) (.int last)

theorem Conflated.symm (conflated : Conflated left middle right) :
    Conflated right middle left := by
  obtain ⟨differ, firstEqual, lastEqual, firstGreat, lastGreat⟩ := conflated
  exact ⟨differ.symm, lastEqual, firstEqual, lastGreat, firstGreat⟩

/-- A greater integer below a smaller one, with a floating-point number between them: all
three have one place. -/
theorem conflated_of_rank_le
    {first last : Int64}
    {middle : Float}
    (isMiddle : middle.isNaN = false)
    (isGreater : last.toInt < first.toInt)
    (firstAtMost : intRank first.toInt ≤ floatRank middle)
    (middleAtMost : floatRank middle ≤ intRank last.toInt) :
    Conflated (.int first) (.float middle) (.int last) := by
  have isMono := intRank_mono isGreater.le
  have notSmall : ¬ (last.toInt.natAbs < 2 ^ 53 ∨ first.toInt.natAbs < 2 ^ 53) := by
    intro isSmall
    have isStrict := intRank_strictMono isGreater isSmall
    omega
  obtain ⟨firstNumber, firstRank⟩ := floatOfInt_rank first
  obtain ⟨lastNumber, lastRank⟩ := floatOfInt_rank last
  refine ⟨?_, ?_, ?_, by omega, by omega⟩
  · rintro rfl
    exact lt_irrefl _ isGreater
  · rw [beq_iff_floatRank firstNumber isMiddle]
    omega
  · rw [beq_iff_floatRank lastNumber isMiddle]
    omega

/-- The order is transitive, except for integers that are conflated. -/
theorem order_trans
    (isMiddle : middle.IsOrdered)
    (firstAtMost : left.order middle ≠ .gt)
    (middleAtMost : middle.order right ≠ .gt) :
    left.order right ≠ .gt ∨ Conflated left middle right := by
  -- The places are transitive.  Only two integers are ordered by more than their places.
  have firstRanks := rank_le_of_order firstAtMost
  have lastRanks := rank_le_of_order middleAtMost
  rcases ints_or_order_eq left right with ⟨first, last, rfl, rfl⟩ | byRank
  · rcases lt_or_ge last.toInt first.toInt with isGreater | isAtMost
    · cases middle with
      | int number =>
          have firstLe : first.toInt ≤ number.toInt := compare_le_iff_le.mp firstAtMost
          have lastLe : number.toInt ≤ last.toInt := compare_le_iff_le.mp middleAtMost
          omega
      | float number =>
          exact .inr (conflated_of_rank_le isMiddle isGreater firstRanks lastRanks)
      | bool truth => exact isMiddle.elim
      | function declaration closure => exact isMiddle.elim
    · exact .inl (compare_le_iff_le.mpr isAtMost)
  · rw [byRank]
    exact .inl (compare_le_iff_le.mpr (firstRanks.trans lastRanks))

end Payload

/-- The truth value that an operation gives, if it gives one. -/
def truth? : Except RuntimeFault Value → Option Bool
  | .ok ⟨.bool truth, _⟩ => some truth
  | _ => none

namespace Value

/-- Whether the operator finds two values equal. -/
def Equal (left right : Value) : Prop :=
  truth? (.ok (left.equals right)) = some true

instance (left right : Value) : Decidable (left.Equal right) :=
  inferInstanceAs (Decidable (_ = _))

/-- Whether the operator finds a value less than or equal to another. -/
def AtMost (left right : Value) : Prop :=
  truth? (left.lessEqual right) = some true

instance (left right : Value) : Decidable (left.AtMost right) :=
  inferInstanceAs (Decidable (_ = _))

/-- What the comparisons of three numbers keep to. -/
structure ConsistentlyOrdered (first second third : Value) : Prop where
  equal_refl : first.Equal first
  equal_symm : first.Equal second → second.Equal first
  equal_trans : first.Equal second → second.Equal third →
    first.Equal third ∨ Payload.Conflated first.payload second.payload third.payload
  atMost_total : first.AtMost second ∨ second.AtMost first
  atMost_trans : first.AtMost second → second.AtMost third →
    first.AtMost third ∨ Payload.Conflated first.payload second.payload third.payload
  equal_iff_atMost : first.Equal second ↔ first.AtMost second ∧ second.AtMost first
  less_not_greaterEqual : ∃ truth, truth? (first.less second) = some truth ∧
    truth? (first.greaterEqual second) = some !truth
  equals_not_notEquals : ∃ truth, truth? (.ok (first.equals second)) = some truth ∧
    truth? (.ok (first.notEquals second)) = some !truth

section Numbers

variable {left right : Value}
  (isLeft : left.payload.IsOrdered)
  (isRight : right.payload.IsOrdered)

include isLeft isRight

theorem truth?_comparison (wanted : Option Ordering → Bool) :
    truth? (comparison wanted left right) =
      some (wanted (some (left.payload.order right.payload))) := by
  obtain ⟨pair, isPair, isOrder, -⟩ := Payload.exists_order isLeft isRight
  rw [comparison, numbers, isPair, ← isOrder]
  rfl

theorem truth?_equals :
    truth? (.ok (left.equals right)) =
      some (left.payload.order right.payload == .eq) := by
  obtain ⟨pair, -, -, isEqual⟩ := Payload.exists_order isLeft isRight
  rw [← isEqual]
  rfl

theorem equal_iff : left.Equal right ↔ left.payload.order right.payload = .eq := by
  rw [Equal, truth?_equals isLeft isRight, Option.some.injEq, beq_iff_eq]

theorem atMost_iff : left.AtMost right ↔ left.payload.order right.payload ≠ .gt := by
  rw [AtMost, lessEqual, truth?_comparison isLeft isRight, Option.some.injEq]
  cases left.payload.order right.payload <;> decide

theorem atMost_swap_iff : right.AtMost left ↔ left.payload.order right.payload ≠ .lt := by
  rw [atMost_iff isRight isLeft, Payload.order_swap]
  cases left.payload.order right.payload <;> decide

theorem equal_iff_atMost : left.Equal right ↔ left.AtMost right ∧ right.AtMost left := by
  rw [equal_iff isLeft isRight, atMost_iff isLeft isRight, atMost_swap_iff isLeft isRight]
  cases left.payload.order right.payload <;> decide

theorem equal_symm (isEqual : left.Equal right) : right.Equal left := by
  obtain ⟨atMost, atLeast⟩ := (equal_iff_atMost isLeft isRight).mp isEqual
  exact (equal_iff_atMost isRight isLeft).mpr ⟨atLeast, atMost⟩

theorem atMost_total : left.AtMost right ∨ right.AtMost left := by
  rw [atMost_iff isLeft isRight, atMost_swap_iff isLeft isRight]
  cases left.payload.order right.payload <;> decide

theorem less_not_greaterEqual :
    ∃ truth, truth? (left.less right) = some truth ∧
      truth? (left.greaterEqual right) = some !truth := by
  refine ⟨_, truth?_comparison isLeft isRight _, ?_⟩
  rw [greaterEqual, truth?_comparison isLeft isRight]
  cases left.payload.order right.payload <;> rfl

end Numbers

section Threes

variable {first second third : Value}
  (isFirst : first.payload.IsOrdered)
  (isSecond : second.payload.IsOrdered)
  (isThird : third.payload.IsOrdered)

include isFirst isSecond isThird

theorem atMost_trans
    (firstAtMost : first.AtMost second)
    (secondAtMost : second.AtMost third) :
    first.AtMost third ∨
      Payload.Conflated first.payload second.payload third.payload := by
  rw [atMost_iff isFirst isSecond] at firstAtMost
  rw [atMost_iff isSecond isThird] at secondAtMost
  rw [atMost_iff isFirst isThird]
  exact Payload.order_trans isSecond firstAtMost secondAtMost

theorem equal_trans
    (firstEqual : first.Equal second)
    (secondEqual : second.Equal third) :
    first.Equal third ∨
      Payload.Conflated first.payload second.payload third.payload := by
  obtain ⟨firstAtMost, firstAtLeast⟩ := (equal_iff_atMost isFirst isSecond).mp firstEqual
  obtain ⟨secondAtMost, secondAtLeast⟩ :=
    (equal_iff_atMost isSecond isThird).mp secondEqual
  rcases atMost_trans isFirst isSecond isThird firstAtMost secondAtMost with
    atMost | conflated
  · rcases atMost_trans isThird isSecond isFirst secondAtLeast firstAtLeast with
      atLeast | conflated
    · exact .inl ((equal_iff_atMost isFirst isThird).mpr ⟨atMost, atLeast⟩)
    · exact .inr conflated.symm
  · exact .inr conflated

/-- The comparisons of numbers, other than NaN, keep to one order, unless two great integers
are conflated by a floating-point number between them. -/
theorem consistentlyOrdered : ConsistentlyOrdered first second third where
  equal_refl := (equal_iff isFirst isFirst).mpr (Payload.order_self _)
  equal_symm := equal_symm isFirst isSecond
  equal_trans := equal_trans isFirst isSecond isThird
  atMost_total := atMost_total isFirst isSecond
  atMost_trans := atMost_trans isFirst isSecond isThird
  equal_iff_atMost := equal_iff_atMost isFirst isSecond
  less_not_greaterEqual := less_not_greaterEqual isFirst isSecond
  equals_not_notEquals := ⟨first.payload.equal second.payload, rfl, rfl⟩

end Threes

/-- Three numbers, the first and the last of which are conflated. -/
theorem consistentlyOrdered_conflated :
    (Payload.int 9007199254740993).IsOrdered ∧
      (Payload.float 9007199254740992).IsOrdered ∧
      (Payload.int 9007199254740992).IsOrdered ∧
      ConsistentlyOrdered ⟨.int 9007199254740993, 0⟩ ⟨.float 9007199254740992, 0⟩
        ⟨.int 9007199254740992, 0⟩ :=
  ⟨trivial, by decide +kernel, trivial,
    consistentlyOrdered trivial (by decide +kernel) trivial⟩

/-- The comparisons of numbers are not transitive. -/
theorem comparisons_not_transitive :
    (Payload.float 9007199254740992).IsOrdered ∧
      Equal ⟨.int 9007199254740993, 0⟩ ⟨.float 9007199254740992, 0⟩ ∧
      Equal ⟨.float 9007199254740992, 0⟩ ⟨.int 9007199254740992, 0⟩ ∧
      ¬ Equal ⟨.int 9007199254740993, 0⟩ ⟨.int 9007199254740992, 0⟩ ∧
      AtMost ⟨.int 9007199254740993, 0⟩ ⟨.float 9007199254740992, 0⟩ ∧
      AtMost ⟨.float 9007199254740992, 0⟩ ⟨.int 9007199254740992, 0⟩ ∧
      ¬ AtMost ⟨.int 9007199254740993, 0⟩ ⟨.int 9007199254740992, 0⟩ := by
  decide +kernel

end Value

end Scriptlet
