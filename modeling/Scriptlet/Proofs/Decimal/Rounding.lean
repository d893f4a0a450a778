import Scriptlet.Decimal.Shortest
import Mathlib.Algebra.Order.Field.Power
import Mathlib.Algebra.Order.Field.Rat
import Mathlib.Order.Compare
import Mathlib.Tactic.FieldSimp
import Mathlib.Tactic.Positivity
import Mathlib.Tactic.Ring

namespace Scriptlet

/-!
# The reals that round to a binary number

The reals that round to a binary number form an interval around it.  The interval of a
number ends where that of the next number begins, and of two neighbours just one has an
even mantissa.  So no real rounds to two numbers.  The decimal that is chosen for a number
rounds to it, and therefore to no other.
-/

namespace Dyadic

/-! ## Exact comparisons -/

theorem zpow_mul_toNat_neg
    {base : ℚ}
    (nonzero : base ≠ 0)
    (power : Int) :
    base ^ power * base ^ (-power).toNat = base ^ power.toNat := by
  rw [← zpow_natCast, ← zpow_natCast, ← zpow_add₀ nonzero]
  congr 1
  omega

/-- Numbers are compared by their values. -/
theorem compareScaled_eq
    (count units : Nat)
    (tens twos : Int) :
    compareScaled count tens units twos =
      cmp ((count : ℚ) * 10 ^ tens) (units * 2 ^ twos) := by
  -- Both values are compared after they are multiplied by this.
  let scale : ℚ := 10 ^ (-tens).toNat * 2 ^ (-twos).toNat
  have scalePositive : 0 < scale := by positivity
  have left :
      ((count * Nat.pow 10 tens.toNat * Nat.pow 2 (-twos).toNat : Nat) : ℚ) =
        (count : ℚ) * 10 ^ tens * scale := by
    push_cast [Nat.pow_eq]
    rw [← zpow_mul_toNat_neg (by norm_num) tens]
    ring
  have right :
      ((units * Nat.pow 2 twos.toNat * Nat.pow 10 (-tens).toNat : Nat) : ℚ) =
        (units : ℚ) * 2 ^ twos * scale := by
    push_cast [Nat.pow_eq]
    rw [← zpow_mul_toNat_neg (by norm_num) twos]
    ring
  rw [compareScaled, ← cmp_eq_compare, ← Nat.strictMono_cast (α := ℚ) |>.cmp_map_eq,
    left, right, cmp_mul_pos_right scalePositive]

/-! ## The interval of a number -/

/-- The lower end of the interval, in quarters of a unit of the mantissa. -/
def lowQuarters (number : Dyadic) : Nat :=
  if number.narrowBelow then 4 * number.mantissa - 1 else 4 * number.mantissa - 2

/-- The lower end of the interval. -/
def low (number : Dyadic) : ℚ :=
  number.lowQuarters * 2 ^ (number.exponent - 2)

/-- The upper end of the interval. -/
def high (number : Dyadic) : ℚ :=
  (4 * number.mantissa + 2 : Nat) * 2 ^ (number.exponent - 2)

/-- Whether a value rounds to the number.  The ends of the interval do if the mantissa is
even. -/
def Covers (number : Dyadic) (value : ℚ) : Prop :=
  (number.low < value ∨ number.mantissa % 2 = 0 ∧ value = number.low) ∧
    (value < number.high ∨ number.mantissa % 2 = 0 ∧ value = number.high)

theorem readsBack_iff
    {number : Dyadic}
    {count : Nat}
    {tens : Int} :
    number.readsBack count tens = true ↔ number.Covers (count * 10 ^ tens) := by
  have parts : number.readsBack count tens = true ↔
      (compareScaled count tens number.lowQuarters (number.exponent - 2) = .gt ∨
        number.mantissa % 2 = 0 ∧
          compareScaled count tens number.lowQuarters (number.exponent - 2) = .eq) ∧
      (compareScaled count tens (4 * number.mantissa + 2) (number.exponent - 2) = .lt ∨
        number.mantissa % 2 = 0 ∧
          compareScaled count tens (4 * number.mantissa + 2) (number.exponent - 2) =
            .eq) := by
    simp [readsBack, lowQuarters]
  rw [parts, compareScaled_eq, compareScaled_eq, cmp_eq_gt_iff, cmp_eq_eq_iff,
    cmp_eq_lt_iff, cmp_eq_eq_iff]
  rfl

theorem lowQuarters_lt
    {number : Dyadic}
    (positive : 0 < number.mantissa) :
    number.lowQuarters < 4 * number.mantissa := by
  unfold lowQuarters
  split <;> omega

theorem lowQuarters_pos
    {number : Dyadic}
    (positive : 0 < number.mantissa) :
    0 < number.lowQuarters := by
  unfold lowQuarters
  split <;> omega

theorem low_lt_high (number : Dyadic) :
    number.low < number.high := by
  have quarters : number.lowQuarters < 4 * number.mantissa + 2 := by
    unfold lowQuarters
    split <;> omega
  have unit : (0 : ℚ) < 2 ^ (number.exponent - 2) := by positivity
  exact mul_lt_mul_of_pos_right (Nat.cast_lt.mpr quarters) unit

theorem low_pos
    {number : Dyadic}
    (positive : 0 < number.mantissa) :
    0 < number.low := by
  have quarters : (0 : ℚ) < number.lowQuarters :=
    Nat.cast_pos.mpr (lowQuarters_pos positive)
  have unit : (0 : ℚ) < 2 ^ (number.exponent - 2) := by positivity
  exact mul_pos quarters unit

theorem Covers.low_le
    {number : Dyadic}
    {value : ℚ}
    (covers : number.Covers value) :
    number.low ≤ value := by
  rcases covers.1 with above | ⟨_, isLow⟩
  · exact above.le
  · exact isLow.ge

theorem Covers.le_high
    {number : Dyadic}
    {value : ℚ}
    (covers : number.Covers value) :
    value ≤ number.high := by
  rcases covers.2 with below | ⟨_, isHigh⟩
  · exact below.le
  · exact isHigh.le

theorem Covers.even_of_eq_low
    {number : Dyadic}
    (covers : number.Covers number.low) :
    number.mantissa % 2 = 0 := by
  rcases covers.1 with above | ⟨isEven, _⟩
  · exact absurd above (lt_irrefl _)
  · exact isEven

theorem Covers.even_of_eq_high
    {number : Dyadic}
    (covers : number.Covers number.high) :
    number.mantissa % 2 = 0 := by
  rcases covers.2 with below | ⟨isEven, _⟩
  · exact absurd below (lt_irrefl _)
  · exact isEven

/-- A number rounds to itself. -/
theorem covers_self
    {number : Dyadic}
    (positive : 0 < number.mantissa) :
    number.Covers (number.mantissa * 2 ^ number.exponent) := by
  have unit : (0 : ℚ) < 2 ^ (number.exponent - 2) := by positivity
  have quarters :
      (number.mantissa : ℚ) * 2 ^ number.exponent =
        (4 * number.mantissa : Nat) * 2 ^ (number.exponent - 2) := by
    rw [zpow_sub₀ (by norm_num)]
    push_cast
    ring
  rw [quarters]
  constructor
  · left
    exact mul_lt_mul_of_pos_right (Nat.cast_lt.mpr (lowQuarters_lt positive)) unit
  · left
    exact mul_lt_mul_of_pos_right
      (Nat.cast_lt.mpr (Nat.lt_add_of_pos_right Nat.two_pos)) unit

/-! ## The decimal that is chosen -/

/-- A number that is written out in full keeps its value. -/
theorem exactMultiple_value (number : Dyadic) :
    (number.exactMultiple.1 : ℚ) * 10 ^ number.exactMultiple.2 =
      number.mantissa * 2 ^ number.exponent := by
  unfold exactMultiple
  split
  case isTrue nonneg =>
    obtain ⟨power, isPower⟩ := Int.eq_ofNat_of_zero_le nonneg
    simp [isPower]
  case isFalse negative =>
    obtain ⟨power, isPower⟩ : ∃ power : Nat, number.exponent = -power :=
      ⟨(-number.exponent).toNat, by omega⟩
    have tens : (10 : ℚ) ^ power = 5 ^ power * 2 ^ power := by
      rw [← mul_pow]
      norm_num
    simp only [isPower, neg_neg, Int.toNat_natCast, zpow_neg, zpow_natCast, tens]
    push_cast [Nat.pow_eq]
    field_simp

theorem readsBack_of_multipleAt?
    {number : Dyadic}
    {count : Nat}
    {tens : Int}
    (found : number.multipleAt? tens = some count) :
    number.readsBack count tens = true := by
  unfold multipleAt? at found
  simp only at found
  split at found
  case isTrue bothFit =>
    obtain ⟨belowFits, aboveFits⟩ := Bool.and_eq_true_iff.mp bothFit
    cases found
    split <;> assumption
  case isFalse =>
    split at found
    case isTrue belowFits =>
      cases found
      exact belowFits
    case isFalse =>
      split at found
      case isTrue aboveFits =>
        cases found
        exact aboveFits
      case isFalse =>
        cases found

/-- The decimal that is chosen for a number rounds to the number. -/
theorem covers_shortestMultiple
    {number : Dyadic}
    (positive : 0 < number.mantissa) :
    number.Covers (number.shortestMultiple.1 * 10 ^ number.shortestMultiple.2) := by
  unfold shortestMultiple
  simp only
  cases isFound : List.findSome? _ _ with
  | none =>
      rw [Option.getD_none, exactMultiple_value]
      exact covers_self positive
  | some chosen =>
      obtain ⟨tens, _, fits⟩ := List.exists_of_findSome?_eq_some isFound
      obtain ⟨count, isMultiple, rfl⟩ := Option.map_eq_some_iff.mp fits
      exact readsBack_iff.mp (readsBack_of_multipleAt? isMultiple)

theorem shortestMultiple_pos
    {number : Dyadic}
    (positive : 0 < number.mantissa) :
    0 < number.shortestMultiple.1 := by
  have above := (low_pos positive).trans_le (covers_shortestMultiple positive).low_le
  by_contra notPositive
  rw [Nat.eq_zero_of_not_pos notPositive, Nat.cast_zero, zero_mul] at above
  exact lt_irrefl _ above

/-! ## Neighbours -/

/-- The binary number with the given bits in its two fields. -/
def ofFields (exponent fraction : Nat) : Dyadic :=
  if exponent = 0 then
    ⟨fraction, -1074, false⟩
  else
    ⟨2 ^ 52 + fraction, (exponent : Int) - 1075, fraction == 0 && decide (1 < exponent)⟩

/-- The binary number whose bits, less the sign, are the given number. -/
def ofMagnitude (magnitude : Nat) : Dyadic :=
  ofFields (magnitude / 2 ^ 52) (magnitude % 2 ^ 52)

/-- The sign has no part in the absolute value. -/
theorem ofBits_eq (bits : UInt64) :
    ofBits bits = ofMagnitude (bits.toNat % 2 ^ 63) := by
  have exponent : bits.toNat / 2 ^ 52 % 2 ^ 11 = bits.toNat % 2 ^ 63 / 2 ^ 52 := by
    omega
  have fraction : bits.toNat % 2 ^ 52 = bits.toNat % 2 ^ 63 % 2 ^ 52 := by
    omega
  rw [ofMagnitude, ← exponent, ← fraction]
  rfl

theorem mantissa_ofMagnitude_mod_two (magnitude : Nat) :
    (ofMagnitude magnitude).mantissa % 2 = magnitude % 2 := by
  unfold ofMagnitude ofFields
  split <;> simp only <;> omega

theorem mantissa_ofMagnitude_pos
    {magnitude : Nat}
    (positive : 0 < magnitude) :
    0 < (ofMagnitude magnitude).mantissa := by
  unfold ofMagnitude ofFields
  split <;> simp only <;> omega

/-- Zero rounds to the number without any bits. -/
theorem covers_zero : (ofMagnitude 0).Covers 0 := by
  have isLow : (ofMagnitude 0).low = 0 := by
    simp [low, lowQuarters, ofMagnitude, ofFields]
  refine ⟨.inr ⟨rfl, isLow.symm⟩, .inl ?_⟩
  exact isLow.symm.trans_lt (low_lt_high _)

/-- The next number has the next mantissa, or half of it with the next exponent. -/
theorem ofMagnitude_succ (magnitude : Nat) :
    ofMagnitude (magnitude + 1) =
        ⟨(ofMagnitude magnitude).mantissa + 1, (ofMagnitude magnitude).exponent, false⟩ ∨
      ∃ half, (ofMagnitude magnitude).mantissa + 1 = 2 * half ∧
        ofMagnitude (magnitude + 1) =
          ⟨half, (ofMagnitude magnitude).exponent + 1, true⟩ := by
  by_cases isLast : magnitude % 2 ^ 52 = 2 ^ 52 - 1
  · have nextExponent : (magnitude + 1) / 2 ^ 52 = magnitude / 2 ^ 52 + 1 := by
      omega
    have nextFraction : (magnitude + 1) % 2 ^ 52 = 0 := by
      omega
    rw [ofMagnitude, ofMagnitude, nextExponent, nextFraction, isLast]
    cases magnitude / 2 ^ 52 with
    | zero =>
        left
        simp [ofFields]
    | succ exponent =>
        right
        refine ⟨2 ^ 52, by simp [ofFields], ?_⟩
        simp only [ofFields, Nat.add_one_ne_zero, if_false, Dyadic.mk.injEq]
        exact ⟨by simp, by omega, by simp⟩
  · have sameExponent : (magnitude + 1) / 2 ^ 52 = magnitude / 2 ^ 52 := by
      omega
    have nextFraction : (magnitude + 1) % 2 ^ 52 = magnitude % 2 ^ 52 + 1 := by
      omega
    left
    rw [ofMagnitude, ofMagnitude, sameExponent, nextFraction]
    cases magnitude / 2 ^ 52 with
    | zero => rfl
    | succ exponent => rfl

/-- The interval of a number ends where that of the next number begins. -/
theorem high_eq_low_succ (magnitude : Nat) :
    (ofMagnitude magnitude).high = (ofMagnitude (magnitude + 1)).low := by
  rcases ofMagnitude_succ magnitude with isNext | ⟨half, isHalf, isNext⟩
  · rw [isNext]
    rfl
  · have quarters : 4 * (ofMagnitude magnitude).mantissa + 2 = 2 * (4 * half - 1) := by
      omega
    have exponent : (ofMagnitude magnitude).exponent + 1 - 2 =
        (ofMagnitude magnitude).exponent - 2 + 1 := by
      ring
    rw [isNext, high, low, lowQuarters, if_pos rfl, quarters, exponent,
      zpow_add_one₀ (by norm_num)]
    push_cast
    ring

/-- A later number has a higher interval. -/
theorem low_strictMono :
    StrictMono fun magnitude => (ofMagnitude magnitude).low := by
  apply strictMono_nat_of_lt_succ
  intro magnitude
  rw [← high_eq_low_succ]
  exact low_lt_high _

/-- No value rounds to a number and to a later one. -/
theorem not_covers_of_lt
    {magnitude other : Nat}
    {value : ℚ}
    (isLater : magnitude < other)
    (covers : (ofMagnitude magnitude).Covers value) :
    ¬(ofMagnitude other).Covers value := by
  intro otherCovers
  have ordered : (ofMagnitude magnitude).high ≤ (ofMagnitude other).low := by
    rw [high_eq_low_succ]
    exact low_strictMono.monotone isLater
  have isHigh : value = (ofMagnitude magnitude).high :=
    le_antisymm covers.le_high (ordered.trans otherCovers.low_le)
  have isLow : value = (ofMagnitude other).low :=
    le_antisymm (covers.le_high.trans ordered) otherCovers.low_le
  -- The value is the common end of two neighbours, and one of their mantissas is odd.
  have isNext : magnitude + 1 = other := by
    apply low_strictMono.injective
    simp only [← high_eq_low_succ, ← isHigh, ← isLow]
  have isEven := (isHigh ▸ covers).even_of_eq_high
  have otherEven := (isLow ▸ otherCovers).even_of_eq_low
  rw [mantissa_ofMagnitude_mod_two] at isEven otherEven
  omega

/-- A value rounds to one number only. -/
theorem Covers.unique
    {magnitude other : Nat}
    {value : ℚ}
    (covers : (ofMagnitude magnitude).Covers value)
    (otherCovers : (ofMagnitude other).Covers value) :
    magnitude = other := by
  rcases Nat.lt_trichotomy magnitude other with isLater | isSame | isEarlier
  · exact absurd otherCovers (not_covers_of_lt isLater covers)
  · exact isSame
  · exact absurd covers (not_covers_of_lt isEarlier otherCovers)

end Dyadic

end Scriptlet
