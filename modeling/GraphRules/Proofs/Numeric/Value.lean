import GraphRules.Numeric.Decimal
import Mathlib.Algebra.Order.Field.Power
import Mathlib.Data.Rat.Cast.Order
import Mathlib.Order.WithBot
import Mathlib.Tactic.FieldSimp
import Mathlib.Tactic.NormNum
import Mathlib.Tactic.Positivity

/-! The numbers that decimals and binary numbers stand for, and their order. -/

namespace GraphRules

/-- Rational numbers with an infinity on either side. -/
abbrev ExtendedRat := WithBot (WithTop ℚ)

/-- A rational number as an extended one. -/
def extend (number : ℚ) : ExtendedRat := ((number : WithTop ℚ) : ExtendedRat)

@[simp] theorem extend_lt_extend {left right : ℚ} : extend left < extend right ↔ left < right := by
  -- Extending keeps the order on both ends.
  rw [extend, extend, WithBot.coe_lt_coe, WithTop.coe_lt_coe]

@[simp] theorem extend_le_extend {left right : ℚ} : extend left ≤ extend right ↔ left ≤ right := by
  -- Extending keeps the order on both ends.
  rw [extend, extend, WithBot.coe_le_coe, WithTop.coe_le_coe]

@[simp] theorem extend_inj {left right : ℚ} : extend left = extend right ↔ left = right := by
  -- Extending forgets nothing.
  rw [extend, extend, WithBot.coe_inj, WithTop.coe_inj]

/-- Every rational number is below the upper infinity. -/
theorem extend_lt_top (number : ℚ) : extend number < ⊤ :=
  WithBot.coe_lt_coe.mpr (WithTop.coe_lt_top number)

/-- Every rational number is above the lower infinity. -/
theorem bot_lt_extend (number : ℚ) : ⊥ < extend number := WithBot.bot_lt_coe _

/-- The number of a magnitude and a sign. -/
def signed (negative : Bool) (magnitude : ℚ) : ℚ := if negative then -magnitude else magnitude

/-- A sign is kept when the magnitude is scaled. -/
theorem signed_mul (negative : Bool) (magnitude factor : ℚ) :
    signed negative (magnitude * factor) = signed negative magnitude * factor := by
  -- A sign goes before the product or before its first factor.
  cases negative
  · rfl
  · exact (neg_mul magnitude factor).symm

/-- The sign does not change the magnitude. -/
theorem abs_signed (negative : Bool) {magnitude : ℚ} (nonneg : 0 ≤ magnitude) :
    |signed negative magnitude| = magnitude := by
  -- The sign is forgotten, and the magnitude has none.
  cases negative
  · exact abs_of_nonneg nonneg
  · exact (abs_neg magnitude).trans (abs_of_nonneg nonneg)

namespace Decimal

/-- The number without its sign. -/
def absolute (x : Decimal) : ℚ := x.mantissa / 10 ^ x.scale

/-- A magnitude is not negative. -/
theorem absolute_nonneg (x : Decimal) : 0 ≤ x.absolute :=
  div_nonneg (Nat.cast_nonneg _) (by positivity)

/-- The number that a decimal stands for. -/
def value (x : Decimal) : ℚ := signed x.negative x.absolute

/-- The magnitude of the number is the number without its sign. -/
theorem abs_value (x : Decimal) : |x.value| = x.absolute := abs_signed x.negative x.absolute_nonneg

/-- The count of finest steps is the number in these steps. -/
theorem units_eq (x : Decimal) : (x.units : ℚ) = x.value * 10 ^ 28 := by
  -- Over the least place of all decimals, the mantissa is multiplied by the places left out.
  have places : (10 : ℚ) ^ 28 = 10 ^ (28 - x.scale) * 10 ^ x.scale := by
    rw [← pow_add, Nat.sub_add_cancel x.scale_le]
  have magnitude : ((x.mantissa * Nat.pow 10 (28 - x.scale) : ℕ) : ℚ) = x.absolute * 10 ^ 28 := by
    rw [absolute, places]
    push_cast [Nat.pow_eq]
    field_simp
  rw [value, ← signed_mul, ← magnitude, units]
  cases x.negative
  · rfl
  · exact Int.cast_neg _

/-- Decimals are compared by their numbers. -/
theorem lt_iff {left right : Decimal} : left.lt right = true ↔ left.value < right.value := by
  -- Both numbers are compared over one least place.
  rw [lt, decide_eq_true_eq, ← Int.cast_lt (R := ℚ), units_eq, units_eq]
  exact mul_lt_mul_iff_left₀ (by positivity)

/-- Decimals are equal when their numbers are, whatever their scales. -/
theorem equal_iff {left right : Decimal} : left.equal right = true ↔ left.value = right.value := by
  -- Both numbers are compared over one least place.
  rw [equal, beq_iff_eq, ← Int.cast_inj (α := ℚ), units_eq, units_eq]
  exact mul_left_inj' (by positivity)

end Decimal

namespace FiniteDouble

/-- The number without its sign. -/
def absolute (x : FiniteDouble) : ℚ := x.significand * 2 ^ x.exponent

/-- A magnitude is not negative. -/
theorem absolute_nonneg (x : FiniteDouble) : 0 ≤ x.absolute :=
  mul_nonneg (Nat.cast_nonneg _) (zpow_nonneg zero_le_two _)

/-- The number that a finite binary number stands for. -/
def value (x : FiniteDouble) : ℚ := signed x.negative x.absolute

/-- The magnitude of the number is the number without its sign. -/
theorem abs_value (x : FiniteDouble) : |x.value| = x.absolute :=
  abs_signed x.negative x.absolute_nonneg

/-- The count of least positive numbers is the number in these. -/
theorem units_eq (x : FiniteDouble) : (x.units : ℚ) = x.value * 2 ^ 1074 := by
  -- Over the least place of all finite numbers, the significand is shifted to its exponent.
  have least := x.canonical.2.1
  have magnitude : (x.magnitude : ℚ) = x.absolute * 2 ^ 1074 := by
    have power : ((2 : ℚ) ^ (x.exponent + 1074).toNat) = 2 ^ x.exponent * 2 ^ 1074 := by
      rw [← zpow_natCast, Int.toNat_of_nonneg (by omega), zpow_add₀ two_ne_zero]
      rfl
    rw [absolute, FiniteDouble.magnitude, mul_assoc, ← power]
    push_cast [Nat.pow_eq]
    rfl
  rw [value, ← signed_mul, ← magnitude, units]
  cases x.negative
  · rfl
  · exact Int.cast_neg _

/-- Finite binary numbers are compared by their numbers. -/
theorem units_lt_iff {left right : FiniteDouble} :
    left.units < right.units ↔ left.value < right.value := by
  -- Multiplying by the least place keeps the order.
  rw [← Int.cast_lt (R := ℚ), units_eq, units_eq]
  exact mul_lt_mul_iff_left₀ (by positivity)

/-- Finite binary numbers, zeros included, are equal when their numbers are. -/
theorem units_inj {left right : FiniteDouble} :
    left.units = right.units ↔ left.value = right.value := by
  -- Multiplying by the least place keeps numbers apart.
  rw [← Int.cast_inj (α := ℚ), units_eq, units_eq]
  exact mul_left_inj' (by positivity)

end FiniteDouble

namespace Double

/-- The number that a binary number stands for, if it is one. -/
def value? : Double → Option ExtendedRat
  | .nan => none
  | .infinite true => some ⊥
  | .infinite false => some ⊤
  | .finite x => some (extend x.value)

/-- What is not a number, and nothing else, stands for none. -/
theorem value?_eq_none {x : Double} : x.value? = none ↔ x.isNaN = true := by
  -- What is not a number is the only one without a number.
  cases x with
  | nan => exact iff_of_true rfl rfl
  | infinite negative => cases negative <;> simp [value?, isNaN]
  | finite x => simp [value?, isNaN]

/-- Binary numbers are compared by the numbers that they stand for. -/
theorem lt_iff {left right : Double} {first second : ExtendedRat} (one : left.value? = some first)
    (two : right.value? = some second) : left.lt right = true ↔ first < second := by
  -- The infinities are told by their signs, and only finite numbers are compared by units.
  cases left with
  | nan => cases one
  | infinite negative =>
    cases right with
    | nan => cases two
    | infinite other =>
      cases negative <;> cases other <;> cases one <;> cases two <;> simp [lt]
    | finite y =>
      cases two
      cases negative with
      | true => cases one; exact iff_of_true rfl (bot_lt_extend _)
      | false => cases one; exact iff_of_false nofun (extend_lt_top _).not_gt
  | finite x =>
    cases one
    cases right with
    | nan => cases two
    | infinite other =>
      cases other with
      | true => cases two; exact iff_of_false nofun (bot_lt_extend _).not_gt
      | false => cases two; exact iff_of_true rfl (extend_lt_top _)
    | finite y =>
      cases two
      -- Two finite numbers are compared by their counts of units.
      rw [lt, decide_eq_true_eq, FiniteDouble.units_lt_iff, extend_lt_extend]

/-- Binary numbers are equal when they stand for the same number. -/
theorem equal_iff {left right : Double} :
    left.equal right = true ↔ ∃ number, left.value? = some number ∧ right.value? = some number := by
  cases left with
  | nan => simp [equal, value?]
  | infinite negative =>
    cases right with
    | nan => simp [equal, value?]
    | infinite other => cases negative <;> cases other <;> simp [equal, value?]
    | finite y =>
      -- No rational number is one of the infinities.
      have lower := (bot_lt_extend y.value).ne'
      have upper := (extend_lt_top y.value).ne
      cases negative <;> simp [equal, value?, lower, upper]
  | finite x =>
    have lower := (bot_lt_extend x.value).ne
    have upper := (extend_lt_top x.value).ne'
    cases right with
    | nan => simp [equal, value?]
    | infinite other => cases other <;> simp [equal, value?, lower, upper]
    | finite y =>
      -- Two finite numbers are compared by their counts of units.
      simp only [equal, beq_iff_eq, FiniteDouble.units_inj, value?, Option.some.injEq,
        exists_eq_left', extend_inj]
      exact eq_comm

end Double

end GraphRules
