import GraphRules.Proofs.Rule.Bounds

/-! Bounds on integers and decimals, compared by the rational numbers that they stand for. -/

namespace GraphRules

/-- An integer stands for the same number as a decimal. -/
theorem Decimal.value_ofInt64 (number : Int64) : (ofInt64 number).value = number.toInt := by
  have magnitude : (ofInt64 number).absolute = ((|number.toInt| : ℤ) : ℚ) := by
    -- There are no places.
    simp [absolute, ofInt64]
  have sign : (ofInt64 number).negative = decide (number.toInt < 0) := rfl
  rw [value, magnitude, sign, signed]
  by_cases below : number.toInt < 0
  · simp [below, abs_of_neg below]
  · simp [below, abs_of_nonneg (not_lt.mp below)]

/-- The rational number that an integer or a decimal stands for. -/
def Value.exactNumber? : Value → Option ℚ
  | .integer content => some content.toInt
  | .decimal content => some content.value
  | _ => none

/-- What stands for an exact number is compared as a decimal of that number. -/
theorem Value.exists_exact {value : Value} {number : ℚ}
    (stands : value.exactNumber? = some number) :
    ∃ exact : Decimal, exact.value = number ∧
      ∀ code, value.quantity code = .ok (some (.exact exact)) := by
  -- An integer is converted without loss, and a decimal is taken as it is.
  cases value with
  | integer content =>
    refine ⟨.ofInt64 content, ?_, fun code => rfl⟩
    rw [Decimal.value_ofInt64]
    exact Option.some.inj stands
  | decimal content => exact ⟨content, Option.some.inj stands, fun code => rfl⟩
  | _ => simp [exactNumber?] at stands

namespace Rule

/-- A rule accepts the values that do not violate it. -/
def Accepts (rule : Rule) (store : Store) (value : Value) : Prop := rule.check store value = none

/-- A bound accepts a quantity exactly when the quantity does not break it. -/
theorem accepts_bounded_iff {code words : String} {bound : Decimal} {breaks : Quantity → Bool}
    {store : Store}
    {value : Value} {quantity : Quantity} (measured : value.quantity code = .ok (some quantity)) :
    (bounded code words bound breaks).Accepts store value ↔ breaks quantity = false := by
  -- What is measured is accepted unless it breaks the bound.
  rw [Accepts, ← Option.not_isSome_iff_eq_none, isSome_bounded measured, Bool.not_eq_true]

variable {value : Value} {number : ℚ} {bound : Decimal} {store : Store}

/-- A lower bound accepts the exact numbers that are no less. -/
theorem accepts_min_iff (stands : value.exactNumber? = some number) :
    (Rule.min bound).Accepts store value ↔ bound.value ≤ number := by
  -- The bound is broken from below.
  obtain ⟨exact, rfl, measured⟩ := value.exists_exact stands
  rw [Rule.min, accepts_bounded_iff (measured "min"), ← Bool.not_eq_true, ← not_lt]
  exact not_congr Decimal.lt_iff

/-- An upper bound accepts the exact numbers that are no greater. -/
theorem accepts_max_iff (stands : value.exactNumber? = some number) :
    (Rule.max bound).Accepts store value ↔ number ≤ bound.value := by
  -- The bound is broken from above.
  obtain ⟨exact, rfl, measured⟩ := value.exists_exact stands
  rw [Rule.max, accepts_bounded_iff (measured "max"), ← Bool.not_eq_true, ← not_lt]
  exact not_congr Decimal.lt_iff

/-- On integers and decimals, bounds are exact, and do not depend on how a number is written. -/
theorem bounds_exact (stands : value.exactNumber? = some number) (bound : Decimal) (store : Store) :
    ((Rule.min bound).Accepts store value ↔ bound.value ≤ number) ∧
    ((Rule.max bound).Accepts store value ↔ number ≤ bound.value) ∧
    -- Both accept only the number of the bound itself.
    ((Rule.min bound).Accepts store value ∧ (Rule.max bound).Accepts store value ↔
      number = bound.value) ∧
    -- Other forms of the same numbers change neither answer.
    ∀ (other : Value) (form : Decimal), other.exactNumber? = some number →
      form.value = bound.value →
      ((Rule.min form).Accepts store other ↔ (Rule.min bound).Accepts store value) ∧
      ((Rule.max form).Accepts store other ↔ (Rule.max bound).Accepts store value) := by
  -- Each bound compares two rational numbers, and these are the same for all forms.
  refine ⟨accepts_min_iff stands, accepts_max_iff stands, ?both, ?forms⟩
  case both =>
    rw [accepts_min_iff stands, accepts_max_iff stands, and_comm]
    exact le_antisymm_iff.symm
  case forms =>
    intro other form alike same
    rw [accepts_min_iff alike, accepts_min_iff stands, accepts_max_iff alike,
      accepts_max_iff stands, same]
    exact ⟨Iff.rfl, Iff.rfl⟩

/-- The least integer is accepted by both bounds of the same number with places. -/
theorem bounds_exact_least :
    let least : Value := .integer Int64.minValue
    let decimal : Decimal := ⟨true, 9223372036854775808, 0, by decide, by decide⟩
    let places : Decimal := ⟨true, 9223372036854775808000000000, 9, by decide, by decide⟩
    least.exactNumber? = some (-9223372036854775808) ∧ places.value = -9223372036854775808 ∧
      ((Rule.min places).Accepts .empty least ∧ (Rule.max places).Accepts .empty least) ∧
      (Rule.min decimal).Accepts .empty (.decimal places) := by
  -- The least integer and both decimals stand for the same number.
  intro least decimal places
  have stands : least.exactNumber? = some (-9223372036854775808) := by
    simp [least, Value.exactNumber?]
  have bound : places.value = -9223372036854775808 := by
    norm_num [places, Decimal.value, Decimal.absolute, signed]
  have form : decimal.value = -9223372036854775808 := by
    norm_num [decimal, Decimal.value, Decimal.absolute, signed]
  obtain ⟨_, _, both, forms⟩ := bounds_exact stands places .empty
  have accepted := both.mpr bound.symm
  have alike : (Value.decimal places).exactNumber? = some (-9223372036854775808) :=
    congrArg some bound
  have other := forms (.decimal places) decimal alike (form.trans bound.symm)
  exact ⟨stands, bound, accepted, other.1.mpr accepted.1⟩

end Rule

end GraphRules
