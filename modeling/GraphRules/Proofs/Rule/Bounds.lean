import GraphRules.Proofs.Basic
import GraphRules.Proofs.Numeric.Nearest
import GraphRules.Proofs.Numeric.Range
import GraphRules.Rule.Numeric

/-! Bounds on binary numbers beyond the range of decimals, compared to the nearest to the bound. -/

namespace GraphRules

/-! ### Bounds as binary numbers -/

namespace Decimal

/-- The least bound whose nearest binary number is the limit: half a last place below it. -/
def edge : ℚ := limit - 2 ^ 42

/-- The binary number nearest to a decimal is finite, and the limit exactly from the edge on. -/
theorem exists_toDouble (bound : Decimal) :
    ∃ x : FiniteDouble, bound.toDouble = .finite x ∧ x.negative = bound.negative ∧
      x.absolute ≤ limit ∧ (limit ≤ x.absolute ↔ edge ≤ bound.absolute) := by
  rcases Nat.eq_zero_or_pos bound.mantissa with zero | positive
  · -- Zero is rounded to zero.
    have rounded : bound.toDouble = .finite (.zero bound.negative) := by
      rw [toDouble, Double.ofRatio, if_pos zero]
    have nothing : bound.absolute = 0 := by rw [absolute, zero, Nat.cast_zero, zero_div]
    have nothing' : (FiniteDouble.zero bound.negative).absolute = 0 := by
      rw [FiniteDouble.absolute, FiniteDouble.zero, Nat.cast_zero, zero_mul]
    refine ⟨.zero bound.negative, rounded, rfl, ?_⟩
    rw [nothing, nothing']
    norm_num [limit, edge]
  -- Any other bound is a quotient of two positive numbers, and below the limit of the decimals.
  · have divides : 0 < Nat.pow 10 bound.scale := Nat.pow_pos (by decide)
    have quotient : (bound.mantissa : ℚ) / (Nat.pow 10 bound.scale : ℕ) = bound.absolute := by
      rw [absolute]
      push_cast [Nat.pow_eq]
      rfl
    have below : (bound.mantissa : ℚ) / (Nat.pow 10 bound.scale : ℕ) < 2 ^ (96 : Int) := by
      rw [quotient]
      exact bound.absolute_lt_limit
    have within : (bound.mantissa : ℚ) / (Nat.pow 10 bound.scale : ℕ) < 2 ^ (1023 : Int) :=
      below.trans (zpow_lt_zpow_right₀ one_lt_two (by decide))
    -- The quotient is in range, so it is rounded to a finite number, at most to the limit.
    obtain ⟨x, rounded, sign, magnitude⟩ :=
      Double.ofRatio_finite bound.negative positive divides within
    obtain ⟨small, full⟩ := Double.rounded_at_power positive divides (by decide) below
    rw [← magnitude] at small full
    rw [quotient] at full
    exact ⟨x, rounded, sign, small, full⟩

/-- The number of the nearest binary number is within the limits, and at them from the edges on. -/
theorem exists_value_toDouble (bound : Decimal) :
    ∃ number : ℚ, bound.toDouble.value? = some (extend number) ∧
      -limit ≤ number ∧ number ≤ limit ∧
      (number = -limit ↔ bound.value ≤ -edge) ∧ (number = limit ↔ edge ≤ bound.value) := by
  obtain ⟨x, rounded, sign, small, full⟩ := bound.exists_toDouble
  obtain ⟨low, high⟩ := abs_le.mp (x.abs_value ▸ small)
  -- The limit is not passed, so reaching it is being at it.
  have reached : limit = x.absolute ↔ edge ≤ bound.absolute := by
    rw [← full]
    exact ⟨fun same => same.le, fun most => le_antisymm most small⟩
  have limit_pos : 0 < limit := by norm_num [limit]
  have edge_pos : 0 < edge := by norm_num [edge, limit]
  have nonneg := x.absolute_nonneg
  have nonneg' := bound.absolute_nonneg
  refine ⟨x.value, by rw [rounded]; rfl, low, high, ?_⟩
  rw [FiniteDouble.value, value, sign, signed, signed]
  -- The limits are of different signs, and only that of the sign of the bound can be reached.
  cases bound.negative with
  | true =>
    simp only [if_true]
    refine ⟨?_, iff_of_false (by linarith) (by linarith)⟩
    rw [neg_inj, neg_le_neg_iff, eq_comm, reached]
  | false =>
    simp only [Bool.false_eq_true, if_false]
    refine ⟨iff_of_false (by linarith) (by linarith), ?_⟩
    rw [eq_comm, reached]

end Decimal

/-! ### Bounds as rules -/

namespace Rule

/-- A bound rejects a quantity exactly when the quantity breaks it. -/
theorem isSome_bounded {code words : String} {bound : Decimal} {breaks : Quantity → Bool}
    {store : Store}
    {value : Value} {quantity : Quantity} (measured : value.quantity code = .ok (some quantity)) :
    ((bounded code words bound breaks).check store value).isSome = breaks quantity := by
  -- What was measured is passed to the comparison, and only what breaks the bound is rejected.
  rw [bounded]
  dsimp only
  rw [measured]
  dsimp only
  split
  · next broken => rw [broken]; rfl
  · next kept => rw [Bool.eq_false_iff.mpr kept]; rfl

/-- A binary number without a decimal form is compared as it is. -/
theorem quantity_of_wide {x : Double} {number : ExtendedRat} (stands : x.value? = some number)
    (wide : x.decimal? = none) (code : String) :
    (Value.float x).quantity code = .ok (some (.wide x)) := by
  -- Having a number, it is comparable; having no decimal form, it is compared as it is.
  have comparable : x.isNaN = false := by
    rw [← Bool.not_eq_true, ← Double.value?_eq_none, stands]
    exact Option.some_ne_none _
  have formless : (Value.float x).toDecimal? = none := wide
  unfold Value.quantity
  rw [formless]
  dsimp only
  rw [comparable]
  rfl

/-- Beyond the range of decimals, bounds are exact but for one number on either side. -/
theorem wide_bounds {x : Double} {number : ExtendedRat} (stands : x.value? = some number)
    (wide : x.decimal? = none) (bound : Decimal) (store : Store) :
    (((Rule.min bound).check store (.float x)).isSome = true ↔
      number < extend bound.value ∧
        -- The lower limit is accepted by the bounds that are rounded to it.
        ¬(number = extend (-Decimal.limit) ∧ bound.value ≤ -Decimal.edge)) ∧
    (((Rule.max bound).check store (.float x)).isSome = true ↔
      extend bound.value < number ∧
        -- With upper bounds it is the same the other way around.
        ¬(number = extend Decimal.limit ∧ Decimal.edge ≤ bound.value)) := by
  -- The number is outside of the range, and the bound and what it is rounded to are inside.
  have outside := (Double.decimal?_eq_none stands).mp wide
  obtain ⟨nearest, rounded, low, high, atLow, atHigh⟩ := bound.exists_value_toDouble
  obtain ⟨inside, inside'⟩ := bound.value_within
  rw [← extend_le_extend] at low high
  rw [← extend_lt_extend] at inside inside'
  rw [Rule.min, Rule.max, isSome_bounded (quantity_of_wide stands wide _),
    isSome_bounded (quantity_of_wide stands wide _), Quantity.isBelow, Quantity.isAbove,
    Double.lt_iff stands rounded, Double.lt_iff rounded stands, ← atLow, ← atHigh, ← extend_inj,
    ← extend_inj]
  constructor
  · exact Intervals.lt_iff_of_outside outside low high inside inside'
  · -- From above it is the same in the reversed order.
    exact @Intervals.lt_iff_of_outside ExtendedRatᵒᵈ _ _ _ _ _ _ outside.symm high low inside'
      inside

end Rule

/-! ### The limit itself -/

/-- The limit of the range of decimals as a binary number. -/
def Double.atLimit : Double := .finite ⟨false, Nat.pow 2 52, 44, by decide⟩

/-- It stands for the limit. -/
theorem Double.value?_atLimit : atLimit.value? = some (extend Decimal.limit) := by
  -- The significand and the exponent are multiplied out.
  refine congrArg (fun number => some (extend number)) ?_
  norm_num [FiniteDouble.value, FiniteDouble.absolute, signed, Decimal.limit]

/-- The limit is above one, and breaks it as an upper bound. -/
theorem Rule.wide_bounds_atLimit :
    let one : Decimal := ⟨false, 1, 0, by decide, by decide⟩
    Double.atLimit.value? = some (extend Decimal.limit) ∧ Double.atLimit.decimal? = none ∧
      ((Rule.max one).check .empty (.float Double.atLimit)).isSome = true := by
  -- One is far below the limit and its edge.
  intro one
  have stands := Double.value?_atLimit
  have wide : Double.atLimit.decimal? = none := by decide
  have number : one.value = 1 := by norm_num [one, Decimal.value, Decimal.absolute, signed]
  refine ⟨stands, wide, (wide_bounds stands wide one .empty).2.mpr ?_⟩
  rw [number, extend_lt_extend]
  norm_num [Decimal.limit, Decimal.edge]

/-- The limit is above the greatest decimal, which accepts it as an upper bound. -/
theorem Rule.greatest_bound_accepts_limit :
    let greatest : Decimal := ⟨false, Nat.pow 2 96 - 1, 0, by decide, by decide⟩
    Double.atLimit.value? = some (extend Decimal.limit) ∧ Double.atLimit.decimal? = none ∧
      extend greatest.value < extend Decimal.limit ∧
      (Rule.max greatest).check .empty (.float Double.atLimit) = none := by
  -- Checking rounds the bound, which is beyond the edge.
  intro greatest
  refine ⟨Double.value?_atLimit, by decide, ?_, by decide +kernel⟩
  norm_num [greatest, Decimal.value, Decimal.absolute, signed, Decimal.limit]

end GraphRules
