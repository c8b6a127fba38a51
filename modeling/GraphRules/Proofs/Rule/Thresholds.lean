import GraphRules.Proofs.Basic
import GraphRules.Proofs.Rule.Exact

/-! Bounds as thresholds: however numbers are compared, bounds and numbers are in one order. -/

namespace GraphRules

namespace Quantity

/-- A quantity has a place among the bounds. -/
structure Ordered (quantity : Quantity) : Prop where
  below : ∀ lower upper : Decimal, lower.value ≤ upper.value →
    quantity.isBelow lower = true → quantity.isBelow upper = true
  above : ∀ lower upper : Decimal, lower.value ≤ upper.value →
    quantity.isAbove upper = true → quantity.isAbove lower = true
  oneSide : ∀ bound : Decimal, quantity.isBelow bound = true → quantity.isAbove bound = false

/-- A decimal has its place by its number. -/
theorem ordered_exact (number : Decimal) : (Quantity.exact number).Ordered where
  -- Exact quantities are compared by their numbers, whose order is transitive.
  below lower upper ordered less := by
    have below := Decimal.lt_iff.mp less
    exact Decimal.lt_iff.mpr (below.trans_le ordered)
  above lower upper ordered more := by
    have above := Decimal.lt_iff.mp more
    exact Decimal.lt_iff.mpr (ordered.trans_lt above)
  oneSide bound less := by
    have below := Decimal.lt_iff.mp less
    rw [isAbove, ← Bool.not_eq_true, Decimal.lt_iff]
    exact below.not_gt

/-- A binary number beyond the range of decimals has a place among the bounds. -/
theorem ordered_wide {x : Double} {number : ExtendedRat} (stands : x.value? = some number)
    (wide : x.decimal? = none) : (Quantity.wide x).Ordered := by
  -- A number that no decimal stands for is out of their range on one side.
  have outside := (Double.decimal?_eq_none stands).mp wide
  constructor
  case below =>
    intro lower upper ordered less
    obtain ⟨first, firstRounded, _, firstHigh, firstLow, _⟩ := lower.exists_value_toDouble
    obtain ⟨second, secondRounded, secondLow, _, secondLeast, _⟩ := upper.exists_value_toDouble
    -- If the greater bound is rounded to the lower limit, so is the smaller one.
    have settled : second = -Decimal.limit → first = -Decimal.limit := by
      intro least
      exact firstLow.mpr (ordered.trans (secondLeast.mp least))
    rw [isBelow, Double.lt_iff stands firstRounded] at less
    rw [isBelow, Double.lt_iff stands secondRounded]
    exact Intervals.lt_of_outside outside (extend_le_extend.mpr firstHigh)
      (extend_le_extend.mpr secondLow)
      (fun least => congrArg extend (settled (extend_inj.mp least))) less
  case above =>
    intro lower upper ordered more
    obtain ⟨first, firstRounded, _, firstHigh, _, firstMost⟩ := lower.exists_value_toDouble
    obtain ⟨second, secondRounded, secondLow, _, _, secondHigh⟩ := upper.exists_value_toDouble
    have settled : first = Decimal.limit → second = Decimal.limit := by
      intro most
      exact secondHigh.mpr ((firstMost.mp most).trans ordered)
    rw [isAbove, Double.lt_iff secondRounded stands] at more
    rw [isAbove, Double.lt_iff firstRounded stands]
    -- From above it is the same in the reversed order.
    exact @Intervals.lt_of_outside ExtendedRatᵒᵈ _ _ _ _ _ _ outside.symm
      (extend_le_extend.mpr secondLow)
      (extend_le_extend.mpr firstHigh)
      (fun most => congrArg extend (settled (extend_inj.mp most))) more
  case oneSide =>
    intro bound less
    -- One number is not on both sides of another.
    obtain ⟨nearest, rounded, _⟩ := bound.exists_value_toDouble
    rw [isBelow, Double.lt_iff stands rounded] at less
    rw [isAbove, ← Bool.not_eq_true, Double.lt_iff rounded stands]
    exact less.not_gt

end Quantity

namespace Value

/-- Whether a value is of a kind of numbers. -/
def isNumeric : Value → Bool
  | .integer _ => true
  | .float _ => true
  | .decimal _ => true
  | _ => false

/-- Every number is compared as a quantity that has a place among the bounds. -/
theorem exists_ordered {value : Value} (numeric : value.isNumeric = true)
    (comparable : value ≠ .float .nan) :
    ∃ quantity : Quantity, quantity.Ordered ∧
      ∀ code, value.quantity code = .ok (some quantity) := by
  -- A number is compared exactly if it has a decimal form, and as a binary number if not.
  cases value with
  | integer content => exact ⟨.exact (.ofInt64 content), Quantity.ordered_exact _, fun code => rfl⟩
  | decimal content => exact ⟨.exact content, Quantity.ordered_exact content, fun code => rfl⟩
  | float content =>
    cases form : content.decimal? with
    | some exact =>
      refine ⟨.exact exact, Quantity.ordered_exact exact, fun code => ?_⟩
      have converted : (Value.float content).toDecimal? = some exact := form
      simp [quantity, converted, isNull]
    | none =>
      -- What is not a number is excluded, so the others have a value.
      have number : content.value? ≠ none := by
        intro valueless
        have nan := Double.value?_eq_none.mp valueless
        cases content with
        | nan => exact comparable rfl
        | infinite | finite => exact Bool.false_ne_true nan
      obtain ⟨number, stands⟩ := Option.ne_none_iff_exists'.mp number
      exact ⟨.wide content, Quantity.ordered_wide stands form, Rule.quantity_of_wide stands form⟩
  | _ => simp [isNumeric] at numeric

/-- What is not of a kind of numbers is a mismatch, unless it is null. -/
theorem quantity_of_foreign {value : Value} (something : value ≠ .null)
    (foreign : value.isNumeric = false)
    (code : String) :
    value.quantity code = .error (.typeMismatch code "a number" value.kind.name) := by
  -- Only null and the three sorts of numbers are not refused by their kind.
  cases value with
  | null => exact absurd rfl something
  | integer | float | decimal => exact absurd foreign Bool.true_eq_false_eq_False
  | _ => rfl

/-- What is not a number is a violation before any comparison, unless it is null. -/
theorem exists_violation {value : Value} (something : value ≠ .null)
    (incomparable : value = .float .nan ∨ value.isNumeric = false) (code : String) :
    ∃ violation, value.quantity code = .error violation := by
  -- What is not a number is refused by its value or by its kind.
  rcases incomparable with rfl | other
  · exact ⟨_, rfl⟩
  · exact ⟨_, quantity_of_foreign something other code⟩

end Value

namespace Rule

/-- A bound passes on what is a violation before any comparison. -/
theorem check_bounded_of_error {code words : String} {bound : Decimal} {breaks : Quantity → Bool}
    {store : Store} {value : Value} {violation : Violation}
    (refused : value.quantity code = .error violation) :
    (bounded code words bound breaks).check store value = some violation := by
  -- A refusal is passed on as it is.
  simp [bounded, refused]

/-- A bound accepts nothing that is a violation before any comparison. -/
theorem not_accepts_of_violation {code words : String} {bound : Decimal} {breaks : Quantity → Bool}
    {store : Store} {value : Value} {violation : Violation}
    (refused : value.quantity code = .error violation) :
    ¬ (bounded code words bound breaks).Accepts store value := by
  -- A refusal is a violation.
  rw [Accepts, check_bounded_of_error refused]
  exact Option.some_ne_none violation

variable {value : Value} (store : Store)

/-- Of a lower and an upper bound of one number, each number is accepted by one at least. -/
theorem accepts_either (numeric : value.isNumeric = true) (comparable : value ≠ .float .nan)
    (bound : Decimal) :
    (Rule.min bound).Accepts store value ∨ (Rule.max bound).Accepts store value := by
  -- If the number is below the bound, it is not above it.
  obtain ⟨quantity, placed, measured⟩ := value.exists_ordered numeric comparable
  rw [Rule.min, Rule.max, accepts_bounded_iff (measured "min"),
    accepts_bounded_iff (measured "max")]
  cases below : quantity.isBelow bound with
  | false => exact .inl rfl
  | true => exact .inr (placed.oneSide bound below)

/-- What is not a number is rejected by both bounds, unless it is null. -/
theorem accepts_neither (something : value ≠ .null)
    (incomparable : value = .float .nan ∨ value.isNumeric = false) (bound : Decimal) :
    ¬ (Rule.min bound).Accepts store value ∧ ¬ (Rule.max bound).Accepts store value := by
  -- Both rules measure the value first, and both are refused.
  obtain ⟨low, lowRefused⟩ := value.exists_violation something incomparable "min"
  obtain ⟨high, highRefused⟩ := value.exists_violation something incomparable "max"
  exact ⟨not_accepts_of_violation lowRefused, not_accepts_of_violation highRefused⟩

variable {store}

/-- What both bounds reject is not a number. -/
theorem incomparable_of_accepts_neither {bound : Decimal}
    (both : ¬ (Rule.min bound).Accepts store value ∧ ¬ (Rule.max bound).Accepts store value) :
    value = .float .nan ∨ value.isNumeric = false := by
  by_contra number
  rw [not_or, Bool.not_eq_false] at number
  -- A number would be accepted by one of the two.
  rcases accepts_either store number.2 number.1 bound with low | high
  · exact both.1 low
  · exact both.2 high

/-- Bounds are thresholds on all numbers, in and beyond the range of decimals. -/
theorem bounds_are_thresholds (value : Value) (store : Store) :
    (value.isNumeric = true → value ≠ .float .nan →
      -- Moving a bound outwards rejects nothing more.
      (∀ lower upper : Decimal, lower.value ≤ upper.value →
        ((Rule.min upper).Accepts store value → (Rule.min lower).Accepts store value) ∧
        ((Rule.max lower).Accepts store value → (Rule.max upper).Accepts store value)) ∧
      -- Each number is accepted on one side at least.
      ∀ bound, (Rule.min bound).Accepts store value ∨ (Rule.max bound).Accepts store value) ∧
    (value ≠ .null →
      -- Both sides reject exactly what is not a number, and then whatever the bound.
      ((∃ bound, ¬ (Rule.min bound).Accepts store value ∧ ¬ (Rule.max bound).Accepts store value) ↔
        (value = .float .nan ∨ value.isNumeric = false)) ∧
      ((∀ bound, ¬ (Rule.min bound).Accepts store value ∧ ¬ (Rule.max bound).Accepts store value) ↔
        (value = .float .nan ∨ value.isNumeric = false))) := by
  constructor
  · intro numeric comparable
    refine ⟨?_, accepts_either store numeric comparable⟩
    intro lower upper ordered
    obtain ⟨quantity, placed, measured⟩ := value.exists_ordered numeric comparable
    simp only [Rule.min, Rule.max, accepts_bounded_iff (measured "min"),
      accepts_bounded_iff (measured "max"), ← Bool.not_eq_true]
    -- What breaks the one bound breaks the other.
    exact ⟨mt (placed.below lower upper ordered), mt (placed.above lower upper ordered)⟩
  · intro something
    -- Any bound will do, so zero is taken.
    let zero : Decimal := ⟨false, 0, 0, by decide, by decide⟩
    constructor
    · constructor
      · intro rejected
        obtain ⟨bound, both⟩ := rejected
        exact incomparable_of_accepts_neither both
      · intro incomparable
        exact ⟨zero, accepts_neither store something incomparable zero⟩
    · constructor
      · intro rejected
        exact incomparable_of_accepts_neither (rejected zero)
      · exact accepts_neither store something

/-- The limit of the range is accepted by the greatest lower bound, and so by one. -/
theorem bounds_are_thresholds_atLimit :
    let one : Decimal := ⟨false, 1, 0, by decide, by decide⟩
    let greatest : Decimal := ⟨false, Nat.pow 2 96 - 1, 0, by decide, by decide⟩
    Double.atLimit.decimal? = none ∧ one.value ≤ greatest.value ∧
      (Rule.min greatest).Accepts .empty (.float Double.atLimit) ∧
      (Rule.min one).Accepts .empty (.float Double.atLimit) ∧
      ¬ (Rule.max greatest).Accepts .empty (.float .nan) := by
  -- The greatest bound is rounded to the limit and accepts it, and one is smaller.
  intro one greatest
  have ordered : one.value ≤ greatest.value := by
    norm_num [one, greatest, Decimal.value, Decimal.absolute, signed]
  have accepted : (Rule.min greatest).Accepts .empty (.float Double.atLimit) := by
    unfold Accepts
    decide +kernel
  have thresholds := (bounds_are_thresholds (.float Double.atLimit) .empty).1 rfl (by decide)
  have others := (bounds_are_thresholds (.float .nan) .empty).2 (by decide)
  refine ⟨by decide, ordered, accepted, (thresholds.1 one greatest ordered).1 accepted, ?_⟩
  exact (others.2.mpr (.inl rfl) greatest).2

end Rule

end GraphRules
