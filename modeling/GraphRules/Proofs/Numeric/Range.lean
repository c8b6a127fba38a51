import GraphRules.Proofs.Numeric.Value

/-! Which binary numbers have a decimal form: those whose magnitude stays below `2 ^ 96`. -/

namespace GraphRules

namespace Decimal

/-- The first number beyond the range of decimals. -/
def limit : ℚ := 2 ^ 96

/-- A decimal is below the limit. -/
theorem absolute_lt_limit (x : Decimal) : x.absolute < limit := by
  -- The mantissa is below the limit, and places only make the number smaller.
  have bounded : (x.mantissa : ℚ) < limit := by
    have below := x.mantissa_lt
    rw [Nat.pow_eq] at below
    rw [limit]
    exact_mod_cast below
  have places : (1 : ℚ) ≤ 10 ^ x.scale := one_le_pow₀ (by norm_num)
  exact (div_le_self (by positivity) places).trans_lt bounded

/-- A decimal lies between the limits. -/
theorem value_within (x : Decimal) : -limit < x.value ∧ x.value < limit :=
  abs_lt.mp (x.abs_value ▸ x.absolute_lt_limit)

end Decimal

namespace FiniteDouble

/-! ### Steps that stay in range -/

/-- A binary fraction is written with a mantissa of no more than 96 bits. -/
theorem decimalFraction_within (steps mantissa places : Nat) (bounded : mantissa < Nat.pow 2 96) :
    (decimalFraction steps mantissa places).1 < Nat.pow 2 96 := by
  induction steps generalizing mantissa places with
  | zero => exact bounded
  | succ steps later =>
    have halved : mantissa / 2 < Nat.pow 2 96 := Nat.lt_of_le_of_lt (Nat.div_le_self _ _) bounded
    rw [decimalFraction]
    -- A step halves the mantissa, or it takes five times the mantissa where that fits.
    split
    · exact later _ _ halved
    · split
      · next fits => exact later _ _ fits
      · exact later _ _ halved

/-- A tenth, rounded a half up, is no greater than what it is taken of. -/
theorem tenth_le (mantissa : Nat) :
    (if 5 ≤ mantissa % 10 then mantissa / 10 + 1 else mantissa / 10) ≤ mantissa := by
  -- A digit is dropped, and at most one is carried for it.
  split <;> omega

/-- Steps that take places off without making the mantissa greater stay within bounds. -/
theorem le_of_steps {drop : Nat → Nat → Nat × Nat} {bound : Nat → Nat} (grows : Monotone bound)
    (done : ∀ mantissa, drop 0 mantissa ≤ (mantissa, bound 0))
    (step : ∀ count mantissa, drop (count + 1) mantissa ≤ (mantissa, bound (count + 1)) ∨
      ∃ smaller ≤ mantissa, drop (count + 1) mantissa = drop count smaller)
    (count mantissa : Nat) : drop count mantissa ≤ (mantissa, bound count) := by
  -- A step is the last one, or it leaves one step less to a mantissa that is no greater.
  induction count generalizing mantissa with
  | zero => exact done mantissa
  | succ count later =>
    rcases step count mantissa with stops | ⟨smaller, shrinks, goes⟩
    · exact stops
    · rw [goes]
      exact (later smaller).trans ⟨shrinks, grows (Nat.le_succ count)⟩

/-- Surplus places are taken off one by one, or all at once, and the mantissa does not grow. -/
theorem dropPlaces_within (surplus mantissa kept : Nat) :
    dropPlaces surplus mantissa (kept + surplus) ≤ (mantissa, kept) := by
  let drop (surplus mantissa : Nat) := dropPlaces surplus mantissa (kept + surplus)
  refine @le_of_steps drop (fun _ => kept) monotone_const (fun _ => le_rfl) ?_ surplus mantissa
  intro surplus mantissa
  simp only [drop, dropPlaces]
  -- All places go at once where nothing would be left of the mantissa.
  split
  · exact .inl ⟨Nat.zero_le _, Nat.zero_le _⟩
  · exact .inr ⟨_, tenth_le mantissa, rfl⟩

/-- Places that a binary number does not carry are taken off, and the mantissa does not grow. -/
theorem dropDigits_within (places mantissa : Nat) :
    dropDigits places mantissa ≤ (mantissa, places) := by
  -- Each step drops a digit and a place, or stops.
  refine le_of_steps monotone_id (fun _ => le_rfl) (fun places mantissa => ?_) places mantissa
  rw [dropDigits]
  split
  · exact .inl le_rfl
  · exact .inr ⟨_, tenth_le mantissa, rfl⟩

/-- Places that hold a zero are taken off, and the mantissa does not grow. -/
theorem dropZeros_within (places mantissa : Nat) :
    dropZeros places mantissa ≤ (mantissa, places) := by
  -- Each step divides by ten and drops a place, or stops.
  refine le_of_steps monotone_id (fun _ => le_rfl) (fun places mantissa => ?_) places mantissa
  rw [dropZeros]
  split
  · exact .inr ⟨_, Nat.div_le_self mantissa 10, rfl⟩
  · exact .inl le_rfl

/-! ### The numbers in range -/

/-- Parts make no decimal exactly when they are out of range. -/
theorem make?_eq_none {negative : Bool} {mantissa scale : Nat} :
    Decimal.make? negative mantissa scale = none ↔ ¬(mantissa < Nat.pow 2 96 ∧ scale ≤ 28) := by
  -- A decimal is made exactly within both bounds.
  unfold Decimal.make?
  split
  · next bounded => exact iff_of_false nofun (not_not_intro bounded)
  · next unbounded => exact iff_of_true rfl unbounded

/-- A binary fraction always has a decimal form. -/
theorem decimal?_of_fraction {x : FiniteDouble} (fraction : x.exponent < 0) :
    x.decimal? ≠ none := by
  have bits : x.significand < Nat.pow 2 96 := Nat.lt_trans x.canonical.1 (by decide)
  unfold decimal?
  split
  · rw [Ne, make?_eq_none]
    exact not_not_intro (by decide)
  · rw [if_neg (Int.not_le.mpr fraction)]
    -- Each of the four steps stays in the range that the one before has left.
    let written := decimalFraction (-x.exponent).toNat x.significand (-x.exponent).toNat
    let placed := dropPlaces (written.2 - 28) written.1 written.2
    let carried := dropDigits placed.2 placed.1
    let trimmed := dropZeros carried.2 carried.1
    have first : written.1 < Nat.pow 2 96 := decimalFraction_within _ _ _ bits
    have second : placed ≤ (written.1, min written.2 28) := by
      have within := dropPlaces_within (written.2 - 28) written.1 (min written.2 28)
      rwa [show min written.2 28 + (written.2 - 28) = written.2 by omega] at within
    have third : carried ≤ placed := dropDigits_within _ _
    have fourth : trimmed ≤ carried := dropZeros_within _ _
    have within : trimmed ≤ (written.1, min written.2 28) := fourth.trans (third.trans second)
    -- So the mantissa stays below its bound, and the places below theirs.
    have bounded : trimmed.1 < Nat.pow 2 96 ∧ trimmed.2 ≤ 28 :=
      ⟨Nat.lt_of_le_of_lt within.1 first, within.2.trans (Nat.min_le_right _ _)⟩
    exact fun none => make?_eq_none.mp none bounded

/-- A whole binary number has a decimal form exactly when it is in range. -/
theorem decimal?_of_whole {x : FiniteDouble} (whole : 0 ≤ x.exponent) :
    x.decimal? = none ↔ Nat.pow 2 96 ≤ x.significand * Nat.pow 2 x.exponent.toNat := by
  -- A whole number has no places, so only the mantissa could be too great; zero is none.
  unfold decimal?
  split
  · next zero =>
    have nothing : x.significand = 0 := beq_iff_eq.mp zero
    rw [nothing, Nat.zero_mul, make?_eq_none]
    exact iff_of_false (not_not_intro (by decide)) (by decide)
  · rw [make?_eq_none]
    omega

/-- A finite binary number has no decimal form exactly when it is beyond the range of decimals. -/
theorem decimal?_eq_none {x : FiniteDouble} : x.decimal? = none ↔ Decimal.limit ≤ x.absolute := by
  -- A fraction is always in range, and a whole number is taken over as the mantissa.
  rcases Int.lt_or_le x.exponent 0 with fraction | whole
  · refine iff_of_false (decimal?_of_fraction fraction) (not_le.mpr ?_)
    -- A fraction is below its significand.
    have bits : (x.significand : ℚ) < 2 ^ 53 := by exact_mod_cast x.canonical.1
    have power : (2 : ℚ) ^ x.exponent ≤ 1 := zpow_le_one_of_nonpos₀ (by norm_num) fraction.le
    calc x.absolute ≤ x.significand * 1 := mul_le_mul_of_nonneg_left power (by positivity)
      _ < 2 ^ 53 := by rwa [mul_one]
      _ ≤ Decimal.limit := by norm_num [Decimal.limit]
  · have counted : x.absolute = ((x.significand * Nat.pow 2 x.exponent.toNat : ℕ) : ℚ) := by
      push_cast [Nat.pow_eq]
      rw [absolute, ← zpow_natCast, Int.toNat_of_nonneg whole]
    have bound : Decimal.limit = ((Nat.pow 2 96 : ℕ) : ℚ) := by
      push_cast [Nat.pow_eq]
      rfl
    rw [decimal?_of_whole whole, counted, bound]
    exact Nat.cast_le.symm

end FiniteDouble

namespace Double

/-- A number has no decimal form exactly when it is beyond the range, on either side. -/
theorem decimal?_eq_none {x : Double} {number : ExtendedRat} (stands : x.value? = some number) :
    x.decimal? = none ↔
      number ≤ extend (-Decimal.limit) ∨ extend Decimal.limit ≤ number := by
  -- The infinities stand beyond both limits, and finite numbers are told by their magnitude.
  cases x with
  | nan => cases stands
  | infinite negative =>
    cases negative with
    | true => cases stands; exact iff_of_true rfl (.inl bot_le)
    | false => cases stands; exact iff_of_true rfl (.inr le_top)
  | finite x =>
    obtain rfl := Option.some.inj stands
    rw [decimal?, FiniteDouble.decimal?_eq_none, ← x.abs_value, extend_le_extend, extend_le_extend]
    exact le_abs'

end Double

end GraphRules
