import GraphRules.Proofs.Numeric.Value
import Mathlib.Tactic.Linarith
import Mathlib.Tactic.Ring

/-! Rounding of quotients to binary numbers, through the greatest power of two below them. -/

namespace GraphRules

/-! ### Quotients -/

/-- Scaling a quotient multiplies it by the power. -/
theorem scaleRatio_eq {base : Nat} (positive : 0 < base) (numerator denominator : Nat)
    (power : Int) :
    ((scaleRatio base numerator denominator power).1 : ℚ) /
        (scaleRatio base numerator denominator power).2 =
      numerator / denominator * (base : ℚ) ^ power := by
  have nonzero : (base : ℚ) ≠ 0 := by positivity
  have split : power = power.toNat - (-power).toNat := by omega
  -- One of the two parts of the power is trivial.
  have divided : (base : ℚ) ^ power = base ^ power.toNat / base ^ (-power).toNat := by
    conv_lhs => rw [split]
    rw [zpow_sub₀ nonzero, zpow_natCast, zpow_natCast]
  rw [scaleRatio, divided]
  push_cast [Nat.pow_eq]
  exact mul_div_mul_comm _ _ _ _

/-- A scaled quotient has a denominator if the quotient has. -/
theorem scaleRatio_denominator_pos {base : Nat} (positive : 0 < base) (numerator : Nat)
    {denominator : Nat} (divides : 0 < denominator) (power : Int) :
    0 < (scaleRatio base numerator denominator power).2 :=
  Nat.mul_pos divides (Nat.pow_pos positive)

/-- A quotient lies between the powers of two that the logarithms of its parts give. -/
theorem log2_bounds {numerator denominator : Nat} (positive : 0 < numerator)
    (divides : 0 < denominator) :
    (2 : ℚ) ^ ((numerator.log2 : Int) - denominator.log2 - 1) < numerator / denominator ∧
      (numerator : ℚ) / denominator < 2 ^ ((numerator.log2 : Int) - denominator.log2 + 1) := by
  -- Each number is between two powers of two, and dividing subtracts their exponents.
  have reached : ∀ number : Nat, 0 < number → (2 : ℚ) ^ (number.log2 : Int) ≤ number := by
    intro number some
    rw [zpow_natCast]
    exact_mod_cast Nat.log2_self_le some.ne'
  have unreached : ∀ number : Nat, (number : ℚ) < 2 ^ ((number.log2 : Int) + 1) := by
    intro number
    exact_mod_cast Nat.lt_log2_self
  have positive' : (0 : ℚ) < denominator := by exact_mod_cast divides
  have powers : ∀ power : Int, (0 : ℚ) < 2 ^ power := fun power => zpow_pos two_pos power
  -- The lower bound takes the least numerator and the greatest denominator, the upper the reverse.
  constructor
  · rw [show (numerator.log2 : Int) - denominator.log2 - 1 =
        numerator.log2 - (denominator.log2 + 1) by omega, zpow_sub₀ two_ne_zero]
    exact div_lt_div₀' (reached numerator positive) (unreached denominator)
      (by exact_mod_cast positive)
      positive'
  · rw [show (numerator.log2 : Int) - denominator.log2 + 1 =
        numerator.log2 + 1 - denominator.log2 by omega, zpow_sub₀ two_ne_zero]
    exact div_lt_div₀ (unreached numerator) (reached denominator divides) (powers _).le (powers _)

/-- The order of a quotient is that of the greatest power of two that it reaches. -/
theorem binaryOrder_spec {numerator denominator : Nat} (positive : 0 < numerator)
    (divides : 0 < denominator) :
    (2 : ℚ) ^ binaryOrder numerator denominator ≤ numerator / denominator ∧
      (numerator : ℚ) / denominator < 2 ^ (binaryOrder numerator denominator + 1) := by
  obtain ⟨lower, upper⟩ := log2_bounds positive divides
  -- The two powers between them leave one undecided, which is compared.
  have compared : ∀ guess : Int,
      (scaleRatio 2 numerator denominator (-guess)).2 ≤
      (scaleRatio 2 numerator denominator (-guess)).1 ↔
        (2 : ℚ) ^ guess ≤ numerator / denominator := by
    intro guess
    have scaled := scaleRatio_eq two_pos numerator denominator (-guess)
    have divides' : (0 : ℚ) < (scaleRatio 2 numerator denominator (-guess)).2 := by
      exact_mod_cast scaleRatio_denominator_pos two_pos numerator divides (-guess)
    rw [← Nat.cast_le (α := ℚ), ← one_le_div divides', scaled, Nat.cast_ofNat, zpow_neg,
      ← div_eq_mul_inv, one_le_div (zpow_pos two_pos guess)]
  unfold binaryOrder
  simp only [compared]
  -- If the greater power is not reached, the order is one less.
  split_ifs with reached
  · exact ⟨reached, upper⟩
  · rw [sub_add_cancel]
    exact ⟨lower.le, not_le.mp reached⟩

/-! ### Rounded quotients -/

/-- A quotient is a whole number and a fraction below one. -/
theorem div_eq_floor_add (numerator : Nat) {denominator : Nat} (divides : 0 < denominator) :
    (numerator : ℚ) / denominator =
      (numerator / denominator : ℕ) + (numerator % denominator : ℕ) / (denominator : ℚ) := by
  -- The division with remainder is divided once more.
  have parts : (denominator : ℚ) * (numerator / denominator : ℕ) + (numerator % denominator : ℕ) =
      numerator := by exact_mod_cast Nat.div_add_mod numerator denominator
  field_simp
  exact parts.symm

/-- A remainder below half of the denominator is a fraction below one half. -/
theorem fraction_lt_half_iff {remainder denominator : Nat} (divides : 0 < denominator) :
    2 * remainder < denominator ↔ (remainder : ℚ) / denominator < 1 / 2 := by
  -- Both sides are cleared of their denominators.
  rw [div_lt_div_iff₀ (by exact_mod_cast divides) two_pos, one_mul, mul_comm]
  exact_mod_cast Iff.rfl

/-- A remainder above half of the denominator is a fraction above one half. -/
theorem half_lt_fraction_iff {remainder denominator : Nat} (divides : 0 < denominator) :
    denominator < 2 * remainder ↔ 1 / 2 < (remainder : ℚ) / denominator := by
  -- Both sides are cleared of their denominators.
  rw [div_lt_div_iff₀ two_pos (by exact_mod_cast divides), one_mul, mul_comm _ (2 : ℚ)]
  exact_mod_cast Iff.rfl

/-- A rounded quotient is at most a half away, and a half away only if it is even. -/
theorem roundDiv_nearest (numerator : Nat) {denominator : Nat} (divides : 0 < denominator) :
    |(roundDiv numerator denominator : ℚ) - numerator / denominator| ≤ 1 / 2 ∧
      (|(roundDiv numerator denominator : ℚ) - numerator / denominator| = 1 / 2 →
        roundDiv numerator denominator % 2 = 0) := by
  have small : ((numerator % denominator : ℕ) : ℚ) / denominator < 1 := by
    rw [div_lt_one (by exact_mod_cast divides)]
    exact_mod_cast Nat.mod_lt numerator divides
  have nonneg : (0 : ℚ) ≤ ((numerator % denominator : ℕ) : ℚ) / denominator := by positivity
  -- Only the floor and the fraction matter.
  rw [div_eq_floor_add numerator divides]
  unfold roundDiv
  simp only [fraction_lt_half_iff divides, half_lt_fraction_iff divides]
  generalize ((numerator % denominator : ℕ) : ℚ) / denominator = fraction at small nonneg
  generalize numerator / denominator = floor
  -- The distance is the fraction itself below, and what it lacks to one above.
  have down : |(floor : ℚ) - (floor + fraction)| = fraction := by
    rw [sub_add_cancel_left, abs_neg, abs_of_nonneg nonneg]
  have up : |((floor + 1 : ℕ) : ℚ) - (floor + fraction)| = 1 - fraction := by
    push_cast
    rw [add_sub_add_left_eq_sub, abs_of_pos (sub_pos.mpr small)]
  -- Down, up, and at a half to the even one of the two.
  split_ifs with below above even
  · rw [down]
    exact ⟨below.le, fun half => absurd half below.ne⟩
  · rw [up]
    exact ⟨by linarith, fun half => by linarith⟩
  · rw [down]
    exact ⟨not_lt.mp above, fun _ => even⟩
  · rw [up]
    exact ⟨by linarith, fun _ => by omega⟩

variable {numerator denominator bound : Nat}

/-- A rounded quotient reaches what the quotient reaches. -/
theorem le_roundDiv (divides : 0 < denominator) (reached : (bound : ℚ) ≤ numerator / denominator) :
    bound ≤ roundDiv numerator denominator := by
  -- A rounded quotient one below the bound would be more than a half away.
  obtain ⟨near, _⟩ := roundDiv_nearest numerator divides
  by_contra short
  have lower : (roundDiv numerator denominator : ℚ) + 1 ≤ bound := by
    exact_mod_cast Nat.lt_of_not_le short
  linarith [(abs_le.mp near).1]

/-- A rounded quotient does not pass what the quotient does not pass. -/
theorem roundDiv_le (divides : 0 < denominator) (unpassed : (numerator : ℚ) / denominator ≤ bound) :
    roundDiv numerator denominator ≤ bound := by
  -- A rounded quotient one above the bound would be more than a half away.
  obtain ⟨near, _⟩ := roundDiv_nearest numerator divides
  by_contra beyond
  have higher : (bound : ℚ) + 1 ≤ roundDiv numerator denominator := by
    exact_mod_cast Nat.lt_of_not_le beyond
  linarith [(abs_le.mp near).2]

/-- A rounded quotient reaches an even number from a half below it. -/
theorem le_roundDiv_of_even (divides : 0 < denominator) (even : bound % 2 = 0) :
    bound ≤ roundDiv numerator denominator ↔ (bound : ℚ) - 1 / 2 ≤ numerator / denominator := by
  obtain ⟨near, tie⟩ := roundDiv_nearest numerator divides
  constructor
  · intro reached
    -- The rounded quotient is no more than a half away.
    have lower : (bound : ℚ) ≤ roundDiv numerator denominator := by exact_mod_cast reached
    linarith [(abs_le.mp near).2]
  · intro half
    by_contra short
    have lower : (roundDiv numerator denominator : ℚ) + 1 ≤ bound := by
      exact_mod_cast Nat.lt_of_not_le short
    -- The quotient is halfway between an odd number and the bound, and does not go down.
    have halfway : (roundDiv numerator denominator : ℚ) - numerator / denominator = -(1 / 2) :=
      le_antisymm (by linarith) (abs_le.mp near).1
    have odd := tie (by rw [halfway, abs_neg, abs_of_pos (by norm_num)])
    have next : (roundDiv numerator denominator : ℚ) + 1 = bound := by linarith
    have next' : roundDiv numerator denominator + 1 = bound := by exact_mod_cast next
    omega

/-! ### Rounded numbers -/

namespace Double

/-- The exponent at which a quotient is rounded. -/
def exponentFor (numerator denominator : Nat) : Int :=
  max (binaryOrder numerator denominator - 52) (-1074)

/-- The significand that a quotient is rounded to, before any carry. -/
def significandFor (numerator denominator : Nat) : Nat :=
  let scaled := scaleRatio 2 numerator denominator (-exponentFor numerator denominator)
  roundDiv scaled.1 scaled.2

/-- A quotient below a power of two is rounded no more than 53 places below it. -/
theorem exponentFor_le {power : Int} (positive : 0 < numerator) (divides : 0 < denominator)
    (normal : -1021 ≤ power) (below : (numerator : ℚ) / denominator < 2 ^ power) :
    exponentFor numerator denominator ≤ power - 53 := by
  -- The order is less than the power, since the quotient reaches the power of its order.
  have reached := (binaryOrder_spec positive divides).1
  have order : binaryOrder numerator denominator < power :=
    (zpow_lt_zpow_iff_right₀ one_lt_two).mp (reached.trans_lt below)
  unfold exponentFor
  omega

/-- A quotient that reaches a power of two is rounded no less than 52 places below it. -/
theorem le_exponentFor {power : Int} (positive : 0 < numerator) (divides : 0 < denominator)
    (reaches : (2 : ℚ) ^ power ≤ numerator / denominator) :
    power - 52 ≤ exponentFor numerator denominator := by
  -- The order is no less than the power, since the quotient is below the next one.
  have unreached := (binaryOrder_spec positive divides).2
  have order : power < binaryOrder numerator denominator + 1 :=
    (zpow_lt_zpow_iff_right₀ one_lt_two).mp (reaches.trans_lt unreached)
  unfold exponentFor
  omega

/-- The quotient that is rounded to a significand. -/
theorem scaled_eq (numerator denominator : Nat) :
    let scaled := scaleRatio 2 numerator denominator (-exponentFor numerator denominator)
    (scaled.1 : ℚ) / scaled.2 =
      numerator / denominator / 2 ^ exponentFor numerator denominator := by
  -- Scaling by the negative exponent divides by the power of two.
  intro scaled
  rw [scaleRatio_eq two_pos, Nat.cast_ofNat, zpow_neg, ← div_eq_mul_inv]

/-- A significand has 53 bits, or it is the carry into the next. -/
theorem significandFor_le (positive : 0 < numerator) (divides : 0 < denominator) :
    significandFor numerator denominator ≤ 2 ^ 53 := by
  -- The quotient is below the power after its order, and the exponent leaves 53 bits of it.
  refine roundDiv_le (scaleRatio_denominator_pos two_pos numerator divides _) ?_
  rw [scaled_eq, div_le_iff₀ (zpow_pos two_pos _)]
  have order := (binaryOrder_spec positive divides).2
  have exponent : binaryOrder numerator denominator + 1 ≤
      53 + exponentFor numerator denominator := by
    unfold exponentFor
    omega
  calc (numerator : ℚ) / denominator ≤ 2 ^ (binaryOrder numerator denominator + 1) := order.le
    _ ≤ 2 ^ (53 + exponentFor numerator denominator) := zpow_le_zpow_right₀ one_le_two exponent
    _ = _ := by
      rw [zpow_add₀ two_ne_zero]
      norm_num

/-- A significand has 53 bits unless the exponent is the least. -/
theorem le_significandFor (positive : 0 < numerator) (divides : 0 < denominator)
    (normal : exponentFor numerator denominator ≠ -1074) :
    2 ^ 52 ≤ significandFor numerator denominator := by
  -- Where the exponent is not the least, it leaves exactly 53 bits of the order.
  refine le_roundDiv (scaleRatio_denominator_pos two_pos numerator divides _) ?_
  rw [scaled_eq, le_div_iff₀ (zpow_pos two_pos _)]
  have order := (binaryOrder_spec positive divides).1
  have exponent : 52 + exponentFor numerator denominator = binaryOrder numerator denominator := by
    unfold exponentFor at normal ⊢
    omega
  calc ((2 ^ 52 : ℕ) : ℚ) * 2 ^ exponentFor numerator denominator
      = 2 ^ (52 + exponentFor numerator denominator) := by
        rw [zpow_add₀ two_ne_zero]
        norm_num
    _ ≤ numerator / denominator := by rwa [exponent]

/-- A quotient is rounded to its significand and exponent, and a carry moves the exponent. -/
theorem ofRatio_eq (negative : Bool) (positive : 0 < numerator) :
    ofRatio negative numerator denominator =
      if significandFor numerator denominator = Nat.pow 2 53 then
        ofParts negative (Nat.pow 2 52) (exponentFor numerator denominator + 1)
      else ofParts negative (significandFor numerator denominator)
        (exponentFor numerator denominator) := by
  -- A positive quotient has a significand, which may carry to one more bit.
  rw [ofRatio, if_neg positive.ne']
  rfl

/-- A quotient below the range of the infinities is rounded to its significand at its exponent. -/
theorem ofRatio_finite (negative : Bool) (positive : 0 < numerator) (divides : 0 < denominator)
    (within : (numerator : ℚ) / denominator < 2 ^ (1023 : Int)) :
    ∃ x : FiniteDouble, ofRatio negative numerator denominator = .finite x ∧ x.negative = negative ∧
      x.absolute =
        significandFor numerator denominator * 2 ^ exponentFor numerator denominator := by
  -- The exponent is in range on both sides.
  have high : exponentFor numerator denominator ≤ 1023 - 53 :=
    exponentFor_le positive divides (by decide) within
  have low : -1074 ≤ exponentFor numerator denominator := le_max_right _ _
  rw [ofRatio_eq negative positive]
  split_ifs with carried
  · -- One bit more and one exponent less is the same number.
    have canonical : CanonicalParts (Nat.pow 2 52) (exponentFor numerator denominator + 1) :=
      ⟨by decide, by omega, by omega, .inl le_rfl⟩
    refine ⟨⟨negative, _, _, canonical⟩, dif_pos canonical, rfl, ?_⟩
    rw [FiniteDouble.absolute, carried, zpow_add_one₀ two_ne_zero]
    push_cast [Nat.pow_eq]
    ring
  · have bits : significandFor numerator denominator < Nat.pow 2 53 :=
      lt_of_le_of_ne (significandFor_le positive divides) carried
    have canonical : CanonicalParts (significandFor numerator denominator)
        (exponentFor numerator denominator) := by
      refine ⟨bits, low, by omega, ?_⟩
      by_cases least : exponentFor numerator denominator = -1074
      · exact .inr least
      · exact .inl (le_significandFor positive divides least)
    exact ⟨⟨negative, _, _, canonical⟩, dif_pos canonical, rfl, rfl⟩

/-- A significand carries exactly from half a last place below the next power of two. -/
theorem carried_iff (divides : 0 < denominator) :
    2 ^ 53 ≤ significandFor numerator denominator ↔
      (2 ^ 53 - 1 / 2 : ℚ) * 2 ^ exponentFor numerator denominator ≤ numerator / denominator := by
  -- The bound is even, so a half rounds up to it.
  have denominator' := scaleRatio_denominator_pos two_pos numerator divides
    (-exponentFor numerator denominator)
  rw [significandFor, le_roundDiv_of_even denominator' (by decide), scaled_eq,
    le_div_iff₀ (zpow_pos two_pos _), Nat.cast_pow, Nat.cast_ofNat]

/-- Half a last place below a power of two, in units of the last place. -/
theorem power_sub_half (power : Int) :
    (2 : ℚ) ^ power = 2 ^ 53 * 2 ^ (power - 53) ∧
      (2 : ℚ) ^ power - 2 ^ (power - 54) = (2 ^ 53 - 1 / 2) * 2 ^ (power - 53) := by
  -- Both powers are written over the last place.
  have places : (2 : ℚ) ^ power = 2 ^ 54 * 2 ^ (power - 54) := by
    rw [← zpow_natCast, ← zpow_add₀ two_ne_zero]
    congr 1
    omega
  have last : (2 : ℚ) ^ (power - 53) = 2 ^ (power - 54) * 2 := by
    rw [← zpow_add_one₀ two_ne_zero]
    congr 1
    omega
  rw [last, places]
  exact ⟨by ring, by ring⟩

/-- A quotient below a power of two is rounded up to it from half a last place below it. -/
theorem rounded_at_power {power : Int} (positive : 0 < numerator) (divides : 0 < denominator)
    (normal : -1021 ≤ power) (below : (numerator : ℚ) / denominator < 2 ^ power) :
    let rounded :=
      (significandFor numerator denominator : ℚ) * 2 ^ exponentFor numerator denominator
    rounded ≤ 2 ^ power ∧
      (2 ^ power ≤ rounded ↔ (2 : ℚ) ^ power - 2 ^ (power - 54) ≤ numerator / denominator) := by
  intro rounded
  obtain ⟨top, half⟩ := power_sub_half power
  have small := exponentFor_le positive divides normal below
  have last : (0 : ℚ) < 2 ^ (power - 53) := zpow_pos two_pos _
  have bits : (significandFor numerator denominator : ℚ) ≤ 2 ^ 53 := by
    exact_mod_cast significandFor_le positive divides
  -- With 53 bits, the exponent bounds the rounded quotient.
  have bounded : ∀ exponent, exponentFor numerator denominator ≤ exponent →
      rounded ≤ 2 ^ 53 * 2 ^ exponent := by
    intro exponent smaller
    exact mul_le_mul bits (zpow_le_zpow_right₀ one_le_two smaller) (by positivity) (by positivity)
  -- The power is reached exactly by a carry at the exponent just below it.
  refine ⟨top ▸ bounded _ small, ?_, ?_⟩
  · intro full
    have exponent : exponentFor numerator denominator = power - 53 := by
      by_contra other
      -- With a smaller exponent, even a carry would only reach half of the power.
      have smaller := bounded (power - 53 - 1) (by omega)
      rw [zpow_sub_one₀ two_ne_zero] at smaller
      linarith
    have carried : (2 : ℚ) ^ 53 ≤ significandFor numerator denominator := by
      refine le_of_mul_le_mul_right ?_ last
      rw [← top, ← exponent]
      exact full
    rw [half, ← exponent]
    exact (carried_iff divides).mp (by exact_mod_cast carried)
  · intro near
    -- So near to the power, the quotient has the exponent below it, and is carried.
    have reaches : (2 : ℚ) ^ (power - 1) ≤ numerator / denominator := by
      refine le_trans ?_ near
      rw [half, zpow_sub_one₀ two_ne_zero, top]
      linarith
    have large := le_exponentFor positive divides reaches
    have exponent : exponentFor numerator denominator = power - 53 := by omega
    have carried := (carried_iff divides).mpr (by rwa [exponent, ← half])
    have carried' : (2 : ℚ) ^ 53 ≤ significandFor numerator denominator := by exact_mod_cast carried
    rw [top, ← exponent]
    exact mul_le_mul_of_nonneg_right carried' (zpow_pos two_pos _).le

end Double

end GraphRules
