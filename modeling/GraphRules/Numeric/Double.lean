import GraphRules.Numeric.Rounding

/-! Binary numbers of 53 significant bits, with infinities and a value that is not a number. -/

namespace GraphRules

/-- A significand and an exponent that are the one form of a finite number. -/
def CanonicalParts (significand : Nat) (exponent : Int) : Prop :=
  significand < Nat.pow 2 53 ∧ -1074 ≤ exponent ∧ exponent ≤ 971 ∧
    -- The significand has all of its bits unless the exponent is the least.
    (Nat.pow 2 52 ≤ significand ∨ exponent = -1074)

instance (significand : Nat) (exponent : Int) :
    Decidable (CanonicalParts significand exponent) := by
  unfold CanonicalParts
  infer_instance

/-- The finite number `± significand · 2 ^ exponent`. -/
structure FiniteDouble where
  negative : Bool
  significand : Nat
  exponent : Int
  canonical : CanonicalParts significand exponent
deriving DecidableEq

namespace FiniteDouble

/-- The zero of a given sign. -/
def zero (negative : Bool) : FiniteDouble := ⟨negative, 0, -1074, by decide⟩

def isZero (x : FiniteDouble) : Bool := x.significand == 0

/-- The magnitude as a count of the least positive number, `2 ^ -1074`. -/
def magnitude (x : FiniteDouble) : Nat := x.significand * Nat.pow 2 (x.exponent + 1074).toNat

/-- The number as a signed count of the least positive number. -/
def units (x : FiniteDouble) : Int := if x.negative then -(x.magnitude : Int) else x.magnitude

/-- The magnitude as a quotient. -/
def ratio (x : FiniteDouble) : Nat × Nat := scaleRatio 2 x.significand 1 x.exponent

end FiniteDouble

/-- A binary number: finite, infinite or not a number. -/
inductive Double
  | nan
  | infinite (negative : Bool)
  | finite (x : FiniteDouble)
deriving DecidableEq

namespace Double

/-- Numeric order, in which nothing is comparable to the value that is not a number. -/
def lt : Double → Double → Bool
  | .nan, _ => false
  | _, .nan => false
  | .infinite left, .infinite right => left && !right
  | .infinite left, .finite _ => left
  | .finite _, .infinite right => !right
  | .finite left, .finite right => left.units < right.units

/-- Numeric equality: both zeros are equal and the value that is not a number equals nothing. -/
def equal : Double → Double → Bool
  | .infinite left, .infinite right => left == right
  | .finite left, .finite right => left.units == right.units
  | _, _ => false

def isNaN : Double → Bool
  | .nan => true
  | _ => false

/-- The number with the given parts, or an infinity when their exponent is past the range. -/
def ofParts (negative : Bool) (significand : Nat) (exponent : Int) : Double :=
  if canonical : CanonicalParts significand exponent then
    .finite ⟨negative, significand, exponent, canonical⟩
  else .infinite negative

/-- The number nearest to a signed quotient, a half going to the even significand. -/
def ofRatio (negative : Bool) (numerator denominator : Nat) : Double :=
  if numerator = 0 then .finite (.zero negative)
  else
    -- The exponent leaves 53 bits before the point, or fewer at the bottom of the range.
    let exponent := max (binaryOrder numerator denominator - 52) (-1074)
    let (above, below) := scaleRatio 2 numerator denominator (-exponent)
    let significand := roundDiv above below
    -- Rounding up can carry into a 54th bit.
    if significand = Nat.pow 2 53 then ofParts negative (Nat.pow 2 52) (exponent + 1)
    else ofParts negative significand exponent

/-- The number nearest to an integer. -/
def ofInt (number : Int) : Double :=
  ofRatio (decide (number < 0)) number.natAbs 1

end Double

namespace FiniteDouble

/-- The rounded product. -/
def mul (left right : FiniteDouble) : Double :=
  .ofRatio (left.negative != right.negative) (left.ratio.1 * right.ratio.1)
    (left.ratio.2 * right.ratio.2)

/-- The rounded quotient by a number that is not zero. -/
def div (left right : FiniteDouble) : Double :=
  .ofRatio (left.negative != right.negative) (left.ratio.1 * right.ratio.2)
    (left.ratio.2 * right.ratio.1)

end FiniteDouble

end GraphRules
