import GraphRules.Numeric.Double

/-! Decimal numbers of 96 bits with up to 28 places, compared by their exact value. -/

namespace GraphRules

/-- The number `± mantissa / 10 ^ scale`, whose scale is part of the text but not of the value. -/
structure Decimal where
  negative : Bool
  mantissa : Nat
  scale : Nat
  mantissa_lt : mantissa < Nat.pow 2 96
  scale_le : scale ≤ 28
deriving DecidableEq

namespace Decimal

/-- A decimal from its parts, when they are in range. -/
def make? (negative : Bool) (mantissa scale : Nat) : Option Decimal :=
  if bounded : mantissa < Nat.pow 2 96 ∧ scale ≤ 28 then
    some ⟨negative, mantissa, scale, bounded.1, bounded.2⟩
  else none

/-- The value as a count of the finest step, `10 ^ -28`. -/
def units (x : Decimal) : Int :=
  let magnitude : Nat := x.mantissa * Nat.pow 10 (28 - x.scale)
  if x.negative then -(magnitude : Int) else magnitude

/-- Order of the values, whatever their scales. -/
def lt (left right : Decimal) : Bool := left.units < right.units

/-- Equality of the values, whatever their scales. -/
def equal (left right : Decimal) : Bool := left.units == right.units

/-- Every machine integer is a decimal without places. -/
def ofInt64 (number : Int64) : Decimal where
  negative := decide (number.toInt < 0)
  mantissa := number.toInt.natAbs
  scale := 0
  mantissa_lt := by
    have least := number.le_toInt
    have greatest := number.toInt_lt
    have room : Nat.pow 2 96 = 79228162514264337593543950336 := rfl
    omega
  scale_le := by decide

/-- The binary number nearest to a decimal. -/
def toDouble (x : Decimal) : Double :=
  .ofRatio x.negative x.mantissa (Nat.pow 10 x.scale)

end Decimal

/-! ### Decimals from binary numbers

A binary fraction is first written as a decimal fraction, dropping binary digits where the
mantissa would pass 96 bits, and then rounded to the places and digits that a decimal keeps. -/

namespace FiniteDouble

/-- Writes `mantissa / 2 ^ steps` over a power of ten, exactly where 96 bits allow it. -/
def decimalFraction : (steps mantissa places : Nat) → Nat × Nat
  | 0, mantissa, places => (mantissa, places)
  | steps + 1, mantissa, places =>
    if mantissa % 2 = 0 then decimalFraction steps (mantissa / 2) (places - 1)
    -- An odd mantissa is halved by way of five tenths, or rounded down where these have no room.
    else if mantissa * 5 < Nat.pow 2 96 then decimalFraction steps (mantissa * 5) places
    else decimalFraction steps (mantissa / 2) (places - 1)

/-- Takes off surplus places one at a time, rounding a half up each time, until nothing is left. -/
def dropPlaces : (surplus mantissa places : Nat) → Nat × Nat
  | 0, mantissa, places => (mantissa, places)
  | surplus + 1, mantissa, places =>
    let rest := mantissa % 10
    if mantissa / 10 = 0 then (0, 0)
    else dropPlaces surplus (if 5 ≤ rest then mantissa / 10 + 1 else mantissa / 10) (places - 1)

/-- Rounds away places, a half up, while there are more digits than a binary number carries. -/
def dropDigits : (places mantissa : Nat) → Nat × Nat
  | 0, mantissa => (mantissa, 0)
  | places + 1, mantissa =>
    if mantissa < Nat.pow 2 52 then (mantissa, places + 1)
    else dropDigits places (if 5 ≤ mantissa % 10 then mantissa / 10 + 1 else mantissa / 10)

/-- Takes off places that hold a zero. -/
def dropZeros : (places mantissa : Nat) → Nat × Nat
  | 0, mantissa => (mantissa, 0)
  | places + 1, mantissa =>
    if mantissa % 10 = 0 then dropZeros places (mantissa / 10) else (mantissa, places + 1)

/-- The decimal for a finite binary number, unless it is too large. -/
def decimal? (x : FiniteDouble) : Option Decimal :=
  if x.isZero then Decimal.make? x.negative 0 0
  else if 0 ≤ x.exponent then
    Decimal.make? x.negative (x.significand * Nat.pow 2 x.exponent.toNat) 0
  else
    let steps := (-x.exponent).toNat
    let (mantissa, places) := decimalFraction steps x.significand steps
    let (mantissa, places) := dropPlaces (places - 28) mantissa places
    let (mantissa, places) := dropDigits places mantissa
    let (mantissa, places) := dropZeros places mantissa
    Decimal.make? x.negative mantissa places

end FiniteDouble

/-- The decimal for a binary number, unless it is not finite or too large. -/
def Double.decimal? : Double → Option Decimal
  | .finite x => x.decimal?
  | _ => none

end GraphRules
