/-! Whole-number rounding and logarithms of quotients, on which the inexact conversions rest. -/

namespace GraphRules

/-- A quotient rounded to the nearest whole number, a half going to the even neighbour. -/
def roundDiv (numerator denominator : Nat) : Nat :=
  let floor := numerator / denominator
  let twice := 2 * (numerator % denominator)
  if twice < denominator then floor
  else if denominator < twice then floor + 1
  else if floor % 2 = 0 then floor
  else floor + 1

/-- A quotient times a power of the base, as numerator and denominator of a new quotient. -/
def scaleRatio (base numerator denominator : Nat) (power : Int) : Nat × Nat :=
  (numerator * Nat.pow base power.toNat, denominator * Nat.pow base (-power).toNat)

/-- The greatest power of two that a positive quotient reaches. -/
def binaryOrder (numerator denominator : Nat) : Int :=
  -- The logarithms of the two parts leave one power undecided.
  let guess : Int := (numerator.log2 : Int) - denominator.log2
  let (above, below) := scaleRatio 2 numerator denominator (-guess)
  if below ≤ above then guess else guess - 1

/-- How many decimal digits write a natural number. -/
def digitCount (number : Nat) : Nat :=
  (Nat.toDigits 10 number).length

/-- The greatest power of ten that a positive quotient reaches. -/
def decimalOrder (numerator denominator : Nat) : Int :=
  if denominator ≤ numerator then (digitCount (numerator / denominator) : Int) - 1
  -- Below one, the power is the least that lifts the quotient to one, negated.
  else -(digitCount ((denominator + numerator - 1) / numerator - 1) : Int)

end GraphRules
