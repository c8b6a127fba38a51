import GraphRules.Numeric.DecimalText
import GraphRules.Rule.Basic

/-! Bounds on numbers, compared exactly as decimals or else as binary numbers. -/

namespace GraphRules

/-- A number in the form in which it is compared to a bound. -/
inductive Quantity
  | exact (number : Decimal)
  | wide (number : Double)

namespace Quantity

def isBelow (bound : Decimal) : Quantity → Bool
  | .exact number => number.lt bound
  | .wide number => number.lt bound.toDouble

def isAbove (bound : Decimal) : Quantity → Bool
  | .exact number => bound.lt number
  | .wide number => bound.toDouble.lt number

def text : Quantity → String
  | .exact number => number.text
  | .wide number => number.text

end Quantity

/-- What a bound makes of a value: null has no quantity, and no other non-number passes. -/
def Value.quantity (code : String) (value : Value) : Except Violation (Option Quantity) :=
  if value.isNull then .ok none
  else
    match value.toDecimal?, value with
    -- A binary number within the range of decimals is compared as a decimal.
    | some number, _ => .ok (some (.exact number))
    | none, .float number =>
      if number.isNaN then
        .error ((Violation.make code "NaN cannot be compared to a bound").withParam "actual" "NaN")
      else .ok (some (.wide number))
    | none, _ => .error (.typeMismatch code "a number" value.kind.name)

namespace Rule

/-- A bound that some quantities break, with the words that report it. -/
def bounded (code words : String) (bound : Decimal) (breaks : Quantity → Bool) : Rule where
  code := code
  check _ value :=
    match value.quantity code with
    | .error violation => some violation
    | .ok none => none
    | .ok (some quantity) =>
      if breaks quantity then
        some ((Violation.make code s!"must be {words} than or equal to {bound.text}")
          |>.withParam code bound.text
          |>.withParam "actual" quantity.text)
      else none

/-- No number below the bound. -/
def min (bound : Decimal) : Rule := bounded "min" "greater" bound (Quantity.isBelow bound)

/-- No number above the bound. -/
def max (bound : Decimal) : Rule := bounded "max" "less" bound (Quantity.isAbove bound)

end Rule

end GraphRules
