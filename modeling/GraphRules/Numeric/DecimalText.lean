import GraphRules.Numeric.Decimal
import GraphRules.Numeric.DoubleText

/-! The text of decimals, which shows every place of their scale. -/

namespace GraphRules

namespace Decimal

/-- The digits of the mantissa with the point set by the scale. -/
def text (x : Decimal) : String :=
  (if x.negative then "-" else "") ++ pointed x.mantissa x.scale

instance : ToString Decimal := ⟨text⟩

/-! ### Reading

A text is a sign, digits and a point, in which underscores may stand anywhere after the first digit,
optionally times a power of ten; what there is no room for is rounded, a half going up. -/

/-- A decimal with a given sign, unless the parts are out of range; zero has no sign. -/
def signed? (negative : Bool) (mantissa scale : Nat) : Option Decimal :=
  make? (negative && mantissa != 0) mantissa scale

/-- The decimal that a mantissa comes to when one more digit is rounded away, a half up. -/
def rounded? (negative : Bool) (mantissa scale digit : Nat) : Option Decimal :=
  if digit < 5 then signed? negative mantissa scale
  else if mantissa + 1 < Nat.pow 2 96 then signed? negative (mantissa + 1) scale
  -- A mantissa that rounding carries past its bits gives up a place, if it has one.
  else if scale = 0 then none
  else signed? negative ((mantissa + 5) / 10) (scale - 1)

/-- Whether a mantissa is too long for one more digit to fit 64 bits, with a byte to spare. -/
def isLong (mantissa : Nat) : Bool :=
  decide ((Nat.pow 2 64 - 1) / 10 - 255 ≤ mantissa)

/-- Reads what follows the point. -/
def readFraction? (negative : Bool) : List Char → (mantissa scale : Nat) → (begun : Bool) →
    Option Decimal
  | [], mantissa, scale, begun => if begun then signed? negative mantissa scale else none
  | c :: rest, mantissa, scale, begun =>
    -- Places past the room are decided by the first of them, and nothing after it is looked at.
    if scale = 28 then
      if c.isDigit then rounded? negative mantissa scale (readDigits [c] 0)
      -- An underscore behind the last place ends a short mantissa and is skipped in a long one.
      else if c == '_' && isLong (mantissa / 10) then
        readFraction? negative rest mantissa scale begun
      else if c == '_' || c == '.' then signed? negative mantissa scale
      else none
    else if c.isDigit then
      let longer := readDigits [c] mantissa
      if longer < Nat.pow 2 96 then readFraction? negative rest longer (scale + 1) true
      else rounded? negative mantissa scale (readDigits [c] 0)
    else if c == '_' && begun then readFraction? negative rest mantissa scale begun
    else none

/-- Reads what stands before the point, all digits of which a decimal has to keep, and the rest. -/
def readWhole? (negative : Bool) : List Char → (mantissa : Nat) → (begun : Bool) → Option Decimal
  | [], mantissa, begun => if begun then signed? negative mantissa 0 else none
  | c :: rest, mantissa, begun =>
    if c.isDigit then
      let longer := readDigits [c] mantissa
      if longer < Nat.pow 2 96 then readWhole? negative rest longer true else none
    else if c == '.' then readFraction? negative rest mantissa 0 begun
    else if c == '_' && begun then readWhole? negative rest mantissa begun
    else none

/-- Reads a number without an exponent; its scale counts the places written. -/
def ofPositional? : List Char → Option Decimal
  | '-' :: unsigned => readWhole? true unsigned 0 false
  | '+' :: unsigned => readWhole? false unsigned 0 false
  | unsigned => readWhole? false unsigned 0 false

/-- Reads the size of an exponent, which has 32 bits. -/
def exponentSize? (text : List Char) : Option Nat :=
  let digits := match text with
    | '+' :: digits => digits
    | digits => digits
  if digits.isEmpty || !digits.all Char.isDigit then none
  else
    let size := readDigits digits 0
    if size < Nat.pow 2 32 then some size else none

/-- Multiplies by a power of ten: places go first, and only then the mantissa grows. -/
def timesTen? (x : Decimal) (power : Nat) : Option Decimal :=
  if power ≤ x.scale then make? x.negative x.mantissa (x.scale - power)
  else if x.mantissa = 0 then make? x.negative 0 0
  else
    let missing := power - x.scale
    -- A larger factor alone is out of range.
    if 28 < missing then none else make? x.negative (x.mantissa * Nat.pow 10 missing) 0

/-- Divides by a power of ten, which only adds places. -/
def overTen? (x : Decimal) (power : Nat) : Option Decimal :=
  if 28 < power then none
  else
    -- Places that would come to lie past the last one are rounded off first.
    let kept := min x.scale (28 - power)
    let step := Nat.pow 10 (x.scale - kept)
    make? x.negative ((2 * x.mantissa + step) / (2 * step)) (kept + power)

/-- Whether a character announces an exponent. -/
def isExponentMark (c : Char) : Bool := c == 'e' || c == 'E'

/-- Reads a number with an exponent. -/
def ofScientific? (text : List Char) : Option Decimal :=
  (ofPositional? (text.takeWhile (!isExponentMark ·))).bind fun base =>
    match text.dropWhile (!isExponentMark ·) with
    | _ :: '-' :: size => (exponentSize? size).bind base.overTen?
    | _ :: size => (exponentSize? size).bind base.timesTen?
    | [] => none

/-- The decimal with a given text, which is scientific when it has an exponent anywhere. -/
def ofText? (text : String) : Option Decimal :=
  if text.toList.any isExponentMark then ofScientific? text.toList
  else ofPositional? text.toList

end Decimal

end GraphRules
