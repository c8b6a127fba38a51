import GraphRules.Json.Basic

/-! The numbers of a JSON text: exact integers of 64 bits, and binary numbers for all others. -/

namespace GraphRules

namespace JsonNumber

/-- The digits that a reading keeps and the power of ten it still has to apply. -/
structure Significand where
  value : Nat
  power : Int

/-- Whether a further digit keeps the significand within 64 bits. -/
def Significand.takes (s : Significand) (digit : Char) : Bool :=
  readDigits [digit] s.value < Nat.pow 2 64

/-- Reads digits before the point: from the first that does not fit, every digit is only counted. -/
def takeWhole : List Char → Significand → Significand
  | [], s => s
  | digit :: rest, s =>
    if s.takes digit then takeWhole rest ⟨readDigits [digit] s.value, s.power⟩
    else ⟨s.value, s.power + (rest.length + 1)⟩

/-- Reads digits after the point: from the first that does not fit, the rest is ignored. -/
def takeFraction : List Char → Significand → Significand
  | [], s => s
  | digit :: rest, s =>
    if s.takes digit then takeFraction rest ⟨readDigits [digit] s.value, s.power - 1⟩
    else s

/-- The largest power of ten that is itself in range. -/
def topPower : Nat := 308

/-- The binary number nearest to a power of ten. -/
def powerOfTen (places : Nat) : Double :=
  .ofRatio false (Nat.pow 10 places) 1

/-- Divides by one number several times, or until nothing is left. -/
def divideTimes (x divisor : FiniteDouble) : (times : Nat) → Double
  | 0 => .finite x
  | times + 1 =>
    if x.isZero then .finite x
    else
      match x.div divisor with
      | .finite quotient => divideTimes quotient divisor times
      | other => other

/-- Divides by a power of ten, in steps of the largest one while the power is larger. -/
def divideByPower (x : FiniteDouble) (places : Nat) : Double :=
  let steps := (places - 1) / topPower
  match powerOfTen topPower, powerOfTen (places - steps * topPower) with
  | .finite top, .finite last =>
    match divideTimes x top steps with
    | .finite quotient => quotient.div last
    | other => other
  | _, _ => .nan

/-- Multiplies by a power of ten; only zero takes a power beyond the range. -/
def multiplyByPower (x : FiniteDouble) (places : Nat) : Option Double :=
  if x.isZero then some (.finite x)
  else if topPower < places then none
  else
    match powerOfTen places with
    | .finite power =>
      match x.mul power with
      | .finite product => some (.finite product)
      -- A number that is too large is refused.
      | _ => none
    | _ => none

/-- The binary number for a significand, unless it is too large. -/
def Significand.double? (s : Significand) (negative : Bool) : Option Double :=
  match Double.ofRatio negative s.value 1 with
  | .finite x =>
    if 0 ≤ s.power then multiplyByPower x s.power.toNat
    else some (divideByPower x (-s.power).toNat)
  | _ => none

/-- Whether the parts follow the grammar of JSON: no missing digits and no leading zeros. -/
def wellFormed (parts : NumberParts) : Bool :=
  (parts.whole == ['0'] || (!parts.whole.isEmpty && parts.whole.head? != some '0')) &&
    parts.fraction != some []

/-- The number for well-formed parts, unless it is too large. -/
def ofParts? (parts : NumberParts) : Option JsonNumber :=
  let exact := readDigits parts.whole 0
  let isInteger := parts.fraction.isNone && parts.exponent.isNone
  if isInteger && !parts.negative && exact < Nat.pow 2 64 then some (.integer exact)
  -- Zero with a sign is not an integer.
  else if isInteger && parts.negative && 0 < exact && exact ≤ Nat.pow 2 63 then
    some (.integer (-(exact : Int)))
  else
    let whole := takeWhole parts.whole ⟨0, 0⟩
    let all := takeFraction (parts.fraction.getD []) whole
    let scaled : Significand := ⟨all.value, all.power + parts.exponent.getD 0⟩
    (scaled.double? parts.negative).map .float

end JsonNumber

end GraphRules
