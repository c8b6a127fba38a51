import GraphRules.Numeric.Double
import GraphRules.Numeric.Notation

/-! The decimal text of binary numbers: the fewest digits that read back, and nearest reading. -/

namespace GraphRules

/-- A natural number written with a fixed number of digits after the point. -/
def pointed (number places : Nat) : String :=
  if places = 0 then toString number
  else
    let digits := (toString number).toList
    -- At least one digit stands before the point.
    let padded := List.replicate (places + 1 - digits.length) '0' ++ digits
    let whole := padded.take (padded.length - places)
    let fraction := padded.drop (padded.length - places)
    String.ofList (whole ++ '.' :: fraction)

namespace FiniteDouble

/-- Whether `digits · 10 ^ power` reads back as this number. -/
def readsBack (x : FiniteDouble) (digits : Nat) (power : Int) : Bool :=
  let (above, below) := scaleRatio 10 digits 1 power
  Double.ofRatio x.negative above below == .finite x

/-- Of the two neighbours on the grid of a power of ten, the nearer one that reads back. -/
def onGrid? (x : FiniteDouble) (power : Int) : Option Nat :=
  let (above, below) := scaleRatio 10 x.ratio.1 x.ratio.2 (-power)
  let floor := above / below
  let rest := above % below
  match x.readsBack floor power, x.readsBack (floor + 1) power with
  -- A number half way between them goes up.
  | true, true => if 2 * rest < below then some floor else some (floor + 1)
  | true, false => some floor
  | false, true => some (floor + 1)
  | false, false => none

/-- The first grid that has a number reading back, from coarse to fine. -/
def firstOnGrid (x : FiniteDouble) (power : Int) : (finer : Nat) → Nat × Int
  | 0 => ((x.onGrid? power).getD 0, power)
  | finer + 1 =>
    match x.onGrid? power with
    | some digits => (digits, power)
    | none => x.firstOnGrid (power - 1) finer

/-- The digits and the power of ten of the shortest decimal that reads back. -/
def shortest (x : FiniteDouble) : Nat × Int :=
  -- Seventeen digits always read back.
  if x.isZero then (0, 0)
  else x.firstOnGrid (decimalOrder x.ratio.1 x.ratio.2) 16

end FiniteDouble

/-- A decimal without zeros at the end of its fraction. -/
def trimFraction (digits : Nat) : (places : Nat) → Nat × Nat
  | 0 => (digits, 0)
  | places + 1 =>
    if digits % 10 = 0 then trimFraction (digits / 10) places else (digits, places + 1)

/-- A signed decimal in positional notation, whatever its size. -/
def positional (negative : Bool) (digits : Nat) (power : Int) : String :=
  let (digits, places) := trimFraction (digits * Nat.pow 10 power.toNat) (-power).toNat
  (if negative then "-" else "") ++ pointed digits places

namespace Double

/-- The shortest text that reads back, never with an exponent. -/
def text : Double → String
  | .nan => "NaN"
  | .infinite negative => if negative then "-inf" else "inf"
  | .finite x => positional x.negative x.shortest.1 x.shortest.2

instance : ToString Double := ⟨text⟩

end Double

namespace Double

/-- Powers of ten past which every text of so many digits is out of the range on one side. -/
def farPower : Int := 400

/-- The number nearest to `± digits · 10 ^ power`. -/
def ofDecimal (negative : Bool) (digits : Nat) (power : Int) : Double :=
  let top := power + digitCount digits
  -- Huge powers are decided by their size alone, so that no huge number is computed.
  if digits = 0 || top < -farPower then .finite (.zero negative)
  else if farPower < top then .infinite negative
  else
    let (above, below) := scaleRatio 10 digits 1 power
    ofRatio negative above below

/-- The number nearest to a text in decimal or scientific notation. -/
def ofText? (text : String) : Option Double :=
  let (negative, unsigned) := match text.toList with
    | '-' :: rest => (true, rest)
    | '+' :: rest => (false, rest)
    | rest => (false, rest)
  let word := String.ofList (unsigned.map Char.toLower)
  if word == "nan" then some .nan
  else if word == "inf" || word == "infinity" then some (.infinite negative)
  else
    match NumberParts.ofUnsigned? negative unsigned with
    | none => none
    | some parts =>
      let fraction := parts.fraction.getD []
      if parts.whole.isEmpty && fraction.isEmpty then none
      else
        let digits := readDigits fraction (readDigits parts.whole 0)
        some (ofDecimal negative digits (parts.exponent.getD 0 - fraction.length))

end Double

end GraphRules
