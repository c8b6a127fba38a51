/-! The parts of a number in decimal or scientific notation, before any rounding. -/

namespace GraphRules

/-- The value of a run of decimal digits after some digits already read. -/
def readDigits (digits : List Char) (before : Nat) : Nat :=
  digits.foldl (fun value digit => value * 10 + (digit.toNat - '0'.toNat)) before

/-- A number in scientific notation, cut into the parts that carry meaning. -/
structure NumberParts where
  negative : Bool
  whole : List Char
  fraction : Option (List Char)
  exponent : Option Int

namespace NumberParts

/-- The digits at the front of a text and what follows them. -/
def splitDigits (text : List Char) : List Char × List Char :=
  text.span Char.isDigit

/-- An exponent that fills the whole rest of a text. -/
def exponent? : List Char → Option (Option Int)
  | [] => some none
  | mark :: rest =>
    if mark != 'e' && mark != 'E' then none
    else
      let (negative, digits) := match rest with
        | '-' :: digits => (true, digits)
        | '+' :: digits => (false, digits)
        | digits => (false, digits)
      if digits.isEmpty || !digits.all Char.isDigit then none
      else
        let size : Int := readDigits digits 0
        some (some (if negative then -size else size))

/-- The parts of a number without its sign. -/
def ofUnsigned? (negative : Bool) (text : List Char) : Option NumberParts :=
  let (whole, rest) := splitDigits text
  let (fraction, rest) := match rest with
    | '.' :: rest => (some (splitDigits rest).1, (splitDigits rest).2)
    | rest => (none, rest)
  (exponent? rest).map fun exponent => ⟨negative, whole, fraction, exponent⟩

/-- The parts of a number with an optional minus sign. -/
def ofText? : List Char → Option NumberParts
  | '-' :: text => ofUnsigned? true text
  | text => ofUnsigned? false text

end NumberParts

end GraphRules
