/-! White space in the sense of the Unicode property of that name. -/

namespace GraphRules

/-- Whether a character is white space. -/
def isWhiteSpace (c : Char) : Bool :=
  let point := c.toNat
  (0x9 ≤ point && point ≤ 0xD) || point == 0x20 || point == 0x85 || point == 0xA0 ||
    point == 0x1680 || (0x2000 ≤ point && point ≤ 0x200A) || point == 0x2028 || point == 0x2029 ||
    point == 0x202F || point == 0x205F || point == 0x3000

/-- A text without white space at either end. -/
def trimWhiteSpace (text : List Char) : List Char :=
  ((text.dropWhile isWhiteSpace).reverse.dropWhile isWhiteSpace).reverse

/-- Whether nothing of a text is left once it is trimmed. -/
def isBlank (text : String) : Bool := (trimWhiteSpace text.toList).isEmpty

end GraphRules
