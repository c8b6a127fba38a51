import GraphRules.Numeric.DoubleText

/-! JSON values and their compact text. -/

namespace GraphRules

/-- A number of a JSON value: an integer of 64 bits, signed or unsigned, or a binary number. -/
inductive JsonNumber
  | integer (number : Int)
  | float (number : Double)
deriving DecidableEq

/-- A JSON value, whose objects hold each field name once. -/
inductive Json
  | null
  | bool (value : Bool)
  | number (value : JsonNumber)
  | string (content : String)
  | array (items : List Json)
  | object (fields : List (String × Json))

namespace Json

instance : Inhabited Json := ⟨.null⟩

/-- An integer as a JSON value. -/
def int (value : Int) : Json := .number (.integer value)

/-- A count as a JSON value. -/
def nat (value : Nat) : Json := .int value

/-- A text or null. -/
def optionalString : Option String → Json
  | none => .null
  | some content => .string content

/-- The value of a field, where absent and null are the same. -/
def field? (json : Json) (name : String) : Option Json :=
  match json with
  | .object fields =>
    match fields.lookup name with
    | some .null => none
    | found => found
  | _ => none

/-- Stores a field, replacing an earlier value of the same name and keeping names in order. -/
def insertField (name : String) (value : Json) : List (String × Json) → List (String × Json)
  | [] => [(name, value)]
  | (other, stored) :: rest =>
    if name = other then (name, value) :: rest
    -- The order of code points is the order of the UTF-8 bytes.
    else if name < other then (name, value) :: (other, stored) :: rest
    else (other, stored) :: insertField name value rest

/-- An object from fields in any order, in which the last of equal names wins. -/
def ofFields (fields : List (String × Json)) : Json :=
  .object (fields.foldl (fun kept (name, value) => insertField name value kept) [])

/-! ### Text -/

/-- The lower-case hexadecimal digits of a number, without leading zeros. -/
def hexDigits (number : Nat) : String :=
  String.ofList (Nat.toDigits 16 number)

/-- A character as it stands between the quotes of a JSON text. -/
def escapeChar (c : Char) : String :=
  if c == '"' then "\\\""
  else if c == '\\' then "\\\\"
  else if c == '\n' then "\\n"
  else if c == '\r' then "\\r"
  else if c == '\t' then "\\t"
  else if c.toNat < 0x10 then "\\u000" ++ hexDigits c.toNat
  else if c.toNat < 0x20 then "\\u00" ++ hexDigits c.toNat
  else c.toString

/-- A text in quotes. -/
def quote (content : String) : String :=
  content.foldl (fun text c => text ++ escapeChar c) "\"" ++ "\""

/-- A number that keeps a point when it is not an integer. -/
def numberText : JsonNumber → String
  | .integer value => toString value
  | .float value =>
    let written := value.text
    if written.contains '.' then written else written ++ ".0"

mutual

/-- Appends the text of a value. -/
def write (text : String) : Json → String
  | .null => text ++ "null"
  | .bool value => text ++ (if value then "true" else "false")
  | .number value => text ++ numberText value
  | .string content => text ++ quote content
  | .array items => writeItems (text ++ "[") false items ++ "]"
  | .object fields => writeFields (text ++ "\x7b") false fields ++ "\x7d"

/-- Appends values, with a comma before all but the first. -/
def writeItems (text : String) (comma : Bool) : List Json → String
  | [] => text
  | item :: rest => writeItems (write (if comma then text ++ "," else text) item) true rest

/-- Appends fields, with a comma before all but the first. -/
def writeFields (text : String) (comma : Bool) : List (String × Json) → String
  | [] => text
  | (name, value) :: rest =>
    let text := (if comma then text ++ "," else text) ++ quote name ++ ":"
    writeFields (write text value) true rest

end

/-- The compact text of a value. -/
def text (json : Json) : String := json.write ""

instance : ToString Json := ⟨text⟩

end Json

end GraphRules
