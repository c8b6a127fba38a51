import GraphRules.Json.Basic
import GraphRules.Store

/-! JSON values as runtime values: sequences for arrays, and maps with text keys for objects. -/

namespace GraphRules

namespace Value

/-- An integer stays exact if it fits, and becomes the nearest binary number otherwise. -/
def ofJsonNumber : JsonNumber → Value
  | .integer number =>
    if -(Nat.pow 2 63 : Int) ≤ number ∧ number < (Nat.pow 2 63 : Int) then .integer (.ofInt number)
    else .float (.ofInt number)
  | .float number => .float number

end Value

namespace Store

mutual

/-- Turns a JSON value into a runtime value over new nodes. -/
def ofJson (store : Store) : Json → Value × Store
  | .null => (.null, store)
  | .bool value => (.boolean value, store)
  | .number value => (.ofJsonNumber value, store)
  | .string content => (.text content, store)
  | .array items =>
    let (values, store) := store.ofJsonItems items
    let (sequence, store) := store.newSequence values
    (.node (.collection sequence), store)
  -- The values of the fields get their nodes before the map does.
  | .object fields =>
    let (entries, store) := store.ofJsonFields fields
    let (map, store) := store.newMapOf entries
    (.node (.map map), store)

/-- Turns the items of an array into runtime values in order. -/
def ofJsonItems (store : Store) : List Json → List Value × Store
  | [] => ([], store)
  | item :: rest =>
    let (value, store) := store.ofJson item
    let (values, store) := store.ofJsonItems rest
    (value :: values, store)

/-- Turns the fields of an object into entries in order. -/
def ofJsonFields (store : Store) : List (String × Json) → List (Value × Value) × Store
  | [] => ([], store)
  | (name, item) :: rest =>
    let (value, store) := store.ofJson item
    let (entries, store) := store.ofJsonFields rest
    ((.text name, value) :: entries, store)

end

end Store

end GraphRules
