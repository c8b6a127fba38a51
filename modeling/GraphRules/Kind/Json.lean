import GraphRules.Json.Basic
import GraphRules.Kind

/-! The JSON form of kinds: a plain name, or a declaration under the key `named`. -/

namespace GraphRules

namespace Kind

mutual

/-- Writes a kind. -/
def toJson : Kind → Json
  | .builtin kind => .string kind.name
  | .named name supertypes =>
    .object [("named",
      .object [("name", .string name), ("supertypes", .array (toJsonList supertypes))])]

/-- Writes kinds in order. -/
def toJsonList : List Kind → List Json
  | [] => []
  | kind :: rest => kind.toJson :: toJsonList rest

end

mutual

/-- Reads a kind: a built-in name, alone or as the one key, or a declaration. -/
def ofJson? : Json → Option Kind
  | .string name => (BuiltinKind.ofName? name).map .builtin
  | .object [(name, .null)] => (BuiltinKind.ofName? name).map .builtin
  | .object [("named", declaration)] => ofDeclaration? declaration
  | _ => none

/-- Reads a declaration: an object with both fields, among others, or a list of exactly the two. -/
def ofDeclaration? : Json → Option Kind
  | .array [.string name, .array supertypes] => (ofJsonList? supertypes).map (.named name)
  -- Other fields are passed over.
  | .object fields =>
    match fields.lookup "name", ofSupertypesField? fields with
    | some (.string name), some supertypes => some (.named name supertypes)
    | _, _ => none
  | _ => none

/-- Reads the supertypes of a declaration from its fields. -/
def ofSupertypesField? : List (String × Json) → Option (List Kind)
  | [] => none
  | (name, value) :: rest =>
    if name = "supertypes" then
      match value with
      | .array supertypes => ofJsonList? supertypes
      | _ => none
    else ofSupertypesField? rest

/-- Reads kinds in order, all or none. -/
def ofJsonList? : List Json → Option (List Kind)
  | [] => some []
  | item :: rest =>
    match ofJson? item, ofJsonList? rest with
    | some kind, some kinds => some (kind :: kinds)
    | _, _ => none

end

end Kind

end GraphRules
