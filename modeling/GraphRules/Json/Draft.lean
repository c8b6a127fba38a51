import GraphRules.Json.Number
import GraphRules.Json.Token

/-! JSON texts as trees in which numbers, quoted texts and repeated names are still open. -/

namespace GraphRules

/-- The tree of a JSON text, with the fields of its objects in order and repetitions kept. -/
inductive JsonDraft
  | null
  | bool (value : Bool)
  -- A number too large to hold is absent.
  | number (value : Option JsonNumber)
  -- A quoted text that names no characters is absent.
  | string (content : Option String)
  | array (items : List JsonDraft)
  | object (fields : List (Option String × JsonDraft))

namespace JsonDraft

/-- A container that is still open, with what it holds so far in reverse. -/
inductive Frame
  | array (items : List JsonDraft)
  | object (fields : List (Option String × JsonDraft)) (name : Option String)

/-- What a text may continue with. -/
inductive Expectation
  | value
  -- The first item of an array, or its end.
  | firstItem
  -- The first name of an object, or its end.
  | firstName
  | nextName
  | colon
  -- What follows a value: a comma, or the end of what it is in.
  | separator
  | nothing (whole : JsonDraft)

/-- The open containers, innermost first, and what may follow. -/
structure Progress where
  frames : List Frame
  expects : Expectation

/-- Adds a finished value to the innermost open container. -/
def Progress.finish (frames : List Frame) (value : JsonDraft) : Progress :=
  match frames with
  | [] => ⟨[], .nothing value⟩
  | .array items :: rest => ⟨.array (value :: items) :: rest, .separator⟩
  | .object fields name :: rest => ⟨.object ((name, value) :: fields) name :: rest, .separator⟩

/-- The value that a word stands for. -/
def ofWord? (letters : List Char) : Option JsonDraft :=
  if letters == "null".toList then some .null
  else if letters == "true".toList then some (.bool true)
  else if letters == "false".toList then some (.bool false)
  else
    (NumberParts.ofText? letters).bind fun parts =>
      if JsonNumber.wellFormed parts then some (.number (JsonNumber.ofParts? parts)) else none

/-- Reads a token where a value may begin. -/
def Progress.begin (frames : List Frame) : JsonToken → Option Progress
  | .mark '[' => some ⟨.array [] :: frames, .firstItem⟩
  | .mark '\x7b' => some ⟨.object [] none :: frames, .firstName⟩
  | .mark _ => none
  | .quoted content => some (.finish frames (.string content))
  | .word letters => (ofWord? letters).map (.finish frames)

/-- Reads one token. -/
def Progress.step (progress : Progress) (token : JsonToken) : Option Progress :=
  match progress.expects, token, progress.frames with
  | .value, token, frames => Progress.begin frames token
  | .firstItem, .mark ']', .array _ :: rest => some (.finish rest (.array []))
  | .firstItem, token, frames => Progress.begin frames token
  | .firstName, .mark '\x7d', .object _ _ :: rest => some (.finish rest (.object []))
  | .firstName, .quoted name, .object fields _ :: rest => some ⟨.object fields name :: rest, .colon⟩
  | .nextName, .quoted name, .object fields _ :: rest => some ⟨.object fields name :: rest, .colon⟩
  | .colon, .mark ':', frames => some ⟨frames, .value⟩
  | .separator, .mark ',', .array items :: rest => some ⟨.array items :: rest, .value⟩
  | .separator, .mark ',', .object fields name :: rest =>
    some ⟨.object fields name :: rest, .nextName⟩
  | .separator, .mark ']', .array items :: rest => some (.finish rest (.array items.reverse))
  | .separator, .mark '\x7d', .object fields _ :: rest =>
    some (.finish rest (.object fields.reverse))
  | _, _, _ => none

/-- The tree of a text that holds exactly one value. -/
def ofText? (text : String) : Option JsonDraft :=
  (JsonToken.scan? text).bind fun tokens =>
    match tokens.foldlM Progress.step ⟨[], .value⟩ with
    | some ⟨_, .nothing whole⟩ => some whole
    | _ => none

mutual

/-- How many containers stand one inside the other. -/
def depth : JsonDraft → Nat
  | .array items => depthOfItems items + 1
  | .object fields => depthOfFields fields + 1
  | _ => 0

def depthOfItems : List JsonDraft → Nat
  | [] => 0
  | item :: rest => max item.depth (depthOfItems rest)

def depthOfFields : List (Option String × JsonDraft) → Nat
  | [] => 0
  | (_, value) :: rest => max value.depth (depthOfFields rest)

end

mutual

/-- The value of a tree in which every number and every quoted text can be held. -/
def settle? : JsonDraft → Option Json
  | .null => some .null
  | .bool value => some (.bool value)
  | .number value => value.map .number
  | .string content => content.map .string
  | .array items => (settleItems? items).map .array
  | .object fields => (settleFields? fields).map Json.ofFields

def settleItems? : List JsonDraft → Option (List Json)
  | [] => some []
  | item :: rest =>
    match item.settle?, settleItems? rest with
    | some value, some values => some (value :: values)
    | _, _ => none

def settleFields? : List (Option String × JsonDraft) → Option (List (String × Json))
  | [] => some []
  | (name, item) :: rest =>
    match name, item.settle?, settleFields? rest with
    | some name, some value, some values => some ((name, value) :: values)
    | _, _, _ => none

end

mutual

/-- A value as a tree with nothing left open. -/
def ofJson : Json → JsonDraft
  | .null => .null
  | .bool value => .bool value
  | .number value => .number (some value)
  | .string content => .string (some content)
  | .array items => .array (ofItems items)
  | .object fields => .object (ofFields fields)

def ofItems : List Json → List JsonDraft
  | [] => []
  | item :: rest => ofJson item :: ofItems rest

def ofFields : List (String × Json) → List (Option String × JsonDraft)
  | [] => []
  | (name, value) :: rest => (some name, ofJson value) :: ofFields rest

end

end JsonDraft

namespace Json

/-- The most containers that a text may hold one inside the other. -/
def deepest : Nat := 127

/-- The value of a JSON text. -/
def ofText? (text : String) : Option Json :=
  (JsonDraft.ofText? text).bind fun draft =>
    if draft.depth ≤ deepest then draft.settle? else none

end Json

end GraphRules
