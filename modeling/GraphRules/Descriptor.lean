import GraphRules.Extractor.Basic

/-! Descriptors of generic types: trees that say where rules apply and objects are looked into. -/

namespace GraphRules

/-- The identity of a descriptor node, which its copies share. -/
structure DescriptorId where
  index : Nat
deriving DecidableEq

/-- What a descriptor node is, apart from the nodes below it. -/
inductive Form
  /-- A type without arguments. -/
  | simple (kind : Kind)
  /-- A container type; its slots are the arguments. -/
  | parameterized (raw : Kind)
  /-- A wildcard; its slots are so many lower bounds followed by the upper bounds. -/
  | wildcard (lower : Nat)
  /-- A type variable; its slots are the bounds. -/
  | typeVariable (name : String)
  /-- An array; its one slot is the component. -/
  | array
deriving DecidableEq

/-- What a form is called. -/
def Form.name : Form → String
  | .simple _ => "simple"
  | .parameterized _ => "parameterized"
  | .wildcard _ => "wildcard"
  | .typeVariable _ => "type_variable"
  | .array => "array"

/-- A node of a parsed type with the nodes below it. -/
structure Descriptor where
  id : DescriptorId
  form : Form
  slots : List Descriptor
  /-- Objects reached here are looked into. -/
  needsIntrospection : Bool
  /-- Rules are declared on this node. -/
  hasDeclaredRules : Bool
  /-- The extractor that reaches values here, in place of the registry's answer. -/
  extractor : Option Extractor

namespace Descriptor

/-- A node without marks. -/
def plain (id : DescriptorId) (form : Form) (slots : List Descriptor) : Descriptor :=
  ⟨id, form, slots, false, false, none⟩

/-! ### Construction -/

/-- A type without arguments. -/
def simple (id : DescriptorId) (kind : Kind) : Descriptor :=
  plain id (.simple kind) []

/-- A container type with one argument for each slot. -/
def parameterized (id : DescriptorId) (raw : Kind) (arguments : List Descriptor) : Descriptor :=
  plain id (.parameterized raw) arguments

/-- A wildcard with its lower and upper bounds. -/
def wildcard (id : DescriptorId) (lower upper : List Descriptor) : Descriptor :=
  plain id (.wildcard lower.length) (lower ++ upper)

/-- A type variable with its bounds. -/
def typeVariable (id : DescriptorId) (name : String) (bounds : List Descriptor) : Descriptor :=
  plain id (.typeVariable name) bounds

/-- An array of a component type. -/
def array (id : DescriptorId) (component : Descriptor) : Descriptor :=
  plain id .array [component]

/-- Marks a node so that objects reached there are looked into. -/
def cascaded (descriptor : Descriptor) : Descriptor :=
  { descriptor with needsIntrospection := true }

/-- Marks a node as one with rules. -/
def withDeclaredRules (descriptor : Descriptor) : Descriptor :=
  { descriptor with hasDeclaredRules := true }

/-- Pins the extractor that reaches values at a node. -/
def withExtractor (descriptor : Descriptor) (extractor : Extractor) : Descriptor :=
  { descriptor with extractor := some extractor }

/-! ### Questions -/

/-- The kind of simple and container types. -/
def declaredKind? (descriptor : Descriptor) : Option Kind :=
  match descriptor.form with
  | .simple kind => some kind
  | .parameterized raw => some raw
  | _ => none

/-- Whether values reached here are reported. -/
def isRelevant (descriptor : Descriptor) : Bool :=
  descriptor.needsIntrospection || descriptor.hasDeclaredRules

mutual

/-- Whether some node below is relevant, so that values reached here have to be opened. -/
def requiresDescent : Descriptor → Bool
  | ⟨_, _, slots, _, _, _⟩ => anyWanted slots

/-- Whether some tree of a list has a relevant node. -/
def anyWanted : List Descriptor → Bool
  | [] => false
  | descriptor :: rest =>
    descriptor.isRelevant || descriptor.requiresDescent || anyWanted rest

end

/-- Whether no node of the whole tree is relevant. -/
def isSkippable (descriptor : Descriptor) : Bool :=
  !descriptor.isRelevant && !descriptor.requiresDescent

mutual

/-- The node and all nodes below it, each before its slots. -/
def preorder : Descriptor → List Descriptor
  | ⟨id, form, slots, introspection, rules, extractor⟩ =>
    ⟨id, form, slots, introspection, rules, extractor⟩ :: preorderAll slots

/-- The nodes of several trees in order. -/
def preorderAll : List Descriptor → List Descriptor
  | [] => []
  | descriptor :: rest => descriptor.preorder ++ preorderAll rest

end

/-- Where the preorder of a tree lists the node that a route of slots leads to. -/
def preorderIndex (descriptor : Descriptor) : (route : List Nat) → Nat
  | [] => 0
  | slot :: rest =>
    -- The node itself and all trees before the slot come first.
    let before := (descriptor.slots.take slot).map (·.preorder.length)
    1 + before.sum + ((descriptor.slots[slot]?).map (preorderIndex · rest)).getD 0

/-- The values that the extractors pinned anywhere in the tree keep alive. -/
def holds (descriptor : Descriptor) : List Value :=
  descriptor.preorder.flatMap fun node => (node.extractor.map Extractor.holds).getD []

/-! ### Text -/

/-- The text of a node from the texts of its slots. -/
def formText (form : Form) (slots : List String) : String :=
  let bounds (word : String) (texts : List String) :=
    if texts.isEmpty then "" else word ++ " & ".intercalate texts
  match form with
  | .simple kind => kind.name
  | .parameterized raw => raw.name ++ "<" ++ ", ".intercalate slots ++ ">"
  | .wildcard lower =>
    "?" ++ bounds " super " (slots.take lower) ++ bounds " extends " (slots.drop lower)
  | .typeVariable name => name ++ bounds " extends " slots
  | .array => String.join slots ++ "[]"

mutual

/-- The type as it is written. -/
def text : Descriptor → String
  | ⟨_, form, slots, _, _, _⟩ => formText form (texts slots)

/-- The types of a list as they are written. -/
def texts : List Descriptor → List String
  | [] => []
  | descriptor :: rest => descriptor.text :: texts rest

end

instance : ToString Descriptor := ⟨text⟩

end Descriptor

end GraphRules
