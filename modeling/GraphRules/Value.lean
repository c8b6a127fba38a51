import GraphRules.Kind
import GraphRules.Numeric.Decimal

/-! Runtime values: scalars and boxes hold their content, containers and objects are handles. -/

namespace GraphRules

/-- The place of a node, which no other node of the same store ever has. -/
structure NodeId where
  index : Nat
deriving DecidableEq

/-- A thread that binds values of its own. -/
structure Thread where
  index : Nat
deriving DecidableEq

/-- A handle on an array of fixed length with a declared element kind. -/
structure FixedArray where
  id : NodeId
  element : Kind
deriving DecidableEq

/-- A handle on a growable collection. -/
structure Collection where
  id : NodeId
  kind : Kind
  iterable : kind.isAssignableTo .iterable = true
deriving DecidableEq

/-- Whether maps may have a kind. -/
def Kind.isKeyed (kind : Kind) : Bool :=
  kind.isAssignableTo .map || kind.isAssignableTo .dictionary

/-- A handle on a map. -/
structure Map where
  id : NodeId
  kind : Kind
  keyed : kind.isKeyed = true
deriving DecidableEq

/-- A handle on an object with named members. -/
structure Object where
  id : NodeId
  kind : Kind
  structured : kind.isAssignableTo .object = true
deriving DecidableEq

/-- A handle on a box with one binding for each thread. -/
structure ThreadScoped where
  id : NodeId
deriving DecidableEq

/-- A handle on any node, equal exactly to the handles on the same node. -/
inductive Node
  | array (array : FixedArray)
  | collection (collection : Collection)
  | map (map : Map)
  | object (object : Object)
  | threadScoped (box : ThreadScoped)
deriving DecidableEq

namespace Node

/-- The place of a node. -/
def id : Node → NodeId
  | .array node => node.id
  | .collection node => node.id
  | .map node => node.id
  | .object node => node.id
  | .threadScoped node => node.id

/-- The runtime kind of a node, which never changes. -/
def kind : Node → Kind
  | .array _ => .array
  | .collection node => node.kind
  | .map node => node.kind
  | .object node => node.kind
  | .threadScoped _ => .threadScoped

end Node

/-- Any runtime value. -/
inductive Value
  | null
  | boolean (content : Bool)
  | integer (content : Int64)
  | float (content : Double)
  | decimal (content : Decimal)
  | text (content : String)
  /-- An optional box that holds nothing. -/
  | vacant
  /-- An optional box that holds a value. -/
  | present (payload : Value)
  /-- A reference that keeps its referent alive. -/
  | strong (referent : Value)
  /-- A reference that does not, or one cleared from the start. -/
  | weak (target : Option Node)
  | node (node : Node)
deriving DecidableEq

namespace Value

instance : Inhabited Value := ⟨.null⟩

/-- The runtime kind of a value. -/
def kind : Value → Kind
  -- Scalars have the kind of their family.
  | .null => .null
  | .boolean _ => .boolean
  | .integer _ => .integer
  | .float _ => .float
  | .decimal _ => .decimal
  | .text _ => .text
  -- The kind of a box says nothing about what is inside.
  | .vacant => .optional
  | .present _ => .optional
  | .strong _ => .reference
  | .weak _ => .weakReference
  -- A handle carries the kind that its node was made with.
  | .node handle => handle.kind

/-- The identity of a node, and of nothing else. -/
def identity : Value → Option Node
  | .node handle => some handle
  | _ => none

def isNull : Value → Bool
  | .null => true
  | _ => false

/-- Equality as collections and maps see it, of scalars by value and of nodes by identity. -/
def equal : Value → Value → Bool
  | .null, .null => true
  | .boolean left, .boolean right => left == right
  | .integer left, .integer right => left == right
  | .float left, .float right => left.equal right
  | .decimal left, .decimal right => left.equal right
  | .text left, .text right => left == right
  -- Boxes are equal when their payloads are.
  | .vacant, .vacant => true
  | .present left, .present right => left.equal right
  | .strong left, .strong right => left.equal right
  -- From here on, only the same node is equal.
  | .weak left, .weak right => left == right
  | .node left, .node right => left == right
  | _, _ => false

/-- The number as a decimal, unless it is not a number or has no decimal form. -/
def toDecimal? : Value → Option Decimal
  | .integer content => some (.ofInt64 content)
  | .float content => content.decimal?
  | .decimal content => some content
  | _ => none

/-- A weak reference to a node; nothing else can be pointed at. -/
def weakTo? : Value → Option Value
  | .node handle => some (.weak (some handle))
  | _ => none

/-- An optional box around a value or around nothing. -/
def optional : Option Value → Value
  | none => .vacant
  | some payload => .present payload

/-- The node that a value keeps alive, through any boxes. -/
def held? : Value → Option NodeId
  | .present payload => payload.held?
  | .strong referent => referent.held?
  -- A weak reference keeps nothing alive.
  | .node handle => some handle.id
  | _ => none

end Value

end GraphRules
