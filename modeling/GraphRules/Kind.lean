/-! Runtime kinds, and the order in which a value of one may stand where another is expected. -/

namespace GraphRules

/-- A kind that is known without any declaration. -/
inductive BuiltinKind
  | null
  | boolean
  | integer
  | float
  | decimal
  | text
  | iterable
  | collection
  | sequence
  | set
  | map
  | dictionary
  | optional
  | reference
  | weakReference
  | threadScoped
  | array
  | object
deriving DecidableEq

namespace BuiltinKind

/-- Every built-in kind once, in the order of declaration. -/
def all : List BuiltinKind :=
  [null, boolean, integer, float, decimal, text, iterable, collection, sequence, set, map,
    dictionary, optional, reference, weakReference, threadScoped, array, object]

/-- The name that messages and documents use for a built-in kind. -/
def name : BuiltinKind → String
  | null => "null"
  | boolean => "boolean"
  | integer => "integer"
  | float => "float"
  | decimal => "decimal"
  | text => "text"
  | iterable => "iterable"
  | collection => "collection"
  | sequence => "sequence"
  | set => "set"
  | map => "map"
  | dictionary => "dictionary"
  | optional => "optional"
  | reference => "reference"
  | weakReference => "weak_reference"
  | threadScoped => "thread_scoped"
  | array => "array"
  | object => "object"

/-- The built-in kind with a given name. -/
def ofName? (name : String) : Option BuiltinKind :=
  all.find? (·.name == name)

/-- The kinds directly above a built-in kind, of which there is at most one. -/
def parents : BuiltinKind → List BuiltinKind
  -- Maps and dictionaries stand beside the iterables, not below them.
  | sequence => [collection]
  | set => [collection]
  | collection => [iterable]
  | weakReference => [reference]
  | _ => []

/-- A built-in kind followed by everything above it, nearest first. -/
def lineage : BuiltinKind → List BuiltinKind
  | sequence => [sequence, collection, iterable]
  | set => [set, collection, iterable]
  | collection => [collection, iterable]
  | weakReference => [weakReference, reference]
  | kind => [kind]

/-- Scalars and the boxes around a single payload, into which a walk never descends. -/
def isCore : BuiltinKind → Bool
  | null | boolean | integer | float | decimal | text => true
  -- Boxes are opened by extractors only.
  | optional | reference | weakReference | threadScoped => true
  | _ => false

end BuiltinKind

/-- The runtime type of a value: built in, or declared by a name and its direct supertypes. -/
inductive Kind
  | builtin (kind : BuiltinKind)
  | named (name : String) (supertypes : List Kind)

namespace Kind

-- The built-in kinds can be written and matched without naming their constructor.
@[match_pattern] abbrev null : Kind := .builtin .null
@[match_pattern] abbrev boolean : Kind := .builtin .boolean
@[match_pattern] abbrev integer : Kind := .builtin .integer
@[match_pattern] abbrev float : Kind := .builtin .float
@[match_pattern] abbrev decimal : Kind := .builtin .decimal
@[match_pattern] abbrev text : Kind := .builtin .text
@[match_pattern] abbrev iterable : Kind := .builtin .iterable
@[match_pattern] abbrev collection : Kind := .builtin .collection
@[match_pattern] abbrev sequence : Kind := .builtin .sequence
@[match_pattern] abbrev set : Kind := .builtin .set
@[match_pattern] abbrev map : Kind := .builtin .map
@[match_pattern] abbrev dictionary : Kind := .builtin .dictionary
@[match_pattern] abbrev optional : Kind := .builtin .optional
@[match_pattern] abbrev reference : Kind := .builtin .reference
@[match_pattern] abbrev weakReference : Kind := .builtin .weakReference
@[match_pattern] abbrev threadScoped : Kind := .builtin .threadScoped
@[match_pattern] abbrev array : Kind := .builtin .array
@[match_pattern] abbrev object : Kind := .builtin .object

/-- A declared kind of structured objects. -/
def objectType (name : String) : Kind := .named name [.object]

mutual

/-- Two kinds are the same when their names and supertypes agree in order, to any depth. -/
def decEq : (left right : Kind) → Decidable (left = right)
  -- Kinds are compared as trees, so that no declaration is needed to tell them apart.
  | .builtin left, .builtin right =>
    if same : left = right then isTrue (congrArg _ same)
    else isFalse (fun equal => same (Kind.builtin.inj equal))
  | .builtin _, .named _ _ => isFalse nofun
  | .named _ _, .builtin _ => isFalse nofun
  -- Two declarations differ by their names or by something above them.
  | .named left above, .named right beyond =>
    if same : left = right then
      match decEqList above beyond with
      | isTrue alike => isTrue (by rw [same, alike])
      | isFalse differ => isFalse (fun equal => differ (Kind.named.inj equal).2)
    else isFalse (fun equal => same (Kind.named.inj equal).1)

/-- Lists of kinds are compared position by position. -/
def decEqList : (left right : List Kind) → Decidable (left = right)
  | [], [] => isTrue rfl
  | [], _ :: _ => isFalse nofun
  | _ :: _, [] => isFalse nofun
  | left :: above, right :: beyond =>
    match decEq left right, decEqList above beyond with
    | isTrue same, isTrue alike => isTrue (by rw [same, alike])
    | isFalse differ, _ => isFalse (fun equal => differ (List.cons.inj equal).1)
    | _, isFalse differ => isFalse (fun equal => differ (List.cons.inj equal).2)

end

instance : DecidableEq Kind := decEq

/-- The name shown in messages and paths. -/
def name : Kind → String
  | .builtin kind => kind.name
  | .named name _ => name

instance : ToString Kind := ⟨name⟩

/-- The kinds directly above a kind. -/
def parents : Kind → List Kind
  | .builtin kind => kind.parents.map .builtin
  | .named _ supertypes => supertypes

mutual

/-- Whether a value of this kind may be used where the target is expected. -/
def isAssignableTo (kind target : Kind) : Bool :=
  decide (kind = target) ||
    match kind with
    | .builtin kind => (kind.lineage.map Kind.builtin).contains target
    -- A declared kind fits wherever one of its supertypes fits.
    | .named _ supertypes => anyAssignableTo supertypes target

/-- Whether some kind of a list may be used where the target is expected. -/
def anyAssignableTo : List Kind → Kind → Bool
  | [], _ => false
  | kind :: rest, target => kind.isAssignableTo target || anyAssignableTo rest target

end

/-- Searching the supertypes one by one is the usual search of a list. -/
theorem anyAssignableTo_eq (kinds : List Kind) (target : Kind) :
    anyAssignableTo kinds target = kinds.any (·.isAssignableTo target) := by
  -- Both look at the kinds from the front.
  induction kinds with
  | nil => rfl
  | cons kind rest rested => simp [anyAssignableTo, rested]

mutual

/-- Whether a walk treats values of this kind as closed, as it does where all supertypes are. -/
def isCore : Kind → Bool
  | .builtin kind => kind.isCore
  -- Without supertypes nothing is known about a kind, and it stays open.
  | .named _ supertypes => !supertypes.isEmpty && allCore supertypes

/-- Whether every kind of a list is closed to a walk. -/
def allCore : List Kind → Bool
  | [] => true
  | kind :: rest => kind.isCore && allCore rest

end

/-- Element kinds whose arrays hold bare scalars. -/
def isPrimitive : Kind → Bool
  | .boolean | .integer | .float => true
  | _ => false

/-- The kinds at the head of each family of containers. -/
def containerHeads : List Kind :=
  [.iterable, .map, .dictionary, .optional, .reference, .threadScoped, .array]

/-- Whether values of this kind hold other values. -/
def isContainer (kind : Kind) : Bool :=
  containerHeads.any kind.isAssignableTo

end Kind

end GraphRules
