import GraphRules.Store

/-! Extractors: each pulls the values of one slot out of containers of one kind. -/

namespace GraphRules

/-- The slot of a container kind, such as the keys or the values of maps. -/
structure ExtractorKey where
  kind : Kind
  slot : Nat
deriving DecidableEq

namespace ExtractorKey

/-- Whether the key stands for a slot of every kind that is assignable to its own. -/
def covers (key : ExtractorKey) (kind : Kind) (slot : Nat) : Bool :=
  key.slot == slot && kind.isAssignableTo key.kind

/-- The kind and the slot. -/
def text (key : ExtractorKey) : String := s!"{key.kind}#{key.slot}"

instance : ToString ExtractorKey := ⟨text⟩

end ExtractorKey

/-- Why an extractor gave up on a container. -/
inductive ExtractorFailure
  /-- The container has another shape than the extractor handles. -/
  | unexpectedContainer (expected found : Kind)
  /-- The extractor has a reason of its own. -/
  | failed (message : String)
deriving DecidableEq

/-- The text that reports a failure. -/
def ExtractorFailure.message : ExtractorFailure → String
  | .unexpectedContainer expected found => s!"expected a {expected} container, found {found}"
  | .failed message => s!"extractor failed: {message}"

/-- A value that an extractor reports, with the step that leads to it. -/
structure Reported where
  name : String
  index : Option Nat
  value : Value

/-- What an extractor makes of a container: values, and the failure that ended it, if any. -/
structure Yield where
  reported : List Reported
  failure : Option ExtractorFailure

namespace Yield

/-- Values without an order, under one name. -/
def plain (name : String) (values : List Value) : Yield :=
  ⟨values.map fun value => ⟨name, none, value⟩, none⟩

/-- Values in order, under one name. -/
def indexed (name : String) (values : List Value) : Yield :=
  ⟨values.zipIdx.map fun (value, index) => ⟨name, some index, value⟩, none⟩

/-- A failure before anything was reported. -/
def fail (failure : ExtractorFailure) : Yield := ⟨[], some failure⟩

end Yield

/-- The extractors that a registry holds unless it is told otherwise. -/
inductive BuiltinExtractor
  | iterableElement
  | sequenceElement
  | arrayElement
  | mapKey
  | mapValue
  | dictionaryKey
  | dictionaryValue
  | optionalPayload
  | referencePayload
  | threadScopedPayload
deriving DecidableEq

namespace BuiltinExtractor

/-- All of them in the order of registration: later ones win, so the general ones come first. -/
def all : List BuiltinExtractor :=
  [iterableElement, sequenceElement, arrayElement, mapKey, mapValue, dictionaryKey,
    dictionaryValue, optionalPayload, referencePayload, threadScopedPayload]

/-- The name that each goes by. -/
def name : BuiltinExtractor → String
  | iterableElement => "iterable_element"
  | sequenceElement => "sequence_element"
  | arrayElement => "array_element"
  | mapKey => "map_key"
  | mapValue => "map_value"
  | dictionaryKey => "dictionary_key"
  | dictionaryValue => "dictionary_value"
  | optionalPayload => "optional_payload"
  | referencePayload => "reference_payload"
  | threadScopedPayload => "thread_scoped_payload"

/-- The built-in extractor of a name. -/
def ofName? (name : String) : Option BuiltinExtractor :=
  all.find? fun extractor => extractor.name == name

/-- The slot that each serves. -/
def key : BuiltinExtractor → ExtractorKey
  | iterableElement => ⟨.iterable, 0⟩
  | sequenceElement => ⟨.sequence, 0⟩
  | arrayElement => ⟨.array, 0⟩
  | mapKey => ⟨.map, 0⟩
  | mapValue => ⟨.map, 1⟩
  | dictionaryKey => ⟨.dictionary, 0⟩
  | dictionaryValue => ⟨.dictionary, 1⟩
  | optionalPayload => ⟨.optional, 0⟩
  | referencePayload => ⟨.reference, 0⟩
  | threadScopedPayload => ⟨.threadScoped, 0⟩

/-- The name of the step that each reports. -/
def stepName : BuiltinExtractor → String
  | iterableElement => "<iterable element>"
  | sequenceElement => "<list element>"
  | arrayElement => "<array element>"
  | mapKey | dictionaryKey => "<map key>"
  | mapValue | dictionaryValue => "<map value>"
  | optionalPayload => "<optional value>"
  | referencePayload => "<reference value>"
  | threadScopedPayload => "<thread-scoped value>"

/-- What each reports of a container of its shape, in the order of the container. -/
def report? (extractor : BuiltinExtractor) (store : Store) (container : Value) : Option Yield :=
  let name := extractor.stepName
  match extractor, container with
  -- Ordered containers number what they report, arrays included.
  | iterableElement, .node (.collection collection) => some (.indexed name (store.items collection))
  | iterableElement, .node (.array array) => some (.indexed name (store.itemsAt array.id))
  | sequenceElement, .node (.collection collection) => some (.indexed name (store.items collection))
  | arrayElement, .node (.array array) => some (.indexed name (store.itemsAt array.id))
  -- A map and a dictionary are read alike, whichever of the two extractors was found.
  | mapKey, .node (.map map) => some (.plain name ((store.entries map).map (·.1)))
  | mapValue, .node (.map map) => some (.plain name ((store.entries map).map (·.2)))
  | dictionaryKey, .node (.map map) => some (.plain name ((store.entries map).map (·.1)))
  | dictionaryValue, .node (.map map) => some (.plain name ((store.entries map).map (·.2)))
  -- Optional boxes and references report nothing when they are empty or cleared.
  | optionalPayload, .vacant => some (.plain name [])
  | optionalPayload, .present payload => some (.plain name [payload])
  | referencePayload, .strong referent => some (.plain name [referent])
  | referencePayload, .weak target => some (.plain name (store.upgrade? target).toList)
  -- A box that the running thread has not bound reports null.
  | threadScopedPayload, .node (.threadScoped box) =>
    some (.plain name [(store.binding? box).getD .null])
  | _, _ => none

/-- Reports the slot of a container, or fails on a container of another shape. -/
def extract (extractor : BuiltinExtractor) (store : Store) (container : Value) : Yield :=
  (extractor.report? store container).getD
    (.fail (.unexpectedContainer extractor.key.kind container.kind))

end BuiltinExtractor

/-- An extractor defined outside the library, as a function of the container. -/
structure CustomExtractor where
  key : ExtractorKey
  applies : Kind → Nat → Bool := key.covers
  extract : Store → Value → Yield
  /-- Values that the extractor keeps alive. -/
  holds : List Value := []

/-- Any extractor. -/
inductive Extractor
  | builtin (extractor : BuiltinExtractor)
  | custom (extractor : CustomExtractor)

namespace Extractor

/-- The slot that an extractor was built for. -/
def key : Extractor → ExtractorKey
  | .builtin extractor => extractor.key
  | .custom extractor => extractor.key

/-- Whether an extractor serves a slot of containers of a kind. -/
def appliesTo : Extractor → Kind → Nat → Bool
  | .builtin extractor => extractor.key.covers
  | .custom extractor => extractor.applies

/-- What an extractor makes of a container. -/
def extract : Extractor → Store → Value → Yield
  | .builtin extractor => extractor.extract
  | .custom extractor => extractor.extract

/-- The values that an extractor keeps alive. -/
def holds : Extractor → List Value
  | .builtin _ => []
  | .custom extractor => extractor.holds

end Extractor

end GraphRules
