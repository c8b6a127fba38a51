import GraphRules.Descriptor
import GraphRules.Path
import GraphRules.Registry

/-! Extraction: the values that stand at the relevant nodes of a descriptor, reported as leaves. -/

namespace GraphRules

/-- The container that a value was taken from, and its slot. -/
structure Origin where
  container : Value
  slot : Nat

/-- Where a value stands: what it was taken from, its path, and the slots on the way. -/
structure Position where
  origin : Option Origin
  path : Path
  route : List Nat

namespace Position

/-- The position of the value that an extraction starts from. -/
def root : Position := ⟨none, .root, []⟩

/-- The position of a value reported from a slot of a container. -/
def inside (position : Position) (container : Value) (slot : Nat) (reported : Reported) :
    Position :=
  ⟨some ⟨container, slot⟩, position.path.child reported.name reported.index,
    position.route ++ [slot]⟩

/-- A value in a container stands one level deeper. -/
@[simp] theorem depth_inside (position : Position) (container : Value) (slot : Nat)
    (reported : Reported) :
    (position.inside container slot reported).path.depth = position.path.depth + 1 := by
  -- A step inside adds one segment to the path.
  simp [inside, Path.child, Path.depth]

end Position

/-- How many containers were opened on the way to a position: one for each step of its path. -/
structure Level (position : Position) where
  depth : Nat
  counted : depth = position.path.depth

namespace Level

/-- Nothing was opened on the way to the root. -/
def root : Level .root := ⟨0, rfl⟩

/-- One more container is opened. -/
def inside {position : Position} (level : Level position) (container : Value) (slot : Nat)
    (reported : Reported) : Level (position.inside container slot reported) where
  depth := level.depth + 1
  counted := by rw [position.depth_inside, level.counted]

end Level

/-- A value at a relevant node. -/
structure Leaf where
  descriptor : Descriptor
  value : Value
  position : Position

namespace Leaf

def path (leaf : Leaf) : Path := leaf.position.path

/-- Whether the leaf is the value that the extraction started from. -/
def isRoot (leaf : Leaf) : Bool := leaf.position.origin.isNone

/-- The position in an ordered container, if any. -/
def index? (leaf : Leaf) : Option Nat := leaf.path.last?.bind (·.index)

end Leaf

/-- A branch that an extraction could not complete. -/
inductive ExtractionError
  /-- An extractor failed on a container, whose kind and path are given. -/
  | extractor (container : Kind) (slot : Nat) (path : Path) (failure : ExtractorFailure)
  /-- A value that had to be opened stands at the depth limit. -/
  | depthExceeded (limit : Nat) (path : Path)
deriving DecidableEq

namespace ExtractionError

/-- Where the branch stops. -/
def path : ExtractionError → Path
  | .extractor _ _ path _ => path
  | .depthExceeded _ path => path

/-- The text that reports an error. -/
def message : ExtractionError → String
  | .extractor container slot path failure =>
    s!"extracting slot {slot} of {container} at '{path}' failed: {failure.message}"
  | .depthExceeded limit path => s!"extraction depth limit {limit} exceeded at '{path}'"

end ExtractionError

/-- What an extraction found: leaves depth first, errors, and slots that no extractor serves. -/
structure Extraction where
  leaves : List Leaf
  errors : List ExtractionError
  unresolved : List ExtractorKey

namespace Extraction

/-- Nothing found. -/
def none : Extraction := ⟨[], [], []⟩

/-- One leaf and nothing else. -/
def ofLeaf (leaf : Leaf) : Extraction := ⟨[leaf], [], []⟩

/-- One error and nothing else. -/
def ofError (error : ExtractionError) : Extraction := ⟨[], [error], []⟩

/-- One unserved slot and nothing else. -/
def ofUnresolved (key : ExtractorKey) : Extraction := ⟨[], [], [key]⟩

/-- One extraction after another. -/
def append (first second : Extraction) : Extraction :=
  ⟨first.leaves ++ second.leaves, first.errors ++ second.errors,
    first.unresolved ++ second.unresolved⟩

instance : Append Extraction := ⟨append⟩

/-- Whether no branch failed; a slot that no extractor serves does not count as a failure. -/
def isComplete (extraction : Extraction) : Bool := extraction.errors.isEmpty

/-- The values of the leaves in order. -/
def values (extraction : Extraction) : List Value := extraction.leaves.map (·.value)

end Extraction

/-- The extractor that reaches values at a node: the pinned one, or that of the registry. -/
def Registry.findFor (registry : Registry) (descriptor : Descriptor) (kind : Kind) (slot : Nat) :
    Option Extractor × Registry :=
  match descriptor.extractor with
  | some extractor => (some extractor, registry)
  | none => registry.find kind slot

/-- What the containers hold, and how deep they may be opened. -/
structure Scope where
  store : Store
  limit : Nat

namespace Scope

/-- Runs an extraction for each of several inputs, one after the other over the same registry. -/
def sequence (extract : α → Registry → Extraction × Registry) :
    List α → Registry → Extraction × Registry
  | [], registry => (.none, registry)
  | input :: rest, registry =>
    let (first, registry) := extract input registry
    let (others, registry) := sequence extract rest registry
    (first ++ others, registry)

/-- The failure of an extractor on a container, as part of an extraction. -/
def failures (container : Value) (slot : Nat) (position : Position) :
    Option ExtractorFailure → Extraction
  | some failure => .ofError (.extractor container.kind slot position.path failure)
  | .none => .none

mutual

/-- Extracts a value at a node of a descriptor. -/
def visit (scope : Scope) :
    Descriptor → Value → (position : Position) → Level position → Registry → Extraction × Registry
  | ⟨id, form, slots, introspection, rules, extractor⟩, value, position, level, registry =>
    let descriptor : Descriptor := ⟨id, form, slots, introspection, rules, extractor⟩
    let own : Extraction :=
      if descriptor.isRelevant then .ofLeaf ⟨descriptor, value, position⟩ else .none
    -- Null is reported like any other value, but it is never opened.
    if value.isNull || !descriptor.requiresDescent then (own, registry)
    else if scope.limit ≤ level.depth then
      (own ++ .ofError (.depthExceeded scope.limit position.path), registry)
    else
      let (inner, registry) := scope.visitSlots slots 0 value position level registry
      (own ++ inner, registry)

/-- Extracts the slots of a container from a given one on. -/
def visitSlots (scope : Scope) :
    List Descriptor → (slot : Nat) → Value → (position : Position) → Level position → Registry →
      Extraction × Registry
  | [], _, _, _, _, registry => (.none, registry)
  | descriptor :: rest, slot, container, position, level, registry =>
    -- Nothing below a skippable slot is relevant, so its extractor is not even looked for.
    if descriptor.isSkippable then
      scope.visitSlots rest (slot + 1) container position level registry
    else
      let (extractor?, registry) := registry.findFor descriptor container.kind slot
      let (here, registry) := match extractor? with
        | some extractor =>
          let yield := extractor.extract scope.store container
          -- Values reported before a failure are still taken apart.
          let (inner, registry) := sequence
            (fun reported => scope.visit descriptor reported.value
              (position.inside container slot reported) (level.inside container slot reported))
            yield.reported registry
          (failures container slot position yield.failure ++ inner, registry)
        | none => (.ofUnresolved ⟨container.kind, slot⟩, registry)
      let (others, registry) := scope.visitSlots rest (slot + 1) container position level registry
      (here ++ others, registry)

end

/-- Extracts every relevant value below a root. -/
def extract (scope : Scope) (descriptor : Descriptor) (root : Value) (registry : Registry) :
    Extraction × Registry :=
  scope.visit descriptor root .root .root registry

end Scope

end GraphRules
