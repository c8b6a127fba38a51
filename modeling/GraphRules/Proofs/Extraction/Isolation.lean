import GraphRules.Proofs.Extraction.Failure

/-! A failing extractor takes nothing with it: without the failures the same is found. -/

namespace GraphRules

/-! ### Extractors in place of others -/

/-- One extractor serves and reports the same as another, and never fails. -/
structure Extractor.Quiets (quiet original : Extractor) : Prop where
  key : quiet.key = original.key
  applies : quiet.appliesTo = original.appliesTo
  yields : ∀ store container,
    quiet.extract store container = ⟨(original.extract store container).reported, none⟩

/-- The extractor that hides the failures of another. -/
def Extractor.unfailing (extractor : Extractor) : Extractor :=
  .custom
    { key := extractor.key
      applies := extractor.appliesTo
      extract := fun store container => ⟨(extractor.extract store container).reported, none⟩
      holds := extractor.holds }

/-- Every extractor can be replaced by one that never fails. -/
theorem Extractor.quiets_unfailing (extractor : Extractor) : extractor.unfailing.Quiets extractor :=
  ⟨rfl, rfl, fun _ _ => rfl⟩

variable (replace : Extractor → Extractor)

namespace Descriptor

mutual

/-- The same tree with other extractors pinned where extractors were pinned. -/
def mapExtractors : Descriptor → Descriptor
  | ⟨id, form, slots, introspection, rules, extractor⟩ =>
    ⟨id, form, mapExtractorsAll slots, introspection, rules, extractor.map replace⟩

/-- The same trees with other extractors pinned. -/
def mapExtractorsAll : List Descriptor → List Descriptor
  | [] => []
  | descriptor :: rest => descriptor.mapExtractors :: mapExtractorsAll rest

end

/-- Going through the trees one by one is the usual map over a list. -/
theorem mapExtractorsAll_eq (descriptors : List Descriptor) :
    mapExtractorsAll replace descriptors = descriptors.map (mapExtractors replace) := by
  -- The induction is on the descriptors, as in the replacement itself.
  induction descriptors with
  | nil => rfl
  | cons descriptor rest mapped => rw [mapExtractorsAll, mapped, List.map_cons]

@[simp] theorem slots_mapExtractors (descriptor : Descriptor) :
    (descriptor.mapExtractors replace).slots = descriptor.slots.map (mapExtractors replace) := by
  -- In the slots of a node the extractors are replaced one slot at a time.
  obtain ⟨id, form, slots, introspection, rules, extractor⟩ := descriptor
  rw [mapExtractors]
  exact mapExtractorsAll_eq replace slots

@[simp] theorem extractor_mapExtractors (descriptor : Descriptor) :
    (descriptor.mapExtractors replace).extractor = descriptor.extractor.map replace := by
  -- The extractor of the node itself is replaced if there is one.
  obtain ⟨id, form, slots, introspection, rules, extractor⟩ := descriptor
  rw [mapExtractors]

/-- Which values are reported does not depend on what is pinned. -/
@[simp] theorem isRelevant_mapExtractors (descriptor : Descriptor) :
    (descriptor.mapExtractors replace).isRelevant = descriptor.isRelevant := by
  -- The marks of a node have nothing to do with its extractor.
  obtain ⟨id, form, slots, introspection, rules, extractor⟩ := descriptor
  rw [mapExtractors]
  rfl

mutual

/-- Neither does which values have to be opened. -/
@[simp] theorem requiresDescent_mapExtractors :
    ∀ descriptor : Descriptor,
      (descriptor.mapExtractors replace).requiresDescent = descriptor.requiresDescent
  -- A node asks its slots, and they answer as before.
  | ⟨id, form, slots, introspection, rules, extractor⟩ => by
    rw [mapExtractors, requiresDescent, requiresDescent]
    exact anyWanted_mapExtractorsAll slots

/-- Nor which of several trees are wanted. -/
theorem anyWanted_mapExtractorsAll :
    ∀ descriptors : List Descriptor,
      anyWanted (mapExtractorsAll replace descriptors) = anyWanted descriptors
  -- The induction is on the slots; the mark of each and what is below it stay.
  | [] => rfl
  | descriptor :: rest => by
    rw [mapExtractorsAll, anyWanted, anyWanted, isRelevant_mapExtractors,
      requiresDescent_mapExtractors descriptor, anyWanted_mapExtractorsAll rest]

end

@[simp] theorem isSkippable_mapExtractors (descriptor : Descriptor) :
    (descriptor.mapExtractors replace).isSkippable = descriptor.isSkippable := by
  -- What makes a node skippable is made of two answers that stay.
  simp only [isSkippable, isRelevant_mapExtractors, requiresDescent_mapExtractors]

end Descriptor

namespace Registry

/-- The same registry with other extractors, in its table and in its memory. -/
def mapExtractors (registry : Registry) : Registry :=
  ⟨registry.extractors.map replace, registry.cache.map fun entry => (entry.1, replace entry.2)⟩

/-- What is remembered under a key is replaced where it stands. -/
theorem lookup_mapExtractors (cache : List (ExtractorKey × Extractor)) (key : ExtractorKey) :
    (cache.map fun entry => (entry.1, replace entry.2)).lookup key =
      (cache.lookup key).map replace := by
  -- The induction is on the cache, whose keys stay as they are.
  induction cache with
  | nil => rfl
  | cons entry rest found =>
    obtain ⟨kept, extractor⟩ := entry
    simp only [List.map_cons, List.lookup_cons, found]
    cases key == kept <;> rfl

/-- With extractors that serve the same slots, a registry gives the replaced answers. -/
theorem answer_mapExtractors
    (serves : ∀ extractor, (replace extractor).appliesTo = extractor.appliesTo)
    (registry : Registry) (kind : Kind) (slot : Nat) :
    (registry.mapExtractors replace).answer kind slot =
      (registry.answer kind slot).map replace := by
  have tabled : (registry.mapExtractors replace).resolve? kind slot =
      (registry.resolve? kind slot).map replace := by
    rw [resolve?, resolve?, mapExtractors, ← List.map_reverse, List.find?_map]
    -- The same extractors are passed over.
    simp only [Function.comp_def, serves]
  rw [answer_eq, answer_eq, tabled, Option.map_or]
  congr 1
  exact lookup_mapExtractors replace registry.cache ⟨kind, slot⟩

end Registry

/-- The same leaf at a node with other extractors. -/
def Leaf.mapExtractors (leaf : Leaf) : Leaf :=
  { leaf with descriptor := leaf.descriptor.mapExtractors replace }

/-! ### Extractions without failures -/

namespace Extraction

/-- An extraction as it comes out with extractors that report the same and never fail. -/
def quieted (extraction : Extraction) : Extraction where
  leaves := extraction.leaves.map (Leaf.mapExtractors replace)
  errors := extraction.errors.filter (·.isDepthLimit)
  unresolved := extraction.unresolved

theorem quieted_append (first second : Extraction) :
    (first ++ second).quieted replace = first.quieted replace ++ second.quieted replace := by
  -- The leaves are mapped and the errors filtered, both part by part.
  show quieted replace (append first second) =
      append (quieted replace first) (quieted replace second)
  simp only [quieted, append, List.map_append, List.filter_append]

theorem quieted_join (extractions : List Extraction) :
    (join extractions).quieted replace = join (extractions.map (quieted replace)) := by
  -- The induction is on the extractions that are joined.
  induction extractions with
  | nil => rfl
  | cons first rest later => rw [join, quieted_append, later, List.map_cons, join]

end Extraction

namespace Scope

variable {replace} {answer quiet : Kind → Nat → Option Extractor}

/-- The leaf at a node is no matter of extractors. -/
theorem ownLeaf_quieted (descriptor : Descriptor) (value : Value) (position : Position) :
    ownLeaf (descriptor.mapExtractors replace) value position =
      (ownLeaf descriptor value position).quieted replace := by
  -- The node is relevant before and after, and its leaf holds the replaced node.
  rw [ownLeaf, ownLeaf, Descriptor.isRelevant_mapExtractors]
  split <;> rfl

/-- What is extracted from a slot is quieted if all that is behind it is. -/
theorem branch_quieted (scope : Scope) (quiets : ∀ extractor, (replace extractor).Quiets extractor)
    (answers : ∀ kind slot, quiet kind slot = (answer kind slot).map replace)
    {inside other : Descriptor → Value → Position → Extraction}
    (quieted : ∀ descriptor value position,
      other (descriptor.mapExtractors replace) value position =
        (inside descriptor value position).quieted replace)
    (container : Value) (position : Position) (descriptor : Descriptor) (slot : Nat) :
    scope.branch quiet other container position (descriptor.mapExtractors replace, slot) =
      (scope.branch answer inside container position (descriptor, slot)).quieted replace := by
  rw [branch, branch]
  dsimp only
  -- The same slots are skipped, and the extractor that is found is the quiet one.
  rw [Descriptor.isSkippable_mapExtractors, Descriptor.extractor_mapExtractors, answers,
    ← Option.map_or]
  split
  · rfl
  · cases descriptor.extractor.or (answer container.kind slot) with
    | none => rfl
    | some extractor =>
      -- The failure is the only thing that is missing.
      have silenced : (failures container slot position
          (extractor.extract scope.store container).failure).quieted replace = .none := by
        cases (extractor.extract scope.store container).failure <;> rfl
      simp only [Option.map_some, (quiets extractor).yields, Extraction.quieted_append, silenced,
        Extraction.quieted_join, List.map_map, Function.comp_def, quieted]
      rfl

/-- With quiet extractors, an extraction comes out without failures. -/
theorem collect_quieted (scope : Scope) (quiets : ∀ extractor, (replace extractor).Quiets extractor)
    (answers : ∀ kind slot, quiet kind slot = (answer kind slot).map replace) (room : Nat)
    (descriptor : Descriptor) (value : Value) (position : Position) :
    scope.collect quiet room (descriptor.mapExtractors replace) value position =
      (scope.collect answer room descriptor value position).quieted replace := by
  -- Both extractions open the same values, and go on from the same reports.
  induction room generalizing descriptor value position with
  | zero =>
    -- At the limit both are stopped or neither.
    rw [collect, collect, ownLeaf_quieted, Extraction.quieted_append,
      Descriptor.requiresDescent_mapExtractors]
    congr 1
    split <;> rfl
  | succ room below =>
    rw [collect_succ, collect_succ, ownLeaf_quieted, Extraction.quieted_append]
    congr 1
    split
    · rfl
    -- Slot by slot the branches are quieted.
    · rw [Extraction.quieted_join, Descriptor.slots_mapExtractors, List.zipIdx_map, List.map_map,
        List.map_map]
      congr 1
      refine List.map_congr_left fun slot _ => ?_
      exact scope.branch_quieted quiets answers below value position slot.1 slot.2

/-- The failure of an extractor is isolated: quieting it changes only the errors. -/
theorem extract_isolates_failures (scope : Scope)
    (quiets : ∀ extractor, (replace extractor).Quiets extractor) (descriptor : Descriptor)
    (root : Value) (registry : Registry) :
    let original := (scope.extract descriptor root registry).1
    let quiet := (scope.extract (descriptor.mapExtractors replace) root
      (registry.mapExtractors replace)).1
    -- What is found and what is unserved stay the same, in the same order.
    quiet.leaves = original.leaves.map (Leaf.mapExtractors replace) ∧
    quiet.unresolved = original.unresolved ∧
    quiet.errors = original.errors.filter (·.isDepthLimit) ∧
    -- All errors but those of the limit stand for one failing call each.
    ∃ calls : List (Branch × ExtractorFailure), calls.Nodup ∧
      (∀ branch failure, (branch, failure) ∈ calls ↔
        branch.Stands scope.store registry.answer descriptor root ∧
          branch.links.length < scope.limit ∧
            branch.failure? scope.store registry.answer root = some failure) ∧
      original.errors.filter (!·.isDepthLimit) = calls.map fun call =>
        call.1.error root call.2 := by
  -- Extraction is quieted level by level, so both runs go in lock-step.
  intro original quiet
  have answers : ∀ kind slot, (registry.mapExtractors replace).answer kind slot =
      (registry.answer kind slot).map replace := by
    intro kind slot
    exact registry.answer_mapExtractors replace
      (fun extractor => (quiets extractor).applies) kind slot
  have same : quiet = original.quieted replace := by
    simp only [quiet, original, extract_eq_collect]
    exact scope.collect_quieted quiets answers scope.limit descriptor root .root
  rw [same]
  exact ⟨rfl, rfl, rfl, scope.exists_failing_calls descriptor root registry⟩

end Scope

/-! ### An extractor that gives up -/

namespace Leak

def kind : Kind := .sequence

/-- Reports the items of a collection and then gives up. -/
def leaky : Extractor :=
  .custom
    { key := ⟨kind, 0⟩
      extract := fun store container =>
        ⟨(BuiltinExtractor.sequenceElement.extract store container).reported,
          some (.failed "worn out")⟩ }

def outer : Collection := ⟨⟨0⟩, kind, by decide⟩

def inner : Collection := ⟨⟨1⟩, kind, by decide⟩

/-- A sequence of a sequence of a text and the outer sequence. -/
def store : Store where
  cells := #[
    some (.items [.node (.collection inner)]),
    some (.items [.text "drop", .node (.collection outer)])]
  running := ⟨0⟩

/-- Nested sequences of texts, with the leaky extractor pinned on the innermost ones. -/
def descriptor : Descriptor :=
  let texts := (Descriptor.simple ⟨0⟩ .text).withDeclaredRules
  -- Only there it is pinned; the sequences around them find the registered one.
  let lines := (Descriptor.parameterized ⟨1⟩ kind [texts]).withDeclaredRules.withExtractor leaky
  .parameterized ⟨2⟩ kind [.parameterized ⟨3⟩ kind [lines]]

def registry : Registry := Registry.withDefaults.register leaky

end Leak

/-- Two levels down both calls have failed, and what they had reported are leaves all the same. -/
theorem extract_isolates_leaks :
    let scope : Scope := ⟨Leak.store, 2⟩
    let value := Value.node (.collection Leak.outer)
    let original := (scope.extract Leak.descriptor value Leak.registry).1
    let quiet := (scope.extract (Leak.descriptor.mapExtractors Extractor.unfailing) value
      (Leak.registry.mapExtractors Extractor.unfailing)).1
    (∀ extractor : Extractor, extractor.unfailing.Quiets extractor) ∧
      quiet.leaves = original.leaves.map (Leaf.mapExtractors Extractor.unfailing) ∧
      original.leaves.length = 2 ∧
      quiet.errors = original.errors.filter (·.isDepthLimit) ∧
      original.errors.length = 4 ∧ quiet.errors.length = 2 := by
  -- Quieting serves every extractor here, and what is left can be counted.
  intro scope value original quiet
  obtain ⟨leaves, _, errors, _⟩ := scope.extract_isolates_failures Extractor.quiets_unfailing
    Leak.descriptor value Leak.registry
  exact ⟨Extractor.quiets_unfailing, leaves, by decide, errors, by decide, by decide⟩

end GraphRules
