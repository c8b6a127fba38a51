import GraphRules.Extraction
import GraphRules.Proofs.Descriptor.Descent

/-! Extraction without the memory of the registry, as a function of the answers alone. -/

namespace GraphRules

namespace Registry

/-- What a registry answers for a slot of containers of a kind. -/
def answer (registry : Registry) (kind : Kind) (slot : Nat) : Option Extractor :=
  (registry.find kind slot).1

/-- An answer comes from memory or, failing that, from the table. -/
theorem answer_eq (registry : Registry) (kind : Kind) (slot : Nat) :
    registry.answer kind slot =
      (registry.cache.lookup ⟨kind, slot⟩).or (registry.resolve? kind slot) := by
  -- The table is searched only when nothing is remembered.
  unfold answer find
  cases registry.cache.lookup ⟨kind, slot⟩ with
  | some extractor => rfl
  | none => cases registry.resolve? kind slot <;> rfl

/-- Whether it finds anything or not, a search leaves all answers as they were. -/
theorem answer_find (registry : Registry) (kind : Kind) (slot : Nat) :
    (registry.find kind slot).2.answer = registry.answer := by
  cases remembered : registry.cache.lookup ⟨kind, slot⟩ with
  | some extractor =>
    -- What is remembered is not remembered again.
    simp [find, remembered]
  | none =>
    cases resolved : registry.resolve? kind slot with
    | none =>
      -- A search that fails is not remembered.
      simp [find, remembered, resolved]
    | some extractor =>
      funext other place
      have found : (registry.find kind slot).2 =
          { registry with cache := registry.cache ++ [(⟨kind, slot⟩, extractor)] } := by
        simp [find, remembered, resolved]
      rw [found, answer_eq, answer_eq, List.lookup_append]
      show (((registry.cache.lookup ⟨other, place⟩).or _).or (registry.resolve? other place)) = _
      -- The new entry is asked for only under its own key, where the table says the same.
      by_cases same : (⟨other, place⟩ : ExtractorKey) = ⟨kind, slot⟩
      · obtain ⟨rfl, rfl⟩ := ExtractorKey.mk.inj same
        simp [remembered, resolved]
      · simp [List.lookup_cons, beq_eq_false_iff_ne.mpr same]

/-- A node asks for its pinned extractor first, and the registry for the rest. -/
theorem findFor_fst (registry : Registry) (descriptor : Descriptor) (kind : Kind) (slot : Nat) :
    (registry.findFor descriptor kind slot).1 =
      descriptor.extractor.or (registry.answer kind slot) := by
  -- The registry is asked only when nothing is pinned.
  unfold findFor
  cases descriptor.extractor <;> rfl

/-- Asking for the extractor of a node leaves all answers as they were. -/
theorem answer_findFor (registry : Registry) (descriptor : Descriptor) (kind : Kind) (slot : Nat) :
    (registry.findFor descriptor kind slot).2.answer = registry.answer := by
  -- A pinned extractor is not looked up, and a look-up changes no answer.
  unfold findFor
  cases descriptor.extractor with
  | some extractor => rfl
  | none => exact registry.answer_find kind slot

end Registry

namespace Extraction

/-- Extractions one after the other. -/
def join : List Extraction → Extraction
  | [] => .none
  | first :: rest => first ++ join rest

@[simp] theorem leaves_append (first second : Extraction) :
    (first ++ second).leaves = first.leaves ++ second.leaves := rfl

@[simp] theorem errors_append (first second : Extraction) :
    (first ++ second).errors = first.errors ++ second.errors := rfl

@[simp] theorem unresolved_append (first second : Extraction) :
    (first ++ second).unresolved = first.unresolved ++ second.unresolved := rfl

@[simp] theorem none_append (extraction : Extraction) : none ++ extraction = extraction := rfl

@[simp] theorem append_none (extraction : Extraction) : extraction ++ none = extraction := by
  -- Each of the three lists is extended by nothing.
  show append extraction none = extraction
  simp [append, none]

/-- Joined extractions have the leaves, errors and unserved slots of all of them in order. -/
theorem join_eq (extractions : List Extraction) :
    join extractions =
      ⟨extractions.flatMap (·.leaves), extractions.flatMap (·.errors),
        extractions.flatMap (·.unresolved)⟩ := by
  -- The induction is on the extractions, and each is put in front of those joined before.
  induction extractions with
  | nil => rfl
  | cons first rest later =>
    rw [join, later]
    rfl

theorem leaves_join (extractions : List Extraction) :
    (join extractions).leaves = extractions.flatMap (·.leaves) := by
  -- The three parts of a join are read off together.
  rw [join_eq]

theorem errors_join (extractions : List Extraction) :
    (join extractions).errors = extractions.flatMap (·.errors) := by
  -- The three parts of a join are read off together.
  rw [join_eq]

theorem unresolved_join (extractions : List Extraction) :
    (join extractions).unresolved = extractions.flatMap (·.unresolved) := by
  -- The three parts of a join are read off together.
  rw [join_eq]

/-- Nothing is found where nothing is joined. -/
theorem join_of_none {extractions : List Extraction} (empty : ∀ found ∈ extractions, found = none) :
    join extractions = none := by
  -- An empty extraction in front adds nothing.
  induction extractions with
  | nil => rfl
  | cons first rest later =>
    rw [join, empty first List.mem_cons_self, none_append]
    exact later fun found listed => empty found (List.mem_cons_of_mem _ listed)

end Extraction

namespace Scope

/-- The leaf at a node, if the node is relevant. -/
def ownLeaf (descriptor : Descriptor) (value : Value) (position : Position) : Extraction :=
  if descriptor.isRelevant then .ofLeaf ⟨descriptor, value, position⟩ else .none

/-- What is extracted from a slot of a container, given what is extracted from a value in it. -/
def branch (scope : Scope) (answer : Kind → Nat → Option Extractor)
    (inside : Descriptor → Value → Position → Extraction) (container : Value) (position : Position)
    (slot : Descriptor × Nat) : Extraction :=
  if slot.1.isSkippable then .none
  else
    match slot.1.extractor.or (answer container.kind slot.2) with
    | some extractor =>
      let yield := extractor.extract scope.store container
      failures container slot.2 position yield.failure ++
        .join (yield.reported.map fun reported =>
          inside slot.1 reported.value (position.inside container slot.2 reported))
    | none => .ofUnresolved ⟨container.kind, slot.2⟩

/-- Extracts a value at a node from fixed answers, where so many more levels may be opened. -/
def collect (scope : Scope) (answer : Kind → Nat → Option Extractor) :
    (room : Nat) → Descriptor → Value → Position → Extraction
  | room, descriptor, value, position =>
    ownLeaf descriptor value position ++
      if value.isNull || !descriptor.requiresDescent then .none
      else match room with
        | 0 => .ofError (.depthExceeded scope.limit position.path)
        | room + 1 => .join (descriptor.slots.zipIdx.map
            (scope.branch answer (scope.collect answer room) value position))

/-- One level of an extraction above the limit. -/
theorem collect_succ (scope : Scope) (answer : Kind → Nat → Option Extractor) (room : Nat)
    (descriptor : Descriptor) (value : Value) (position : Position) :
    scope.collect answer (room + 1) descriptor value position =
      ownLeaf descriptor value position ++
        if value.isNull then .none
        else .join (descriptor.slots.zipIdx.map
          (scope.branch answer (scope.collect answer room) value position)) := by
  -- Whether the node has to be opened makes no difference: if not, all of its slots are skipped.
  rw [collect]
  congr 1
  cases null : value.isNull with
  | true => rfl
  | false =>
    cases opened : descriptor.requiresDescent with
    | true => rfl
    | false =>
      refine (Extraction.join_of_none fun found listed => ?_).symm
      obtain ⟨⟨inner, slot⟩, numbered, rfl⟩ := List.mem_map.mp listed
      have slotted := List.mem_zipIdx_iff_getElem?.mp numbered
      -- A slot that may not be skipped would have to be opened.
      have skipped : inner.isSkippable = true := by
        cases wanted : inner.isSkippable with
        | true => rfl
        | false => simp [Descriptor.requiresDescent_of_slot slotted wanted] at opened
      simp [branch, skipped]

/-- A program over registries that gives a fixed result and leaves all answers as they were. -/
def Steady (registry : Registry) (outcome : Extraction × Registry) (extraction : Extraction) :
    Prop :=
  outcome.1 = extraction ∧ outcome.2.answer = registry.answer

/-- Extractions in sequence are joined when each of them is steady. -/
theorem steady_sequence {Input : Type} {extract : Input → Registry → Extraction × Registry}
    {result : Input → Extraction} {answer : Kind → Nat → Option Extractor}
    (steady : ∀ input registry, registry.answer = answer →
      Steady registry (extract input registry) (result input))
    (inputs : List Input) {registry : Registry} (agrees : registry.answer = answer) :
    Steady registry (sequence extract inputs registry) (.join (inputs.map result)) := by
  -- Each extraction starts from a registry that gives the same answers as the first.
  induction inputs generalizing registry with
  | nil => exact ⟨rfl, rfl⟩
  | cons input rest later =>
    -- The first extraction hands on a registry with the same answers.
    obtain ⟨first, kept⟩ := steady input registry agrees
    obtain ⟨others, keptRest⟩ := later (kept.trans agrees)
    simp only [sequence, List.map_cons, Extraction.join]
    exact ⟨by rw [first, others], keptRest.trans kept⟩

/-- The slots of a container are extracted one after the other, if each is steadily. -/
theorem steady_visitSlots {scope : Scope} {answer : Kind → Nat → Option Extractor}
    (inside : Descriptor → Value → Position → Extraction) {container : Value}
    {position : Position} {level : Level position}
    (steady : ∀ descriptor slot reported registry, registry.answer = answer →
      Steady registry
        (scope.visit descriptor reported.value (position.inside container slot reported)
          (level.inside container slot reported) registry)
        (inside descriptor reported.value (position.inside container slot reported)))
    (slots : List Descriptor) (slot : Nat) {registry : Registry}
    (agrees : registry.answer = answer) :
    Steady registry (scope.visitSlots slots slot container position level registry)
      (.join ((slots.zipIdx slot).map (scope.branch answer inside container position))) := by
  induction slots generalizing slot registry with
  | nil => exact ⟨by simp [visitSlots, Extraction.join], by simp [visitSlots]⟩
  | cons descriptor rest later =>
    rw [visitSlots, List.zipIdx_cons, List.map_cons, Extraction.join]
    by_cases skipped : descriptor.isSkippable = true
    · -- A slot that is skipped asks the registry for nothing.
      simpa [branch, skipped] using later (slot + 1) agrees
    · -- The registry that was asked for the extractor still gives the same answers.
      have asked := registry.findFor_fst descriptor container.kind slot
      have kept := registry.answer_findFor descriptor container.kind slot
      simp only [branch, skipped]
      rw [agrees] at asked
      cases found : descriptor.extractor.or (answer container.kind slot) with
      | none =>
        -- Nothing serves the slot, and the next one is extracted.
        obtain ⟨others, keptRest⟩ := later (slot + 1) (kept.trans agrees)
        simp only [found] at asked
        simp only [asked]
        exact ⟨by simp [others], by simpa using keptRest.trans kept⟩
      | some extractor =>
        simp only [found] at asked
        simp only [asked]
        -- All that is reported is extracted before the next slot is.
        obtain ⟨inner, keptInner⟩ := steady_sequence (steady descriptor slot)
          (extractor.extract scope.store container).reported (kept.trans agrees)
        obtain ⟨others, keptRest⟩ := later (slot + 1) ((keptInner.trans kept).trans agrees)
        refine ⟨by simp [inner, others], ?_⟩
        simpa using keptRest.trans (keptInner.trans kept)

/-- One level of an extraction, which opens no container where the path is as long as the limit. -/
theorem visit_eq (scope : Scope) (descriptor : Descriptor) (value : Value) (position : Position)
    (level : Level position) (registry : Registry) :
    scope.visit descriptor value position level registry =
      if value.isNull || !descriptor.requiresDescent then
        (ownLeaf descriptor value position, registry)
      else if scope.limit ≤ position.path.depth then
        (ownLeaf descriptor value position ++
          .ofError (.depthExceeded scope.limit position.path), registry)
      else
        let inner := scope.visitSlots descriptor.slots 0 value position level registry
        (ownLeaf descriptor value position ++ inner.1, inner.2) := by
  -- The function takes the node apart by its fields, and asks the level how deep it is.
  obtain ⟨id, form, slots, introspection, rules, extractor⟩ := descriptor
  rw [visit, level.counted]
  rfl

/-- An extraction gives what its fixed answers give, and leaves them as they were. -/
theorem steady_visit (scope : Scope) (descriptor : Descriptor) (value : Value) (position : Position)
    (level : Level position) (registry : Registry) :
    Steady registry (scope.visit descriptor value position level registry)
      (scope.collect registry.answer (scope.limit - position.path.depth) descriptor value
        position) := by
  generalize agrees : registry.answer = answer
  -- The induction is on how many more levels may be opened.
  induction room : scope.limit - position.path.depth
    generalizing descriptor value position level registry with
  | zero =>
    -- At the limit nothing is opened, whatever the node asks for.
    have limited : scope.limit ≤ position.path.depth := by omega
    rw [visit_eq, collect]
    by_cases closed : (value.isNull || !descriptor.requiresDescent) = true
    · exact ⟨by simp [closed], by simp [closed]⟩
    · exact ⟨by simp [closed, limited], by simp [closed, limited]⟩
  | succ deeper later =>
    have below : ¬scope.limit ≤ position.path.depth := by omega
    rw [visit_eq, collect]
    by_cases closed : (value.isNull || !descriptor.requiresDescent) = true
    · exact ⟨by simp [closed], by simp [closed]⟩
    · -- Values in the container stand one level deeper, where the induction applies.
      have inner :
          Steady registry (scope.visitSlots descriptor.slots 0 value position level registry) _ :=
        steady_visitSlots (scope.collect answer deeper) (fun inner slot reported other same =>
          later inner reported.value _ _ other same (by rw [Position.depth_inside]; omega))
          _ 0 agrees
      exact ⟨by simp [closed, below, inner.1], by simp [closed, below, inner.2]⟩

/-- The result of an extraction follows from the answers of the registry. -/
theorem extract_eq_collect (scope : Scope) (descriptor : Descriptor) (root : Value)
    (registry : Registry) :
    (scope.extract descriptor root registry).1 =
      scope.collect registry.answer scope.limit descriptor root .root :=
  (scope.steady_visit descriptor root .root .root registry).1

end Scope

end GraphRules
