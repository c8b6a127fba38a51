import GraphRules.Proofs.Basic
import GraphRules.Proofs.Extraction.Depth
import GraphRules.Proofs.Registry.Dispatch

/-! One level of extraction by the built-in extractors, which shows what a container holds. -/

namespace GraphRules

/-- Values that are taken out of something are reported under one name. -/
theorem Yield.plain_map {Entry : Type} (name : String) (entries : List Entry)
    (take : Entry → Value) :
    Yield.plain name (entries.map take) =
      ⟨entries.map fun entry => ⟨name, none, take entry⟩, none⟩ := by
  -- What is reported is built entry by entry, so both ways of mapping agree.
  rw [Yield.plain, List.map_map]
  rfl

namespace Value

/-- No family registered after that of the value's shape claims the kind of the value. -/
def Foremost (value : Value) : Prop :=
  -- What is in no family is then claimed by none.
  ∀ family : ContainerFamily, family.claims value.kind = true →
    ∃ own, value.family? = some own ∧ family.rank ≤ own.rank

/-- What a container shows in a slot, going by its shape alone, if the shape has the slot. -/
def shown? (store : Store) (value : Value) (slot : Nat) : Option (List Reported) :=
  match value, slot with
  -- Items are numbered from zero on, in the order of iteration.
  | .node (.collection collection), 0 =>
    let name :=
      if collection.kind.isAssignableTo .sequence then "<list element>" else "<iterable element>"
    some ((store.items collection).zipIdx.map fun (item, index) => ⟨name, some index, item⟩)
  | .node (.array array), 0 =>
    some ((store.itemsAt array.id).zipIdx.map fun (item, index) =>
      ⟨"<array element>", some index, item⟩)
  -- The two sides of a map have a slot each, and no numbers.
  | .node (.map map), 0 => some ((store.entries map).map fun (key, _) => ⟨"<map key>", none, key⟩)
  | .node (.map map), 1 =>
    some ((store.entries map).map fun (_, stored) => ⟨"<map value>", none, stored⟩)
  -- A box shows its payload, if it has any.
  | .vacant, 0 => some []
  | .present payload, 0 => some [⟨"<optional value>", none, payload⟩]
  | .strong referent, 0 => some [⟨"<reference value>", none, referent⟩]
  | .weak target, 0 =>
    some ((store.upgrade? target).toList.map fun referent => ⟨"<reference value>", none, referent⟩)
  -- Where the running thread has bound nothing, there is null.
  | .node (.threadScoped box), 0 =>
    some [⟨"<thread-scoped value>", none, (store.binding? box).getD .null⟩]
  | _, _ => none

/-- What is claimed by no later family is overtaken in no slot. -/
theorem Foremost.not_overtaken {value : Value} (foremost : value.Foremost) (slot : Nat) :
    ¬value.Overtaken slot := by
  -- An overtaking family would come later than the last one that claims the kind.
  rintro ⟨family, _, claimed, later⟩
  obtain ⟨own, shape, before⟩ := foremost family claimed
  exact absurd (later own shape) (Nat.not_lt.mpr before)

/-- Only the slots of a family show anything. -/
theorem family_of_shown? {store : Store} {value : Value} {slot : Nat} {reported : List Reported}
    (shown : value.shown? store slot = some reported) :
    ∃ own, value.family? = some own ∧ slot < own.slots := by
  unfold shown? at shown
  dsimp only at shown
  -- Each shape that shows something belongs to a family that has the slot.
  split at shown <;> first | exact ⟨_, rfl, by decide⟩ | cases shown

/-- An extractor of a value's own family reports what the slot shows. -/
theorem report?_eq_shown {value : Value} {slot : Nat} {extractor : BuiltinExtractor}
    (covered : extractor.key.covers value.kind slot = true)
    (shape : value.family? = some extractor.family)
    (plain : extractor = .iterableElement → value.kind.isAssignableTo .sequence = false)
    (store : Store) :
    ∃ reported, value.shown? store slot = some reported ∧
      extractor.report? store value = some ⟨reported, none⟩ := by
  rw [ExtractorKey.covers, Bool.and_eq_true, beq_iff_eq] at covered
  obtain ⟨rfl, fits⟩ := covered
  cases value with
  | node handle =>
    cases handle with
    | collection collection =>
      cases extractor with
      | iterableElement =>
        -- Only here two extractors of a family go by different names.
        have other : collection.kind.isAssignableTo .sequence = false := plain rfl
        exact ⟨_, rfl, by rw [other]; rfl⟩
      | sequenceElement =>
        have same : collection.kind.isAssignableTo .sequence = true := fits
        exact ⟨_, rfl, by rw [same]; rfl⟩
      | _ => cases shape
    | map map =>
      -- The sides are taken out of the entries before they are reported.
      cases extractor with
      | mapKey => exact ⟨_, rfl, congrArg some (Yield.plain_map _ _ _)⟩
      | mapValue => exact ⟨_, rfl, congrArg some (Yield.plain_map _ _ _)⟩
      | dictionaryKey => exact ⟨_, rfl, congrArg some (Yield.plain_map _ _ _)⟩
      | dictionaryValue => exact ⟨_, rfl, congrArg some (Yield.plain_map _ _ _)⟩
      | _ => cases shape
    | _ => cases extractor <;> first | exact ⟨_, rfl, rfl⟩ | cases shape
  | _ => cases extractor <;> first | exact ⟨_, rfl, rfl⟩ | cases shape

end Value

namespace BuiltinExtractor

/-- The extractor for sequences is registered after that for iterables. -/
theorem sequenceElement_after {before after : List BuiltinExtractor}
    (split : all = before ++ iterableElement :: after) : sequenceElement ∈ after := by
  cases before with
  | nil =>
    obtain ⟨_, rfl⟩ := List.cons.inj split
    decide
  | cons first rest =>
    -- The extractor for iterables is registered once only, in front.
    have again : iterableElement ∈ all.tail := by
      rw [split]
      exact List.mem_append_right rest List.mem_cons_self
    exact absurd again (by decide)

end BuiltinExtractor

namespace Registry

variable {uses : List RegistryUse}

/-- On a container that no later family claims, a slot shows what its extractor reports. -/
theorem answer_shows (unregistered : uses.filterMap RegistryUse.registered? = []) {value : Value}
    (foremost : value.Foremost) (store : Store) (slot : Nat) :
    -- Where the shape has no such slot, there is no extractor either.
    (((make true).afterUses uses).answer value.kind slot).map (·.extract store value) =
      (value.shown? store slot).map (⟨·, none⟩) := by
  cases found : ((make true).afterUses uses).answer value.kind slot with
  | none =>
    -- If the slot showed anything, the family of the value would serve it.
    have idle := unserved_of_find unregistered found
    cases shown : value.shown? store slot with
    | none => rfl
    | some reported =>
      obtain ⟨own, shape, within⟩ := Value.family_of_shown? shown
      obtain ⟨extractor, listed, _, serves⟩ :=
        BuiltinExtractor.exists_covers within (Value.claims_of_family? shape)
      exact absurd serves (by simp [idle extractor listed])
  | some extractor =>
    -- What is found is of the last family that serves the slot, which is the value's own.
    obtain ⟨builtin, before, after, rfl, covered, split, idle⟩ := split_of_find unregistered found
    obtain ⟨other, same, _, last⟩ := builtin_of_find unregistered found
    obtain rfl := Extractor.builtin.inj same
    have opens :=
      (Value.isSome_report?_of_last covered last store).mpr (foremost.not_overtaken slot)
    have shape := (Value.isSome_report? covered store).mp opens
    have plain : builtin = .iterableElement → value.kind.isAssignableTo .sequence = false := by
      rintro rfl
      -- The extractor for sequences would go before the one that was found.
      have later := idle _ (BuiltinExtractor.sequenceElement_after split)
      rw [ExtractorKey.covers, Bool.and_eq_true, beq_iff_eq] at covered
      obtain ⟨rfl, _⟩ := covered
      simpa [ExtractorKey.covers, BuiltinExtractor.key] using later
    obtain ⟨reported, shown, reports⟩ := Value.report?_eq_shown covered shape plain store
    have made : builtin.extract store value = ⟨reported, none⟩ := by
      rw [BuiltinExtractor.extract, reports, Option.getD_some]
    rw [shown, Option.map_some, Option.map_some, ← made]
    rfl

end Registry

/-- A relevant node without slots and without an extractor of its own. -/
structure Descriptor.RelevantEnd (descriptor : Descriptor) : Prop where
  relevant : descriptor.isRelevant = true
  bare : descriptor.slots = []
  unpinned : descriptor.extractor = none

namespace Scope

/-- A value at a node without slots is a leaf and nothing else. -/
theorem collect_of_end {scope : Scope} {answer : Kind → Nat → Option Extractor}
    {descriptor : Descriptor}
    (ending : descriptor.RelevantEnd) (room : Nat) (value : Value) (position : Position) :
    scope.collect answer room descriptor value position =
      .ofLeaf ⟨descriptor, value, position⟩ := by
  -- A relevant end has no slots, so it is not opened, and shows itself.
  have closed : descriptor.requiresDescent = false := by
    rw [Bool.eq_false_iff, Ne, Descriptor.requiresDescent_iff, ending.bare]
    exact fun ⟨inner, listed, _⟩ => absurd listed List.not_mem_nil
  rw [scope.collect_of_closed (by rw [closed, Bool.not_false, Bool.or_true]), ownLeaf,
    if_pos ending.relevant]

/-- What a slot comes to where its values are leaves: all that it shows, or an unserved slot. -/
def slotLevel (store : Store) (value : Value) (argument : Descriptor) (slot : Nat) :
    Extraction where
  leaves := ((value.shown? store slot).getD []).map fun reported =>
    ⟨argument, reported.value, Position.root.inside value slot reported⟩
  errors := []
  unresolved := if (value.shown? store slot).isNone then [⟨value.kind, slot⟩] else []

/-- What is extracted from a slot with values of a simple type. -/
theorem branch_of_end {scope : Scope} {answer : Kind → Nat → Option Extractor}
    {argument : Descriptor} (ending : argument.RelevantEnd) {value : Value} {slot : Nat}
    (shows : (answer value.kind slot).map (·.extract scope.store value) =
      (value.shown? scope.store slot).map (⟨·, none⟩)) (room : Nat) :
    scope.branch answer (scope.collect answer room) value .root (argument, slot) =
      slotLevel scope.store value argument slot := by
  have wanted : argument.isSkippable = false :=
    Descriptor.not_skippable_iff.mpr (.inl ending.relevant)
  rw [branch, wanted, if_neg Bool.false_ne_true, ending.unpinned, Option.none_or, slotLevel]
  cases served : answer value.kind slot with
  | none =>
    -- Nothing serves the slot, so it shows nothing and is unserved.
    rw [served, Option.map_none] at shows
    rw [Option.map_eq_none_iff.mp shows.symm]
    rfl
  | some extractor =>
    rw [served, Option.map_some] at shows
    obtain ⟨reported, shown, yields⟩ := Option.map_eq_some_iff.mp shows.symm
    -- The extractor does not fail, and every value that it reports is a leaf.
    simp only [shown, ← yields, collect_of_end ending, failures, Extraction.none_append,
      Extraction.join_eq, List.flatMap_map]
    simp [Extraction.ofLeaf, List.map_eq_flatMap]

/-- One level of extraction by the built-in extractors lists what the container shows, in order. -/
theorem extract_one_level {uses : List RegistryUse}
    (unregistered : uses.filterMap RegistryUse.registered? = []) (scope : Scope)
    (usable : 0 < scope.limit) {value : Value} (present : value.isNull = false)
    (foremost : value.Foremost) {descriptor : Descriptor}
    (ends : ∀ argument ∈ descriptor.slots, argument.RelevantEnd) :
    let found := (scope.extract descriptor value ((Registry.make true).afterUses uses)).1
    found.leaves =
      -- The root comes first, if its node is relevant, and then slot by slot what is shown.
      (if descriptor.isRelevant then [⟨descriptor, value, .root⟩] else []) ++
        (descriptor.slots.zipIdx.flatMap fun (argument, slot) =>
          ((value.shown? scope.store slot).getD []).map fun reported =>
            ⟨argument, reported.value, Position.root.inside value slot reported⟩) ∧
      found.errors = [] ∧
      -- A slot that the shape of the container does not have is unserved.
      found.unresolved =
        ((List.range descriptor.slots.length).filter fun slot =>
          (value.shown? scope.store slot).isNone).map (⟨value.kind, ·⟩) := by
  intro found
  obtain ⟨room, limit⟩ : ∃ room, scope.limit = room + 1 :=
    Nat.exists_eq_succ_of_ne_zero (Nat.ne_of_gt usable)
  let answer := ((Registry.make true).afterUses uses).answer
  -- Each slot is a branch to relevant ends, and comes to what it shows.
  have slotwise : descriptor.slots.zipIdx.map
        (scope.branch answer (scope.collect answer room) value .root) =
      descriptor.slots.zipIdx.map fun (argument, slot) =>
        slotLevel scope.store value argument slot := by
    refine List.map_congr_left fun ⟨argument, slot⟩ numbered => ?_
    have listed := List.mem_of_getElem? (List.mem_zipIdx_iff_getElem?.mp numbered)
    exact branch_of_end (ends argument listed)
      (Registry.answer_shows unregistered foremost scope.store slot) room
  -- So the extraction is the root's own leaf and these slots.
  have level : found = ownLeaf descriptor value .root ++ .join
      (descriptor.slots.zipIdx.map fun (argument, slot) =>
        slotLevel scope.store value argument slot) := by
    simp only [found, extract_eq_collect, limit, collect_succ, present]
    rw [← slotwise]
    rfl
  -- The three parts are read off the join.
  rw [level, Extraction.leaves_append, Extraction.errors_append, Extraction.unresolved_append,
    errors_ownLeaf, unresolved_ownLeaf, Extraction.join_eq, List.flatMap_map, List.flatMap_map,
    List.flatMap_map, List.nil_append, List.nil_append]
  refine ⟨congrArg₂ _ ?leaves rfl, List.flatMap_eq_nil_iff.mpr fun _ _ => rfl, ?unresolved⟩
  case leaves =>
    unfold ownLeaf
    split <;> rfl
  case unresolved =>
    -- Of a slot, only its number is left.
    rw [List.range_eq_range', ← List.zipIdx_map_snd 0 descriptor.slots, ← Lists.flatMap_if,
      List.flatMap_map]
    rfl

end Scope

/-! ### The entries of a hashtable -/

namespace Hashtable

/-- A hashtable, which is a map and a dictionary. -/
def table : Map := ⟨⟨0⟩, hashtableKind, by decide⟩

def store : Store where
  cells := #[some (.entries [(.text "a", .null), (.text "b", .boolean true)])]
  running := ⟨0⟩

/-- A type with one slot more than maps have. -/
def descriptor : Descriptor :=
  .parameterized ⟨3⟩ .object [(Descriptor.simple ⟨0⟩ .text).withDeclaredRules,
    (Descriptor.simple ⟨1⟩ .boolean).cascaded, (Descriptor.simple ⟨2⟩ .text).withDeclaredRules]

theorem foremost : (Value.node (.map table)).Foremost := by
  intro family claimed
  refine ⟨.keyed, rfl, ?_⟩
  -- Of all families, only that of the maps claims the kind.
  revert claimed
  cases family <;> decide

theorem ends : ∀ argument ∈ descriptor.slots, argument.RelevantEnd := by
  -- There are three arguments, each a simple one with rules.
  intro argument listed
  simp only [descriptor, Descriptor.parameterized, Descriptor.plain, List.mem_cons,
    List.not_mem_nil, or_false] at listed
  rcases listed with rfl | rfl | rfl <;> exact ⟨rfl, rfl, rfl⟩

end Hashtable

/-- A hashtable shows its keys and then its values, and its third slot is unserved. -/
theorem extract_one_level_hashtable :
    let uses : List RegistryUse := [.call (.find hashtableKind 0)]
    let value := Value.node (.map Hashtable.table)
    let found := (Scope.extract ⟨Hashtable.store, 1⟩ Hashtable.descriptor value
      ((Registry.make true).afterUses uses)).1
    uses.filterMap RegistryUse.registered? = [] ∧ value.isNull = false ∧ value.Foremost ∧
      (∀ argument ∈ Hashtable.descriptor.slots, argument.RelevantEnd) ∧
      found.leaves.map (·.value) = [.text "a", .text "b", .null, .boolean true] ∧
      found.leaves.map (·.path.text) = ["<map key>", "<map key>", "<map value>", "<map value>"] ∧
      found.errors = [] ∧ found.unresolved = [⟨hashtableKind, 2⟩] := by
  -- Registering nothing leaves the defaults, and each part of the result can be evaluated.
  intro uses value found
  have unregistered : uses.filterMap RegistryUse.registered? = [] := rfl
  have present : value.isNull = false := rfl
  obtain ⟨leaves, errors, unresolved⟩ := Scope.extract_one_level unregistered ⟨Hashtable.store, 1⟩
    Nat.one_pos present Hashtable.foremost Hashtable.ends
  refine ⟨unregistered, present, Hashtable.foremost, Hashtable.ends, ?_, ?_, errors, ?_⟩
  · rw [show found.leaves = _ from leaves]
    decide
  · rw [show found.leaves = _ from leaves]
    decide
  · rw [show found.unresolved = _ from unresolved]
    decide

end GraphRules
