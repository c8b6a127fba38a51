import GraphRules.Proofs.Kind.Order
import GraphRules.Proofs.Registry.Memory

/-! Dispatch by kind against the shape of a value: the last family that claims the kind decides. -/

namespace GraphRules

/-- The containers that the same built-in extractors open, in the order of registration. -/
inductive ContainerFamily
  | elements
  | array
  | keyed
  | optional
  | reference
  | threadScoped
deriving DecidableEq

namespace ContainerFamily

/-- The place of a family in the order of registration. -/
def rank : ContainerFamily → Nat
  | elements => 0
  | array => 1
  | keyed => 2
  | optional => 3
  | reference => 4
  | threadScoped => 5

/-- The kinds below which a family looks for its containers. -/
def heads : ContainerFamily → List Kind
  | elements => [.iterable]
  | array => [.array]
  | keyed => [.map, .dictionary]
  | optional => [.optional]
  | reference => [.reference]
  | threadScoped => [.threadScoped]

/-- How many slots the containers of a family have: a map has its keys and its values. -/
def slots : ContainerFamily → Nat
  | keyed => 2
  | _ => 1

/-- Whether values of a kind may stand where a container of the family is expected. -/
def claims (family : ContainerFamily) (kind : Kind) : Bool :=
  family.heads.any kind.isAssignableTo

/-- Families of the same place are the same. -/
theorem rank_injective {first second : ContainerFamily} (same : first.rank = second.rank) :
    first = second := by
  -- There are six families, compared two by two.
  revert same
  cases first <;> cases second <;> decide

/-- No family has more slots than that of the maps. -/
theorem slots_le (family : ContainerFamily) : family.slots ≤ keyed.slots := by
  -- Maps have the most slots.
  cases family <;> decide

/-- A built-in kind is claimed by one family at most. -/
theorem eq_of_claims_builtin {first second : ContainerFamily} {kind : BuiltinKind}
    (one : first.claims (.builtin kind) = true) (two : second.claims (.builtin kind) = true) :
    first = second := by
  -- For two different families, each of the built-in kinds is tried.
  revert one two
  cases first <;> cases second <;> first | exact fun _ _ => rfl | (cases kind <;> decide)

end ContainerFamily

namespace BuiltinExtractor

/-- The family that an extractor opens. -/
def family : BuiltinExtractor → ContainerFamily
  | iterableElement | sequenceElement => .elements
  | arrayElement => .array
  | mapKey | mapValue | dictionaryKey | dictionaryValue => .keyed
  | optionalPayload => .optional
  | referencePayload => .reference
  | threadScopedPayload => .threadScoped

/-- The extractors of a family are registered side by side. -/
theorem all_sorted : all.Pairwise fun earlier later => earlier.family.rank ≤ later.family.rank := by
  -- The list is read through once.
  decide

/-- The key of an extractor names a slot of its family, and a kind at a head or below. -/
theorem key_within (extractor : BuiltinExtractor) :
    extractor.key.slot < extractor.family.slots ∧
      ∃ head ∈ extractor.family.heads, extractor.key.kind.isAssignableTo head = true := by
  -- Each extractor names a slot and a head of its own family.
  cases extractor <;> decide

/-- For each slot and each head of a family there is an extractor. -/
theorem exists_key (family : ContainerFamily) :
    ∀ head ∈ family.heads, ∀ slot < family.slots,
      ∃ extractor ∈ all, extractor.family = family ∧ extractor.key = ⟨head, slot⟩ := by
  -- For each head and each slot of a family an extractor is registered.
  cases family <;> decide

/-- An extractor serves slots of its family only, and kinds that its family claims. -/
theorem claims_of_covers {extractor : BuiltinExtractor} {kind : Kind} {slot : Nat}
    (covered : extractor.key.covers kind slot = true) :
    slot < extractor.family.slots ∧ extractor.family.claims kind = true := by
  rw [ExtractorKey.covers, Bool.and_eq_true, beq_iff_eq] at covered
  obtain ⟨rfl, fits⟩ := covered
  obtain ⟨within, head, listed, below⟩ := extractor.key_within
  -- What fits the kind of the key fits the head above it.
  exact ⟨within, List.any_eq_true.mpr ⟨head, listed, Kind.isAssignableTo_trans fits below⟩⟩

/-- Every slot of a kind that a family claims is served by one of its extractors. -/
theorem exists_covers {family : ContainerFamily} {kind : Kind} {slot : Nat}
    (within : slot < family.slots) (claimed : family.claims kind = true) :
    ∃ extractor ∈ all, extractor.family = family ∧ extractor.key.covers kind slot = true := by
  -- The kind fits a head of the family, and the extractor for this head covers it.
  obtain ⟨head, listed, fits⟩ := List.any_eq_true.mp claimed
  obtain ⟨extractor, registered, belongs, named⟩ := exists_key family head listed slot within
  refine ⟨extractor, registered, belongs, ?_⟩
  rw [named, ExtractorKey.covers, Bool.and_eq_true, beq_iff_eq]
  exact ⟨rfl, fits⟩

end BuiltinExtractor

/-! ### The family of a value -/

/-- The family of a container by its shape, which scalars and objects are not in. -/
def Value.family? : Value → Option ContainerFamily
  | .node (.collection _) => some .elements
  | .node (.array _) => some .array
  | .node (.map _) => some .keyed
  | .vacant | .present _ => some .optional
  | .strong _ | .weak _ => some .reference
  | .node (.threadScoped _) => some .threadScoped
  | _ => none

/-- A family registered after that of the value's shape claims its kind and has the slot. -/
def Value.Overtaken (value : Value) (slot : Nat) : Prop :=
  ∃ family : ContainerFamily, slot < family.slots ∧ family.claims value.kind = true ∧
    -- What is in no family comes before all of them.
    ∀ own, value.family? = some own → own.rank < family.rank

namespace Value

/-- The family of a value claims its kind. -/
theorem claims_of_family? {value : Value} {own : ContainerFamily}
    (shape : value.family? = some own) :
    own.claims value.kind = true := by
  -- The kind of a container was checked against its shape when it was made.
  cases value with
  | node handle =>
    cases handle with
    | collection collection =>
      obtain rfl := Option.some.inj shape
      exact List.any_eq_true.mpr ⟨.iterable, by decide, collection.iterable⟩
    | map map =>
      obtain rfl := Option.some.inj shape
      rcases Bool.or_eq_true_iff.mp map.keyed with plain | dictionary
      · exact List.any_eq_true.mpr ⟨.map, by decide, plain⟩
      · exact List.any_eq_true.mpr ⟨.dictionary, by decide, dictionary⟩
    | object object => cases shape
    | array | threadScoped => obtain rfl := Option.some.inj shape; rfl
  | vacant | present | strong | weak => obtain rfl := Option.some.inj shape; rfl
  | _ => cases shape

/-- A family before that of the value has no slot beyond those of the value's family. -/
theorem within_own_slots {value : Value} {own family : ContainerFamily} {slot : Nat}
    (shape : value.family? = some own) (before : family.rank < own.rank)
    (claimed : family.claims value.kind = true) (within : slot < family.slots) :
    slot < own.slots := by
  have builtin : ∀ kind, value.kind = .builtin kind → slot < own.slots := by
    intro kind same
    -- A built-in kind is claimed by the family of the value and no other.
    have both := claims_of_family? shape
    rw [same] at claimed both
    obtain rfl := ContainerFamily.eq_of_claims_builtin claimed both
    exact absurd before (Nat.lt_irrefl _)
  cases value with
  | node handle =>
    cases handle with
    | collection collection =>
      -- Nothing comes before the family of the collections.
      obtain rfl := Option.some.inj shape
      exact absurd before (Nat.not_lt_zero _)
    | map map =>
      obtain rfl := Option.some.inj shape
      exact Nat.lt_of_lt_of_le within family.slots_le
    | object object => cases shape
    | array | threadScoped => exact builtin _ rfl
  | _ => exact builtin _ rfl

/-- An extractor that serves a slot of a value opens it exactly when they are of one family. -/
theorem isSome_report? {value : Value} {slot : Nat} {extractor : BuiltinExtractor}
    (covered : extractor.key.covers value.kind slot = true) (store : Store) :
    (extractor.report? store value).isSome = true ↔ value.family? = some extractor.family := by
  obtain ⟨_, claimed⟩ := BuiltinExtractor.claims_of_covers covered
  cases value with
  | node handle =>
    cases handle with
    | array array =>
      -- The elements of an array could be had as those of an iterable, but its kind is none.
      have alien : ContainerFamily.elements.claims .array = false := by decide
      have other : extractor ≠ .iterableElement := by
        rintro rfl
        exact Bool.false_ne_true (alien.symm.trans claimed)
      cases extractor <;> simp_all [BuiltinExtractor.report?, family?, BuiltinExtractor.family]
    | _ => cases extractor <;> simp [BuiltinExtractor.report?, family?, BuiltinExtractor.family]
  | _ => cases extractor <;> simp [BuiltinExtractor.report?, family?, BuiltinExtractor.family]

/-- An extractor of the last family that serves a slot opens the value unless it is overtaken. -/
theorem isSome_report?_of_last {value : Value} {slot : Nat} {extractor : BuiltinExtractor}
    (covered : extractor.key.covers value.kind slot = true)
    (last : ∀ other ∈ BuiltinExtractor.all, other.key.covers value.kind slot = true →
      other.family.rank ≤ extractor.family.rank) (store : Store) :
    (extractor.report? store value).isSome = true ↔ ¬value.Overtaken slot := by
  obtain ⟨within, claimed⟩ := BuiltinExtractor.claims_of_covers covered
  rw [isSome_report? covered]
  constructor
  · rintro own ⟨family, inside, claims, later⟩
    -- A later family would have an extractor for the slot, but none is later than this one.
    obtain ⟨other, listed, rfl, serves⟩ := BuiltinExtractor.exists_covers inside claims
    exact absurd (later _ own) (Nat.not_lt.mpr (last other listed serves))
  · intro foremost
    have reached : ∃ own, value.family? = some own ∧ extractor.family.rank ≤ own.rank := by
      by_contra none
      refine foremost ⟨extractor.family, within, claimed, fun own shape => ?_⟩
      exact Nat.lt_of_not_le fun le => none ⟨own, shape, le⟩
    obtain ⟨own, shape, le⟩ := reached
    rcases Nat.lt_or_eq_of_le le with before | same
    · -- The value's own family has an extractor for the slot as well, and it is not a later one.
      have inside := within_own_slots shape before claimed within
      obtain ⟨other, listed, rfl, serves⟩ :=
        BuiltinExtractor.exists_covers inside (claims_of_family? shape)
      exact absurd before (Nat.not_lt.mpr (last other listed serves))
    · rw [shape, ContainerFamily.rank_injective same]

end Value

namespace BuiltinExtractor

/-- What an extractor reports of a container, it reports without a failure. -/
theorem failure_of_report? {extractor : BuiltinExtractor} {store : Store} {value : Value}
    {yield : Yield}
    (reported : extractor.report? store value = some yield) : yield.failure = none := by
  unfold report? at reported
  dsimp only at reported
  -- Every shape that is opened gives values, in order or not.
  split at reported <;> cases reported <;> rfl

/-- An extractor fails exactly on what it does not open, and then it reports nothing. -/
theorem extract_of_isSome (extractor : BuiltinExtractor) (store : Store) (value : Value) :
    if (extractor.report? store value).isSome then (extractor.extract store value).failure = none
    else extractor.extract store value =
      .fail (.unexpectedContainer extractor.key.kind value.kind) := by
  -- What is reported is reported without a failure, and anything else is a failure.
  unfold extract
  cases reported : extractor.report? store value with
  | none => rfl
  | some yield => exact failure_of_report? reported

end BuiltinExtractor

namespace Registry

/-- The built-in extractor that is found serves the slot, and none registered after it does. -/
theorem split_of_find {uses : List RegistryUse}
    (unregistered : uses.filterMap RegistryUse.registered? = []) {kind : Kind} {slot : Nat}
    {extractor : Extractor}
    (found : (((make true).afterUses uses).find kind slot).1 = some extractor) :
    ∃ (builtin : BuiltinExtractor) (before after : List BuiltinExtractor),
      extractor = .builtin builtin ∧ builtin.key.covers kind slot = true ∧
      BuiltinExtractor.all = before ++ builtin :: after ∧
      ∀ other ∈ after, other.key.covers kind slot = false := by
  obtain ⟨calls, reached, registered⟩ := exists_calls_afterUses (make true) uses
  rw [reached] at found
  have latest := isLatest_afterCalls true calls kind slot
  rw [found, registered, unregistered, List.append_nil] at latest
  obtain ⟨serves, earlier, later, split, others⟩ := latest
  -- The table is that of the built-in extractors, cut where the found one stands.
  obtain ⟨before, after, listed, rfl, rest⟩ := List.map_eq_append_iff.mp split
  obtain ⟨builtin, following, rfl, rfl, rfl⟩ := List.map_eq_cons_iff.mp rest
  refine ⟨builtin, before, following, rfl, serves, listed, fun other past => ?_⟩
  simpa [Extractor.appliesTo] using others (.builtin other) (List.mem_map_of_mem past)

/-- No extractor that serves the slot belongs to a later family than the one found. -/
theorem builtin_of_find {uses : List RegistryUse}
    (unregistered : uses.filterMap RegistryUse.registered? = []) {kind : Kind} {slot : Nat}
    {extractor : Extractor}
    (found : (((make true).afterUses uses).find kind slot).1 = some extractor) :
    ∃ builtin : BuiltinExtractor, extractor = .builtin builtin ∧
      builtin.key.covers kind slot = true ∧
      ∀ other ∈ BuiltinExtractor.all, other.key.covers kind slot = true →
        other.family.rank ≤ builtin.family.rank := by
  obtain ⟨builtin, before, after, rfl, serves, listed, idle⟩ := split_of_find unregistered found
  refine ⟨builtin, rfl, serves, fun other among covered => ?_⟩
  have sorted := BuiltinExtractor.all_sorted
  rw [listed] at among sorted
  rcases List.mem_append.mp among with first | last
  · exact (List.pairwise_append.mp sorted).2.2 other first builtin List.mem_cons_self
  · rcases List.mem_cons.mp last with rfl | past
    · exact Nat.le_refl _
    · -- Past the found one, no extractor serves the slot.
      exact absurd covered (by simp [idle other past])

/-- Where none of the built-in extractors is found, none of them serves the slot. -/
theorem unserved_of_find {uses : List RegistryUse}
    (unregistered : uses.filterMap RegistryUse.registered? = []) {kind : Kind} {slot : Nat}
    (missed : (((make true).afterUses uses).find kind slot).1 = none) :
    ∀ builtin ∈ BuiltinExtractor.all, builtin.key.covers kind slot = false := by
  -- Nothing was registered beyond the defaults, so all that could be found are these.
  obtain ⟨calls, reached, registered⟩ := exists_calls_afterUses (make true) uses
  rw [reached] at missed
  have latest := isLatest_afterCalls true calls kind slot
  rw [missed, registered, unregistered, List.append_nil] at latest
  exact fun builtin listed => latest (.builtin builtin) (List.mem_map_of_mem listed)

/-- A built-in extractor that is found opens the value unless a later family claims its kind. -/
theorem dispatch_agrees {uses : List RegistryUse}
    (unregistered : uses.filterMap RegistryUse.registered? = []) {value : Value} {slot : Nat}
    {extractor : Extractor}
    (found : (((make true).afterUses uses).find value.kind slot).1 = some extractor)
    (store : Store) :
    ((extractor.extract store value).failure = none ↔ ¬value.Overtaken slot) ∧
      -- Otherwise it reports nothing and fails on the container.
      (value.Overtaken slot → extractor.extract store value =
        .fail (.unexpectedContainer extractor.key.kind value.kind)) := by
  -- What is found is of the last family that serves the slot, so being overtaken is its failing.
  obtain ⟨builtin, rfl, covered, last⟩ := builtin_of_find unregistered found
  have opens := Value.isSome_report?_of_last covered last store
  have outcome := builtin.extract_of_isSome store value
  by_cases overtaken : value.Overtaken slot
  · rw [if_neg fun opened => opens.mp opened overtaken] at outcome
    have failing : (Extractor.builtin builtin).extract store value =
        .fail (.unexpectedContainer builtin.key.kind value.kind) := outcome
    exact ⟨iff_of_false (by rw [failing]; exact Option.some_ne_none _) (not_not_intro overtaken),
      fun _ => failing⟩
  · rw [if_pos (opens.mpr overtaken)] at outcome
    exact ⟨iff_of_true outcome overtaken, fun against => absurd against overtaken⟩

end Registry

/-! ### Kinds below several heads -/

/-- A declared kind that is a map and a dictionary. -/
def hashtableKind : Kind := .named "Hashtable" [.map, .dictionary]

/-- A declared kind that is a sequence and a map. -/
def listingKind : Kind := .named "Listing" [.sequence, .map]

/-- No family after the maps claims a hashtable, and the extractor that is found opens it. -/
theorem Registry.dispatch_agrees_hashtable :
    let uses : List RegistryUse := [.call (.find hashtableKind 0)]
    let table : Map := ⟨⟨0⟩, hashtableKind, by decide⟩
    let value := Value.node (.map table)
    let extractor := Extractor.builtin .dictionaryKey
    let store : Store := ⟨#[some (.entries [(.text "a", .null)])], ⟨0⟩⟩
    uses.filterMap RegistryUse.registered? = [] ∧
      (((make true).afterUses uses).find value.kind 0).1 = some extractor ∧
      ¬value.Overtaken 0 ∧ (extractor.extract store value).failure = none := by
  -- A hashtable fits one head of one family only.
  intro uses table value extractor store
  have unregistered : uses.filterMap RegistryUse.registered? = [] := rfl
  have found : (((make true).afterUses uses).find value.kind 0).1 = some extractor := rfl
  have foremost : ¬value.Overtaken 0 := by
    rintro ⟨family, _, claims, later⟩
    have after := later .keyed rfl
    revert claims after
    cases family <;> decide
  exact ⟨unregistered, found, foremost,
    (dispatch_agrees unregistered found store).1.mpr foremost⟩

/-- A listing made as a collection is taken for a map, whose extractor fails on it. -/
theorem Registry.dispatch_misses_listing :
    ∃ (listing : Collection) (store : Store) (extractor : Extractor),
      Store.empty.newCollection listingKind = .ok (listing, store) ∧
      (withDefaults.find (Value.node (.collection listing)).kind 0).1 = some extractor ∧
      (extractor.extract store (.node (.collection listing))).failure =
        some (.unexpectedContainer .map listingKind) :=
  ⟨⟨⟨0⟩, listingKind, by decide⟩, _, .builtin .mapKey, rfl, rfl, rfl⟩

end GraphRules
