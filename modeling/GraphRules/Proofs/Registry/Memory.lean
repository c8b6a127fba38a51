import GraphRules.Proofs.Extraction.Collect
import GraphRules.Validator
import Mathlib.Data.List.Induction
import Mathlib.Data.List.Nodup

/-! What a registry remembers cannot be observed: answers follow from the registrations alone. -/

namespace GraphRules

/-! ### Extractions look up and change nothing else -/

namespace Scope

/-- Whatever each of several extractions keeps of the registry, all of them in sequence keep. -/
theorem sequence_keeps {Input : Type} {extract : Input → Registry → Extraction × Registry}
    {property : Registry → Prop}
    (keeps : ∀ input registry, property registry → property (extract input registry).2)
    (inputs : List Input) {registry : Registry} (holds : property registry) :
    property (sequence extract inputs registry).2 := by
  -- The induction is on the inputs, each of which hands its registry on.
  induction inputs generalizing registry with
  | nil => exact holds
  | cons input rest later => exact later (keeps input registry holds)

/-- A node with a pinned extractor looks nothing up, and any other node one slot. -/
theorem findFor_keeps {property : Registry → Prop}
    (keeps : ∀ registry kind slot, property registry → property (registry.find kind slot).2)
    (descriptor : Descriptor) (kind : Kind) (slot : Nat) {registry : Registry}
    (holds : property registry) : property (registry.findFor descriptor kind slot).2 := by
  -- A pinned extractor is not looked up, and otherwise there is one look-up.
  unfold Registry.findFor
  cases descriptor.extractor with
  | some extractor => exact holds
  | none => exact keeps registry kind slot holds

mutual

/-- Whatever a look-up keeps of the registry, an extraction at a node keeps. -/
theorem visit_keeps (scope : Scope) {property : Registry → Prop}
    (keeps : ∀ registry kind slot, property registry → property (registry.find kind slot).2) :
    ∀ (descriptor : Descriptor) (value : Value) (position : Position) (level : Level position)
      (registry : Registry),
      property registry → property (scope.visit descriptor value position level registry).2
  | ⟨id, form, slots, introspection, rules, extractor⟩, value, position, level, registry,
      holds => by
    rw [visit]
    dsimp only
    -- The registry is passed on to the slots, if the node is opened at all.
    split
    · exact holds
    · split
      · exact holds
      · exact scope.visitSlots_keeps keeps slots 0 value position level registry holds

/-- Whatever a look-up keeps of the registry, an extraction of slots keeps. -/
theorem visitSlots_keeps (scope : Scope) {property : Registry → Prop}
    (keeps : ∀ registry kind slot, property registry → property (registry.find kind slot).2) :
    ∀ (slots : List Descriptor) (slot : Nat) (container : Value) (position : Position)
      (level : Level position) (registry : Registry), property registry →
        property (scope.visitSlots slots slot container position level registry).2
  -- The induction is on the slots; each looks up its extractor and extracts what is reported.
  | [], _, _, _, _, registry, holds => by
    rw [visitSlots]
    exact holds
  | descriptor :: rest, slot, container, position, level, registry, holds => by
    rw [visitSlots]
    split
    · exact scope.visitSlots_keeps keeps rest (slot + 1) container position level registry holds
    · have asked := findFor_keeps keeps descriptor container.kind slot holds
      dsimp only
      split
      · -- What the extractor reports is extracted before the next slot is.
        refine scope.visitSlots_keeps keeps rest (slot + 1) container position level _ ?_
        exact sequence_keeps (fun (reported : Reported) registry holds =>
          scope.visit_keeps keeps descriptor reported.value _ _ registry holds) _ asked
      · exact scope.visitSlots_keeps keeps rest (slot + 1) container position level _ asked

end

/-- Whatever a look-up keeps of the registry, an extraction keeps. -/
theorem extract_keeps (scope : Scope) {property : Registry → Prop}
    (keeps : ∀ registry kind slot, property registry → property (registry.find kind slot).2)
    (descriptor : Descriptor) (root : Value) {registry : Registry} (holds : property registry) :
    property (scope.extract descriptor root registry).2 :=
  scope.visit_keeps keeps descriptor root .root .root registry holds

end Scope

/-- A validation changes a registry only by its extraction. -/
theorem Validator.validate_keeps (validator : Validator) {property : Registry → Prop}
    (keeps : ∀ registry kind slot, property registry → property (registry.find kind slot).2)
    (store : Store) (descriptor : Descriptor) (value : Value) {registry : Registry}
    (holds : property registry) :
    property (validator.validate store descriptor value registry).2 :=
  (validator.scope store).extract_keeps keeps descriptor value holds

/-! ### Uses of a registry -/

/-- A registration or a look-up. -/
inductive RegistryCall
  | register (extractor : Extractor)
  | find (kind : Kind) (slot : Nat)

/-- The extractor that a call registers, if it is a registration. -/
def RegistryCall.registered? : RegistryCall → Option Extractor
  | .register extractor => some extractor
  | .find _ _ => none

/-- Anything that is done with a registry. -/
inductive RegistryUse
  | call (call : RegistryCall)
  | extract (scope : Scope) (descriptor : Descriptor) (root : Value)
  | validate (validator : Validator) (store : Store) (descriptor : Descriptor) (value : Value)

/-- The extractor that a use registers; only a call can. -/
def RegistryUse.registered? : RegistryUse → Option Extractor
  | .call made => made.registered?
  | _ => none

/-- An answer is the latest of the extractors that serve a slot, or none if none does. -/
def IsLatest (extractors : List Extractor) (kind : Kind) (slot : Nat) : Option Extractor → Prop
  | some extractor => extractor.appliesTo kind slot = true ∧
      ∃ earlier later, extractors = earlier ++ extractor :: later ∧
        ∀ other ∈ later, other.appliesTo kind slot = false
  | none => ∀ extractor ∈ extractors, extractor.appliesTo kind slot = false

namespace Registry

/-- The registry after a call. -/
def afterCall (registry : Registry) : RegistryCall → Registry
  | .register extractor => registry.register extractor
  | .find kind slot => (registry.find kind slot).2

/-- The registry after a use. -/
def afterUse (registry : Registry) : RegistryUse → Registry
  | .call made => registry.afterCall made
  | .extract scope descriptor root => (scope.extract descriptor root registry).2
  | .validate validator store descriptor value =>
    (validator.validate store descriptor value registry).2

/-- The registry after calls in order. -/
def afterCalls (registry : Registry) (calls : List RegistryCall) : Registry :=
  calls.foldl afterCall registry

/-- The registry after uses in order. -/
def afterUses (registry : Registry) (uses : List RegistryUse) : Registry :=
  uses.foldl afterUse registry

/-- A key was looked up with success by some call, and nothing was registered from then on. -/
def ResolvedSince (start : Registry) (calls : List RegistryCall) (key : ExtractorKey) : Prop :=
  ∃ before after, calls = before ++ .find key.kind key.slot :: after ∧
    (((start.afterCalls before).find key.kind key.slot).1.isSome = true) ∧
    ∀ call ∈ after, call.registered? = none

/-- The table gives the latest extractor. -/
theorem isLatest_resolve? (registry : Registry) (kind : Kind) (slot : Nat) :
    IsLatest registry.extractors kind slot (registry.resolve? kind slot) := by
  unfold resolve?
  cases found : registry.extractors.reverse.find? (·.appliesTo kind slot) with
  | none =>
    intro extractor listed
    simpa using List.find?_eq_none.mp found extractor (List.mem_reverse.mpr listed)
  | some extractor =>
    obtain ⟨serves, after, before, split, others⟩ := List.find?_eq_some_iff_append.mp found
    -- What the table lists before the extractor, seen from the end, was registered after it.
    refine ⟨serves, before.reverse, after.reverse, ?_, fun other listed => ?_⟩
    · simpa using congrArg List.reverse split
    · simpa using others other (List.mem_reverse.mp listed)

/-! ### What a look-up changes -/

/-- A look-up registers nothing. -/
theorem extractors_find (registry : Registry) (kind : Kind) (slot : Nat) :
    (registry.find kind slot).2.extractors = registry.extractors := by
  -- A look-up may only add to what is remembered.
  unfold find
  split
  · rfl
  · split <;> rfl

/-- The keys whose answers are remembered. -/
def rememberedKeys (registry : Registry) : List ExtractorKey := registry.cache.map (·.1)

/-- Registries whose memory says what their table says. -/
def Transparent (registry : Registry) : Prop := registry.answer = registry.resolve?

/-- A look-up leaves the memory in agreement with the table. -/
theorem transparent_find {registry : Registry} (transparent : registry.Transparent) (kind : Kind)
    (slot : Nat) : (registry.find kind slot).2.Transparent := by
  unfold Transparent at transparent ⊢
  rw [registry.answer_find, transparent]
  -- The table is that of the same extractors.
  funext other place
  rw [resolve?, resolve?, extractors_find]

/-- With nothing remembered, all answers come from the table. -/
theorem transparent_of_forgetful (extractors : List Extractor) : Transparent ⟨extractors, []⟩ := by
  -- Without a memory an answer is the resolution itself.
  unfold Transparent
  funext kind slot
  rw [answer_eq]
  rfl

/-- A registry that was just made remembers nothing. -/
theorem rememberedKeys_make (withBuiltin : Bool) : (make withBuiltin).rememberedKeys = [] := by
  -- A new registry has looked nothing up.
  cases withBuiltin <;> rfl

/-- A registry that was just made answers from its table. -/
theorem transparent_make (withBuiltin : Bool) : (make withBuiltin).Transparent := by
  -- A new registry has looked nothing up.
  cases withBuiltin <;> exact transparent_of_forgetful _

/-- Calls leave the memory in agreement with the table. -/
theorem transparent_afterCalls {registry : Registry} (transparent : registry.Transparent)
    (calls : List RegistryCall) : (registry.afterCalls calls).Transparent := by
  induction calls generalizing registry with
  | nil => exact transparent
  | cons call rest later =>
    cases call with
    -- A registration forgets everything, so there is nothing left to disagree.
    | register extractor => exact later (transparent_of_forgetful _)
    | find kind slot => exact later (transparent_find transparent kind slot)

/-- The table holds what was there at the start and then all that was registered, in order. -/
theorem extractors_afterCalls (registry : Registry) (calls : List RegistryCall) :
    (registry.afterCalls calls).extractors =
      registry.extractors ++ calls.filterMap RegistryCall.registered? := by
  -- The induction is on the calls; a registration adds its extractor and a look-up none.
  induction calls generalizing registry with
  | nil => simp [afterCalls]
  | cons call rest later =>
    have onwards : registry.afterCalls (call :: rest) = (registry.afterCall call).afterCalls rest :=
      rfl
    rw [onwards, later]
    cases call with
    | register extractor => simp [afterCall, register, RegistryCall.registered?]
    | find kind slot =>
      rw [List.filterMap_cons_none rfl]
      simp [afterCall, extractors_find]

/-- After any calls, a registry answers as one that remembers nothing. -/
theorem answer_afterCalls (withBuiltin : Bool) (calls : List RegistryCall) :
    ((make withBuiltin).afterCalls calls).answer =
      answer ⟨(make withBuiltin).extractors ++ calls.filterMap RegistryCall.registered?, []⟩ := by
  have transparent := transparent_afterCalls (transparent_make withBuiltin) calls
  have forgetful := transparent_of_forgetful
    ((make withBuiltin).extractors ++ calls.filterMap RegistryCall.registered?)
  unfold Transparent at transparent forgetful
  rw [transparent, forgetful]
  -- Both tables list the same extractors.
  funext kind slot
  rw [resolve?, resolve?, extractors_afterCalls]

/-! ### Uses come down to calls -/

/-- Calls after calls. -/
theorem afterCalls_append (registry : Registry) (first second : List RegistryCall) :
    registry.afterCalls (first ++ second) = (registry.afterCalls first).afterCalls second :=
  List.foldl_append

/-- A registry that was reached from another by look-ups alone. -/
def LookedUp (start registry : Registry) : Prop :=
  ∃ calls : List RegistryCall, registry = start.afterCalls calls ∧
    calls.filterMap RegistryCall.registered? = []

/-- One more look-up is a look-up as well. -/
theorem lookedUp_find {start registry : Registry} (reached : start.LookedUp registry) (kind : Kind)
    (slot : Nat) : start.LookedUp (registry.find kind slot).2 := by
  -- The look-up is one more call after the others.
  obtain ⟨calls, rfl, unregistered⟩ := reached
  refine ⟨calls ++ [.find kind slot], ?_, ?_⟩
  · rw [afterCalls_append]
    rfl
  · simp [unregistered, RegistryCall.registered?]

/-- Whatever is done with a registry, some calls with the same registrations come to the same. -/
theorem exists_calls_afterUses (registry : Registry) (uses : List RegistryUse) :
    ∃ calls : List RegistryCall, registry.afterUses uses = registry.afterCalls calls ∧
      calls.filterMap RegistryCall.registered? = uses.filterMap RegistryUse.registered? := by
  induction uses generalizing registry with
  | nil => exact ⟨[], rfl, rfl⟩
  | cons use rest later =>
    -- The first use comes down to calls, and the others go on from where it ends.
    have first : ∃ calls : List RegistryCall, registry.afterUse use = registry.afterCalls calls ∧
        calls.filterMap RegistryCall.registered? = use.registered?.toList := by
      have keeps : ∀ (other : Registry) kind slot, registry.LookedUp other →
          registry.LookedUp (other.find kind slot).2 :=
        fun other kind slot reached => lookedUp_find reached kind slot
      have here : registry.LookedUp registry := ⟨[], rfl, rfl⟩
      cases use with
      | call made =>
        refine ⟨[made], rfl, ?_⟩
        cases made <;> rfl
      | extract scope descriptor root => exact scope.extract_keeps keeps descriptor root here
      | validate validator store descriptor value =>
        exact validator.validate_keeps keeps store descriptor value here
    obtain ⟨calls, reached, registrations⟩ := first
    obtain ⟨others, reachedRest, registrationsRest⟩ := later (registry.afterUse use)
    -- The calls of the first use come before those of the others.
    refine ⟨calls ++ others, ?_, ?_⟩
    · rw [afterCalls_append, ← reached, ← reachedRest]
      rfl
    · rw [List.filterMap_append, registrations, registrationsRest]
      cases registered : use.registered? <;> simp [registered]

/-! ### What is remembered -/

/-- A key is not remembered exactly when the memory has no answer for it. -/
theorem not_mem_rememberedKeys {registry : Registry} {key : ExtractorKey} :
    key ∉ registry.rememberedKeys ↔ registry.cache.lookup key = none := by
  -- Both say that no entry stands under the key.
  rw [List.lookup_eq_none_iff, rememberedKeys, List.mem_map]
  constructor
  · intro absent entry listed
    exact bne_iff_ne.mpr fun same => absent ⟨entry, listed, same.symm⟩
  · rintro differ ⟨entry, listed, rfl⟩
    exact bne_iff_ne.mp (differ entry listed) rfl

/-- A look-up that succeeds is remembered, and no other is. -/
theorem mem_rememberedKeys_find {registry : Registry} {kind : Kind} {slot : Nat}
    {key : ExtractorKey} :
    key ∈ (registry.find kind slot).2.rememberedKeys ↔
      key ∈ registry.rememberedKeys ∨
        key = ⟨kind, slot⟩ ∧ (registry.find kind slot).1.isSome = true := by
  unfold find
  split
  · next extractor remembered =>
    -- The key stands in the memory already.
    have known : (⟨kind, slot⟩ : ExtractorKey) ∈ registry.rememberedKeys := by
      by_contra unknown
      simp [not_mem_rememberedKeys.mp unknown] at remembered
    refine ⟨.inl, ?_⟩
    rintro (listed | ⟨rfl, _⟩)
    · exact listed
    · exact known
  · split
    -- Otherwise the key is put down exactly if an extractor was found.
    · simp [rememberedKeys]
    · simp

/-- No key is remembered twice. -/
theorem rememberedKeys_find_distinct {registry : Registry}
    (distinct : registry.rememberedKeys.Nodup) (kind : Kind) (slot : Nat) :
    (registry.find kind slot).2.rememberedKeys.Nodup := by
  unfold find
  split
  · exact distinct
  -- An entry is added only where the memory has none and an extractor was found.
  · next forgotten =>
    split
    · -- The new entry stands under a key that was not remembered.
      have fresh := not_mem_rememberedKeys.mpr forgotten
      unfold rememberedKeys at distinct fresh ⊢
      rw [List.map_append, List.nodup_append]
      refine ⟨distinct, List.nodup_singleton _, ?_⟩
      rintro key listed other added rfl
      obtain rfl : key = ⟨kind, slot⟩ := by simpa using added
      exact fresh listed
    · exact distinct

/-- A last call keeps what was resolved if it is a look-up, and may resolve its own key. -/
theorem resolvedSince_append {start : Registry} {calls : List RegistryCall} {call : RegistryCall}
    {key : ExtractorKey} :
    start.ResolvedSince (calls ++ [call]) key ↔
      call.registered? = none ∧ (start.ResolvedSince calls key ∨
        call = .find key.kind key.slot ∧
          ((start.afterCalls calls).find key.kind key.slot).1.isSome = true) := by
  constructor
  · rintro ⟨before, after, split, found, quiet⟩
    -- The look-up is the last call, or it stands among the calls before that.
    rcases List.eq_nil_or_concat' after with rfl | ⟨others, last, rfl⟩
    · obtain ⟨rfl, rfl⟩ := List.append_singleton_inj.mp split
      exact ⟨rfl, .inr ⟨rfl, found⟩⟩
    · rw [← List.cons_append, ← List.append_assoc] at split
      obtain ⟨rfl, rfl⟩ := List.append_singleton_inj.mp split
      exact ⟨quiet call (by simp), .inl ⟨before, others, rfl, found,
        fun other listed => quiet other (List.mem_append_left _ listed)⟩⟩
  -- Either the key was resolved before, and the last call registers nothing, or it is looked up.
  · rintro ⟨unregistered, ⟨before, after, rfl, found, quiet⟩ | ⟨rfl, found⟩⟩
    · refine ⟨before, after ++ [call], by simp, found, fun other listed => ?_⟩
      rcases List.mem_append.mp listed with among | last
      · exact quiet other among
      · rw [List.mem_singleton.mp last]
        exact unregistered
    · exact ⟨calls, [], rfl, found, by simp⟩

/-- Exactly the keys resolved since the last registration are remembered, each once. -/
theorem remembered_afterCalls {start : Registry} (forgetful : start.rememberedKeys = [])
    (calls : List RegistryCall) :
    (start.afterCalls calls).rememberedKeys.Nodup ∧
      ∀ key, key ∈ (start.afterCalls calls).rememberedKeys ↔ start.ResolvedSince calls key := by
  -- The induction splits off the last call, since that is where the memory changes.
  induction calls using List.reverseRec with
  | nil =>
    have here : start.afterCalls [] = start := rfl
    rw [here, forgetful]
    refine ⟨List.nodup_nil, fun key => ?_⟩
    -- Without calls nothing was resolved.
    simp [ResolvedSince]
  | append_singleton calls call earlier =>
    obtain ⟨distinct, recalled⟩ := earlier
    have last : start.afterCalls (calls ++ [call]) = (start.afterCalls calls).afterCall call :=
      afterCalls_append start calls [call]
    simp only [last, resolvedSince_append]
    cases call with
    | register extractor =>
      -- A registration forgets everything.
      exact ⟨List.nodup_nil, fun key => by
        simp [afterCall, register, rememberedKeys, RegistryCall.registered?]⟩
    | find kind slot =>
      refine ⟨rememberedKeys_find_distinct distinct kind slot, fun key => ?_⟩
      show key ∈ ((start.afterCalls calls).find kind slot).2.rememberedKeys ↔ _
      have unregistered : (RegistryCall.find kind slot).registered? = none := rfl
      rw [mem_rememberedKeys_find, recalled, and_iff_right unregistered]
      -- The look-up is one of the key exactly when the key is the one looked up.
      refine or_congr_right ⟨?_, ?_⟩
      · rintro ⟨rfl, found⟩
        exact ⟨rfl, found⟩
      · rintro ⟨same, found⟩
        obtain ⟨rfl, rfl⟩ := RegistryCall.find.inj same
        exact ⟨rfl, found⟩

/-! ### What a memory could show -/

/-- After calls, a look-up gives the latest extractor registered so far that serves the slot. -/
theorem isLatest_afterCalls (withBuiltin : Bool) (calls : List RegistryCall) (kind : Kind)
    (slot : Nat) :
    IsLatest ((make withBuiltin).extractors ++ calls.filterMap RegistryCall.registered?) kind slot
      (((make withBuiltin).afterCalls calls).find kind slot).1 := by
  have transparent := transparent_afterCalls (transparent_make withBuiltin) calls
  have latest := ((make withBuiltin).afterCalls calls).isLatest_resolve? kind slot
  rw [extractors_afterCalls] at latest
  -- The memory has nothing else to say than the table.
  have said : (((make withBuiltin).afterCalls calls).find kind slot).1 = _ :=
    congrFun (congrFun transparent kind) slot
  rw [said]
  exact latest

/-- A new extractor takes over the slots that it serves, and the answers for all others stay. -/
theorem answer_register {registry : Registry} (transparent : registry.Transparent)
    (extractor : Extractor) (kind : Kind) (slot : Nat) :
    (registry.register extractor).answer kind slot =
      if extractor.appliesTo kind slot then some extractor else registry.answer kind slot := by
  -- The new extractor is asked first, and the memory was emptied for it.
  have forgetful : (registry.register extractor).Transparent := transparent_of_forgetful _
  unfold Transparent at transparent forgetful
  rw [transparent, forgetful, resolve?, resolve?, register, List.reverse_concat, List.find?_cons]
  cases extractor.appliesTo kind slot <;> rfl

/-- Registries that give the same answers are extracted with alike. -/
theorem extract_congr {first second : Registry} (same : first.answer = second.answer)
    (scope : Scope) (descriptor : Descriptor) (root : Value) :
    (scope.extract descriptor root first).1 = (scope.extract descriptor root second).1 := by
  -- An extraction asks nothing of a registry but its answers.
  rw [Scope.extract_eq_collect, Scope.extract_eq_collect, same]

/-- Registries that give the same answers are validated with alike. -/
theorem validate_congr {first second : Registry} (same : first.answer = second.answer)
    (validator : Validator) (store : Store) (descriptor : Descriptor) (value : Value) :
    (validator.validate store descriptor value first).1 =
      (validator.validate store descriptor value second).1 := by
  -- Of the registry, a report shows what was extracted and nothing else.
  have extracted := extract_congr same (validator.scope store) descriptor value
  simp only [Validator.validate, extracted]

/-- The memory of a registry cannot be observed in any answer, extraction or validation. -/
theorem memory_unobservable (withBuiltin : Bool) (calls : List RegistryCall) :
    let start := make withBuiltin
    let registry := start.afterCalls calls
    let registrations := calls.filterMap RegistryCall.registered?
    -- A look-up finds the latest registered extractor that serves the slot.
    (∀ kind slot,
      IsLatest (start.extractors ++ registrations) kind slot (registry.find kind slot).1) ∧
    -- Looking up changes no answer.
    (∀ kind slot other place,
      ((registry.find kind slot).2.find other place).1 = (registry.find other place).1) ∧
    -- A registration changes only the answers for what the new extractor serves.
    (∀ extractor kind slot, ((registry.register extractor).find kind slot).1 =
      if extractor.appliesTo kind slot then some extractor else (registry.find kind slot).1) ∧
    -- Each key resolved since the last registration is counted once, and no other key.
    (∃ keys : List ExtractorKey, keys.Nodup ∧ registry.cachedSize = keys.length ∧
      ∀ key, key ∈ keys ↔ start.ResolvedSince calls key) ∧
    -- Whatever was done in between, the same registrations give the same results.
    ∀ uses : List RegistryUse, uses.filterMap RegistryUse.registered? = registrations →
      (∀ (scope : Scope) descriptor root,
        (scope.extract descriptor root (start.afterUses uses)).1 =
          (scope.extract descriptor root registry).1) ∧
      ∀ (validator : Validator) store descriptor value,
        (validator.validate store descriptor value (start.afterUses uses)).1 =
          (validator.validate store descriptor value registry).1 := by
  -- All of this rests on the memory being right, which every call keeps.
  intro start registry registrations
  have transparent : registry.Transparent :=
    transparent_afterCalls (transparent_make withBuiltin) calls
  refine ⟨isLatest_afterCalls withBuiltin calls, fun kind slot other place => ?_,
    answer_register transparent, ⟨registry.rememberedKeys, ?_, ?_, ?_⟩, fun uses same => ?_⟩
  · exact congrFun (congrFun (registry.answer_find kind slot) other) place
  · exact (remembered_afterCalls (rememberedKeys_make withBuiltin) calls).1
  · exact (List.length_map _).symm
  · exact (remembered_afterCalls (rememberedKeys_make withBuiltin) calls).2
  · -- The uses come down to calls, and calls with the same registrations give the same answers.
    obtain ⟨others, reached, registered⟩ := exists_calls_afterUses start uses
    have agrees : (start.afterUses uses).answer = registry.answer := by
      rw [reached, answer_afterCalls, registered, same, ← answer_afterCalls]
    exact ⟨extract_congr agrees, validate_congr agrees⟩

end Registry

end GraphRules
