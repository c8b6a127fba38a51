import GraphRules.Proofs.Store.Filling
import GraphRules.Proofs.Store.Image
import GraphRules.Store.Json

/-! JSON values as runtime values, with one new node for each array and each object. -/

namespace GraphRules

namespace Value

/-- A number is no node. -/
theorem identity_ofJsonNumber (number : JsonNumber) : (ofJsonNumber number).identity = none := by
  -- Numbers become scalars, whether they fit or not.
  cases number with
  | integer number =>
    rw [ofJsonNumber]
    split <;> rfl
  | float number => rfl

end Value

/-- From any store, the conversion of a JSON value is an image over the nodes that it makes. -/
def Json.Converts (json : Json) : Prop :=
  ∀ store : Store,
    (store.ofJson json).2.Image json (store.ofJson json).1 store.cells.size
    (store.ofJson json).2.cells.size

namespace Store

/-- Names that are apart make keys that are. -/
theorem apart_keys {fields : List (String × Json)} (distinct : (fields.map (·.1)).Nodup) :
    Value.Apart (fields.map fun field => .text field.1) := by
  -- Texts are equal as keys only when they are the same.
  have texts := Value.apart_texts distinct
  rwa [List.map_map] at texts

/-- A map renders an object whose names are apart as soon as its keys are these names. -/
theorem renders_object {store : Store} {map : Map} {fields : List (String × Json)}
    (kind : map.kind = .map) (distinct : (fields.map (·.1)).Nodup)
    (keys : (store.entries map).map (·.1) = fields.map (fun field => .text field.1)) :
    store.Renders (.node (.map map)) (.object fields) := by
  have apart : Value.Apart ((store.entries map).map (·.1)) := by
    rw [keys]
    exact apart_keys distinct
  refine ⟨map, rfl, kind, keys, fun index field placed => ?_, fun name absent => ?_⟩
  · -- The entry at the same index has the key.
    have keysAt := congrArg (·[index]?) keys
    simp only [List.getElem?_map, placed, Option.map_some, Option.map_eq_some_iff] at keysAt
    obtain ⟨entry, held, key⟩ := keysAt
    have found := find?_of_apart apart held (by rw [key]; exact beq_self_eq_true field.1)
    rw [key] at found
    rw [lookup?, found, inside, List.getElem?_map, held]
  · -- A key that equals the text is the text of a name.
    rw [lookup?, Option.map_eq_none_iff, List.find?_eq_none]
    intro entry listed same
    have key : entry.1 ∈ fields.map fun field => Value.text field.1 :=
      keys ▸ List.mem_map_of_mem listed
    obtain ⟨field, listed, key⟩ := List.mem_map.mp key
    rw [← key] at same
    exact absent (List.mem_map.mpr ⟨field, listed, beq_iff_eq.mp same⟩)

/-- A number renders as the integer that it is, or as the binary number nearest to it. -/
theorem renders_number (store : Store) (number : JsonNumber) :
    store.Renders (.ofJsonNumber number) (.number number) := by
  -- An integer that fits is kept, and any other becomes a binary number.
  cases number with
  | float number => rfl
  | integer number =>
    by_cases fits : -(Nat.pow 2 63 : Int) ≤ number ∧ number < (Nat.pow 2 63 : Int)
    · exact .inl ⟨.ofInt number,
        Int64.toInt_ofInt_of_le fits.1 fits.2, by rw [Value.ofJsonNumber, if_pos fits]⟩
    · refine .inr ⟨fun content same => fits ?_, by rw [Value.ofJsonNumber, if_neg fits]⟩
      exact same ▸ ⟨content.le_toInt, content.toInt_lt⟩

/-- There is one value for each item. -/
theorem length_ofJsonItems (store : Store) (items : List Json) :
    (store.ofJsonItems items).1.length = items.length := by
  -- The induction is on the items, each of which gives one value.
  induction items generalizing store with
  | nil => rfl
  | cons item rest lengths => simp [ofJsonItems, lengths]

/-- Values under the names of fields, as entries with text keys. -/
def entriesOf (fields : List (String × Json)) (values : List Value) : List (Value × Value) :=
  (fields.map fun field => .text field.1).zip values

section entriesOf

variable {fields : List (String × Json)} {values : List Value}

theorem keys_entriesOf (length : values.length = fields.length) :
    (entriesOf fields values).map (·.1) = fields.map fun field => .text field.1 :=
  List.map_fst_zip (by rw [List.length_map, length])

theorem values_entriesOf (length : values.length = fields.length) :
    (entriesOf fields values).map (·.2) = values :=
  List.map_snd_zip (by rw [List.length_map, length])

/-- The keys are apart where the names are. -/
theorem apart_entriesOf (distinct : (fields.map (·.1)).Nodup)
    (length : values.length = fields.length) :
    Value.Apart ((entriesOf fields values).map (·.1)) := by
  -- The keys of the entries are the names of the fields.
  rw [keys_entriesOf length]
  exact apart_keys distinct

end entriesOf

/-- Fields are converted as their values are. -/
theorem ofJsonFields_eq (store : Store) (fields : List (String × Json)) :
    store.ofJsonFields fields =
      (entriesOf fields (store.ofJsonItems (fields.map (·.2))).1,
        (store.ofJsonItems (fields.map (·.2))).2) := by
  -- The induction is on the fields, whose values are converted like items.
  induction fields generalizing store with
  | nil => rfl
  | cons field rest converted => simp [ofJsonFields, ofJsonItems, entriesOf, converted]

/-- Items are converted behind all nodes that were there, if each of them is. -/
theorem extends_ofJsonItems {items : List Json}
    (each : ∀ item ∈ items, ∀ store : Store, store.Extends (store.ofJson item).2) (store : Store) :
    store.Extends (store.ofJsonItems items).2 := by
  -- The induction is on the items; each extends the store that those before it left.
  induction items generalizing store with
  | nil => exact .refl store
  | cons item rest others =>
    obtain ⟨first, each⟩ := List.forall_mem_cons.mp each
    exact (first store).trans (others each (store.ofJson item).2)

/-- A conversion makes its nodes behind all nodes that were there. -/
theorem extends_ofJson (json : Json) (store : Store) : store.Extends (store.ofJson json).2 := by
  -- The induction goes inside first, and the node of the whole is added behind.
  induction json using Json.inside_induction generalizing store with
  | whole json within =>
    cases json with
    | array items => exact (extends_ofJsonItems within store).trans (.add _ _)
    | object fields =>
      rw [ofJson, ofJsonFields_eq]
      refine (extends_ofJsonItems within store).trans ?_
      exact newMapOf_eq _ _ ▸ .add _ _
    | _ => exact .refl store

/-- How many places are taken once the first of some items are converted. -/
def sizeAfter (store : Store) (items : List Json) (count : Nat) : Nat :=
  (store.ofJsonItems (items.take count)).2.cells.size

/-- The more items are converted, the more places are taken. -/
theorem monotone_sizeAfter (store : Store) (items : List Json) :
    Monotone (store.sizeAfter items) := by
  refine monotone_nat_of_le_succ fun count => ?_
  induction items generalizing store count with
  | nil => simp [sizeAfter]
  | cons item rest later =>
    -- After the first item, the others are converted from the store that it leaves.
    cases count with
    | zero => exact (extends_ofJson item store).room
    | succ count => exact later (store.ofJson item).2 count

/-- In the end, all items are converted. -/
theorem sizeAfter_length (store : Store) (items : List Json) :
    store.sizeAfter items items.length = (store.ofJsonItems items).2.cells.size := by
  -- All items are taken.
  rw [sizeAfter, List.take_length]

/-- Each item that is converted has its nodes behind those of the items before. -/
theorem image_ofJsonItems {items : List Json} (each : ∀ item ∈ items, item.Converts) (store : Store)
    (index : Nat) (item : Json) (value : Value) (placed : items[index]? = some item)
    (held : (store.ofJsonItems items).1[index]? = some value) :
    (store.ofJsonItems items).2.Image item value (store.sizeAfter items index)
      (store.sizeAfter items (index + 1)) := by
  induction items generalizing store index with
  | nil => simp at placed
  | cons first rest others =>
    obtain ⟨converted, each⟩ := List.forall_mem_cons.mp each
    cases index with
    | zero =>
      obtain rfl := Option.some.inj placed
      obtain rfl := Option.some.inj held
      -- The other items leave the nodes of the first alone.
      exact (converted store).extend (extends_ofJsonItems (fun item _ => extends_ofJson item) _)
        (Nat.le_refl _)
    | succ index => exact others each (store.ofJson first).2 index placed held

/-- A new node around the converted values inside is an image of the whole. -/
theorem image_container {json : Json} (each : ∀ inner ∈ json.inside, inner.Converts) (store : Store)
    {after : Store} {contents : Contents} {root : Node}
    (added : after = ((store.ofJsonItems json.inside).2.add contents).2)
    (place : root.id = ⟨(store.ofJsonItems json.inside).2.cells.size⟩)
    (made : after.inside (.node root) = (store.ofJsonItems json.inside).1)
    (renders : after.Renders (.node root) json) :
    after.Image json (.node root) store.cells.size after.cells.size := by
  -- Each part starts where those before it end, and the root comes after all of them.
  refine .container (store.sizeAfter json.inside) renders
    (monotone_sizeAfter store _) rfl ?last ?next ?within
  case last => rw [sizeAfter_length, place]
  case next =>
    rw [added, place]
    exact Array.size_push _
  case within =>
    intro index inner part placed held
    rw [made] at held
    -- The node of the whole leaves those inside alone.
    have image := image_ofJsonItems each store index inner part placed held
    have inRange : index + 1 ≤ json.inside.length := (List.getElem?_eq_some_iff.mp placed).1
    have upper := monotone_sizeAfter store json.inside inRange
    rw [sizeAfter_length] at upper
    exact image.extend (added ▸ .add _ _) upper

/-- Where names are apart, a conversion is an image of the JSON value. -/
theorem converts_of_namesApart {json : Json} (apart : json.NamesApart) : json.Converts := by
  induction json using Json.inside_induction with
  | whole json within =>
    -- The induction goes inside first, where names are apart as well.
    obtain ⟨own, others⟩ := Json.namesApart_iff.mp apart
    have each : ∀ inner ∈ json.inside, inner.Converts :=
      fun inner held => within inner held (others inner held)
    intro store
    cases json with
    | array items =>
      -- The sequence has one item for each element.
      have made := (store.ofJsonItems items).2.items_newSequence (store.ofJsonItems items).1
      have length := congrArg List.length made
      rw [length_ofJsonItems] at length
      exact image_container each store rfl rfl made ⟨_, rfl, rfl, length⟩
    | object fields =>
      have length := store.length_ofJsonItems (fields.map (·.2))
      rw [List.length_map] at length
      -- No two keys are equal, so the map keeps all entries.
      have made := (store.ofJsonItems (fields.map (·.2))).2.entries_newMapOf
          (apart_entriesOf (own fields rfl) length)
      rw [ofJson, ofJsonFields_eq]
      refine image_container each store (newMapOf_eq _ _) rfl ?_
        (renders_object rfl (own fields rfl) ?_)
      · exact (congrArg _ made).trans (values_entriesOf length)
      · exact (congrArg _ made).trans (keys_entriesOf length)
    | number number =>
      exact .leaf (renders_number store number) (Value.identity_ofJsonNumber number)
    | _ => exact .leaf rfl rfl

/-- The conversion of a JSON value whose objects name no two fields alike loses nothing. -/
theorem ofJson_faithful (store : Store) (json : Json) (apart : json.NamesApart) :
    let value := (store.ofJson json).1
    let after := (store.ofJson json).2
    -- At every place stands what renders the part there, and nothing where there is none.
    (∀ path, Option.Rel after.Renders (after.part? value path) (json.part? path)) ∧
    -- Each container is on a node that is new and at no other place.
    (∀ path node, after.part? value path = some (.node node) →
      store.cells.size ≤ node.id.index ∧
        ∀ other twin, after.part? value other = some (.node twin) → node.id = twin.id →
          path = other) ∧
    -- Whatever was there before holds what it held.
    (∀ id : NodeId, id.index < store.cells.size → after.contents? id = store.contents? id) ∧
    -- Read back, the result is the value again, but for integers beyond 64 bits with a sign.
    after.json? value = some json.normal := by
  -- All four parts are read off the image that the conversion leaves in the store.
  intro value after
  have image : after.Image json value store.cells.size after.cells.size :=
    converts_of_namesApart apart store
  refine ⟨image.rel_part?,
    fun path node there => ⟨(image.bounds there).1, fun other twin again same => ?_⟩,
    (extends_ofJson json store).same, ?_⟩
  · exact image.path_eq there again same
  · -- The result is not nested deeper than the whole store has nodes.
    exact image.jsonWithin?_eq (Nat.le_add_left _ _)

namespace Parcel

/-- A store with a node of its own. -/
def store : Store := (empty.newSequence [.text "old"]).2

/-- The greatest integer that fits, an array with an object in it, and the next integer. -/
def json : Json :=
  .object [("high", .int 9223372036854775807),
    ("items", .array [.string "high", .object [("none", .array [])], .null]),
    ("over", .int 9223372036854775808)]

end Parcel

/-- The integer that does not fit becomes a binary number, and the inner object is on a new node. -/
theorem ofJson_faithful_parcel :
    let value := (Parcel.store.ofJson Parcel.json).1
    let after := (Parcel.store.ofJson Parcel.json).2
    Parcel.json.NamesApart ∧
      after.part? value [0] = some (.integer 9223372036854775807) ∧
      after.part? value [2] = some (.float (.ofInt 9223372036854775808)) ∧
      (∃ node, after.part? value [1, 1] = some (.node node) ∧
        Parcel.store.cells.size ≤ node.id.index) ∧
      after.json? value = some Parcel.json.normal := by
  -- The names differ, so the theorem applies, and each part is the rendering at its place.
  intro value after
  have apart : Parcel.json.NamesApart := by simp [Parcel.json, Json.int]
  obtain ⟨rendered, fresh, kept, read⟩ := ofJson_faithful Parcel.store Parcel.json apart
  refine ⟨apart, ?_, ?_, ?_, read⟩
  -- The greatest integer fits, so it is the first of the two renderings.
  · have greatest : (9223372036854775807 : Int64).toInt = 9223372036854775807 := by decide
    cases rendered [0] with
    | some renders =>
      rcases renders with ⟨content, same, part⟩ | ⟨beyond, -⟩
      · rw [Int64.toInt_inj.mp (same.trans greatest.symm)] at part
        exact congrArg some part
      · exact absurd greatest (beyond _)
  · cases rendered [2] with
    | some renders =>
      rcases renders with ⟨content, same, -⟩ | ⟨-, part⟩
      -- The next integer does not fit, so it is the second.
      · have fits := content.toInt_lt
        omega
      · exact congrArg some part
  · cases rendered [1, 1] with
    | some renders =>
      obtain ⟨map, part, -⟩ := renders
      exact ⟨.map map, congrArg some part, (fresh [1, 1] (.map map) (congrArg some part)).1⟩

end Store

end GraphRules
