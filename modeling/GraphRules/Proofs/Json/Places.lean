import GraphRules.Json.Basic

/-! Places in JSON values, told by the way that leads to them from the whole. -/

namespace GraphRules

namespace Json

/-- The values directly inside: the items of an array, or the values of the fields of an object. -/
def inside : Json → List Json
  | .array items => items
  | .object fields => fields.map (·.2)
  | _ => []

/-- The value at a place, if there is one. -/
def part? (json : Json) : List Nat → Option Json
  | [] => some json
  | index :: path => json.inside[index]?.bind fun inner => inner.part? path

/-- A value is larger than each value directly inside. -/
theorem sizeOf_lt_of_mem_inside {json inner : Json} (held : inner ∈ json.inside) :
    sizeOf inner < sizeOf json := by
  -- Only arrays and objects hold anything, and the field of an object is larger than its value.
  cases json with
  | array items =>
    have smaller : sizeOf inner < sizeOf items := List.sizeOf_lt_of_mem held
    simp only [array.sizeOf_spec]
    omega
  | object fields =>
    obtain ⟨⟨name, value⟩, listed, rfl⟩ := List.mem_map.mp held
    have smaller : sizeOf (name, value) < sizeOf fields := List.sizeOf_lt_of_mem listed
    simp only [object.sizeOf_spec, Prod.mk.sizeOf_spec] at smaller ⊢
    omega
  | _ => exact absurd held List.not_mem_nil

/-- What passes from the values directly inside to the whole holds of every JSON value. -/
@[elab_as_elim]
theorem inside_induction {motive : Json → Prop} (json : Json)
    (whole : ∀ json, (∀ inner ∈ json.inside, motive inner) → motive json) : motive json :=
  whole json fun inner _ => inside_induction inner whole
termination_by sizeOf json
decreasing_by exact sizeOf_lt_of_mem_inside ‹_›

/-! ### Field names -/

/-- No object, at any place, names two of its fields alike. -/
def NamesApart (json : Json) : Prop :=
  ∀ path fields, json.part? path = some (.object fields) → (fields.map (·.1)).Nodup

/-- Names are apart exactly if they are in the value itself and in each value directly inside. -/
theorem namesApart_iff {json : Json} :
    json.NamesApart ↔
      (∀ fields, json = .object fields → (fields.map (·.1)).Nodup) ∧
        ∀ inner ∈ json.inside, inner.NamesApart := by
  constructor
  · intro apart
    refine ⟨fun fields same => apart [] fields (congrArg some same),
      fun inner held path fields there => ?_⟩
    obtain ⟨index, placed⟩ := List.mem_iff_getElem?.mp held
    exact apart (index :: path) fields (by rw [part?, placed, Option.bind_some, there])
  · intro ⟨own, within⟩ path fields there
    -- A place is that of the whole, or it is reached by way of a value directly inside.
    cases path with
    | nil => exact own fields (Option.some.inj there)
    | cons index path =>
      obtain ⟨inner, placed, below⟩ := Option.bind_eq_some_iff.mp there
      exact within inner (List.mem_of_getElem? placed) path fields below

/-- Where nothing is inside, no names are to be kept apart. -/
theorem namesApart_of_bare {json : Json} (bare : json.inside = []) : json.NamesApart := by
  -- A value that holds nothing has no fields to name alike.
  refine namesApart_iff.mpr ⟨fun fields same => ?_, fun inner held => ?_⟩
  · subst same
    rw [List.map_eq_nil_iff.mp bare]
    exact .nil
  · rw [bare] at held
    cases held

@[simp] theorem namesApart_null : null.NamesApart := namesApart_of_bare rfl

@[simp] theorem namesApart_bool (content : Bool) : (bool content).NamesApart :=
  namesApart_of_bare rfl

@[simp] theorem namesApart_number (content : JsonNumber) : (number content).NamesApart :=
  namesApart_of_bare rfl

@[simp] theorem namesApart_string (content : String) : (string content).NamesApart :=
  namesApart_of_bare rfl

@[simp] theorem namesApart_array {items : List Json} :
    (array items).NamesApart ↔ ∀ item ∈ items, item.NamesApart := by
  -- An array names no fields of its own.
  rw [namesApart_iff]
  exact and_iff_right nofun

@[simp] theorem namesApart_object {fields : List (String × Json)} :
    (object fields).NamesApart ↔ (fields.map (·.1)).Nodup ∧
      ∀ field ∈ fields, field.2.NamesApart := by
  -- The fields of an object name the object's own parts, and then come those inside.
  rw [namesApart_iff]
  refine and_congr ⟨fun own => own fields rfl, fun distinct others same => ?_⟩ List.forall_mem_map
  exact object.inj same ▸ distinct

end Json

/-! ### Numbers -/

/-- An integer stays as it is while it fits, and otherwise becomes a binary number. -/
def JsonNumber.normal : JsonNumber → JsonNumber
  | .integer number => if (Int64.ofInt number).toInt = number then .integer number
      else .float (.ofInt number)
  | .float number => .float number

namespace Json

mutual

/-- A JSON value with each of its numbers normal. -/
def normal : Json → Json
  | .null => .null
  | .bool content => .bool content
  | .number content => .number content.normal
  | .string content => .string content
  | .array items => .array (normalItems items)
  | .object fields => .object (normalFields fields)

/-- The items of an array, each normal. -/
def normalItems : List Json → List Json
  | [] => []
  | item :: rest => normal item :: normalItems rest

/-- The fields of an object, each normal under the name that it has. -/
def normalFields : List (String × Json) → List (String × Json)
  | [] => []
  | (name, item) :: rest => (name, normal item) :: normalFields rest

end

theorem normalItems_eq_map (items : List Json) : normalItems items = items.map normal := by
  -- The induction is on the items, as in the normal form of several.
  induction items with
  | nil => rfl
  | cons item rest normals => rw [normalItems, normals, List.map_cons]

theorem normalFields_eq_map (fields : List (String × Json)) :
    normalFields fields = fields.map fun field => (field.1, normal field.2) := by
  -- The induction is on the fields, whose names stay as they are.
  induction fields with
  | nil => rfl
  | cons field rest normals => rw [normalFields, normals, List.map_cons]

end Json

end GraphRules
