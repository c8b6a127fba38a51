import GraphRules.Proofs.Kind.Order
import GraphRules.Proofs.Store.History
import GraphRules.Proofs.Walk.Coverage

/-! What a walk misses because it does not look into arrays of primitives. -/

namespace GraphRules

namespace Kind

/-- Primitive kinds are core. -/
theorem isCore_of_isPrimitive {kind : Kind} (primitive : kind.isPrimitive = true) :
    kind.isCore = true := by
  -- Each of the primitive kinds is core.
  unfold isPrimitive at primitive
  split at primitive <;> first | rfl | cases primitive

/-- Of the built-in kinds, only a primitive kind itself fits where it is expected. -/
theorem eq_of_isPrimitive {element : Kind} (primitive : element.isPrimitive = true)
    {kind : BuiltinKind} (fits : (Kind.builtin kind).isAssignableTo element = true) :
    Kind.builtin kind = element := by
  -- For each primitive kind, all built-in kinds are tried.
  unfold isPrimitive at primitive
  revert fits
  split at primitive
  · cases kind <;> decide
  · cases kind <;> decide
  · cases kind <;> decide
  · cases primitive

end Kind

namespace Value

/-- The scalars whose kinds are primitive. -/
def isPrimitive : Value → Bool
  | .boolean _ => true
  | .integer _ => true
  | .float _ => true
  | _ => false

/-- A container or an object of a kind that is declared below an element kind. -/
def IsHybrid (element : Kind) (item : Value) : Prop :=
  item.isStructured = true ∧ ∃ name supertypes, item.kind = .named name supertypes ∧
    Kind.anyAssignableTo supertypes element = true

/-- Only scalars have a primitive kind. -/
theorem isPrimitive_of_kind {value : Value} (primitive : value.kind.isPrimitive = true) :
    value.isPrimitive = true := by
  -- The kind is core, so the value is no container and no object.
  have core := Kind.isCore_of_isPrimitive primitive
  rw [isCore_kind] at core
  cases value with
  | node handle =>
    cases handle with
    | threadScoped => cases primitive
    | _ => cases core
  | boolean | integer | float => rfl
  | _ => cases primitive

/-- A scalar of a primitive kind is no container and no object. -/
theorem isStructured_of_isPrimitive {value : Value} (scalar : value.isPrimitive = true) :
    value.isStructured = false := by
  -- Scalars hold nothing.
  cases value <;> first | rfl | cases scalar

/-- Only containers and objects have a declared kind. -/
theorem isStructured_of_named {value : Value} {name : String} {supertypes : List Kind}
    (declared : value.kind = .named name supertypes) : value.isStructured = true := by
  -- Of all values, only handles can be of a declared kind.
  cases value with
  | node handle =>
    cases handle with
    | threadScoped => cases declared
    | _ => rfl
  | _ => cases declared

/-- Null apart, an item is taken where its kind fits. -/
theorem accepts_of_not_null {element : Kind} {item : Value} (present : item.isNull = false) :
    Store.accepts element item = item.kind.isAssignableTo element := by
  -- Only null is taken without a look at its kind.
  rw [Store.accepts, present]
  rfl

/-- An array of primitives takes scalars of its element kind, and kinds declared below it. -/
theorem accepts_iff {element : Kind} (primitive : element.isPrimitive = true) {item : Value} :
    Store.accepts element item = true ↔
      (item.isPrimitive = true ∧ item.kind = element) ∨ item.IsHybrid element := by
  constructor
  · intro taken
    -- Null does not fit where a primitive kind is expected.
    have present : item.isNull = false := by
      cases null : item.isNull with
      | false => rfl
      | true => simp [Store.accepts, null, primitive] at taken
    rw [accepts_of_not_null present] at taken
    cases declared : item.kind with
    | builtin kind =>
      rw [declared] at taken
      have same := Kind.eq_of_isPrimitive primitive taken
      exact .inl ⟨isPrimitive_of_kind (by rwa [declared, same]), same⟩
    | named name supertypes =>
      rw [declared, Kind.isAssignableTo, Bool.or_eq_true, decide_eq_true_eq] at taken
      -- No primitive kind is declared.
      rcases taken with rfl | below
      · cases primitive
      · exact .inr ⟨isStructured_of_named declared, name, supertypes, declared, below⟩
  -- A scalar of the element kind fits it, and so does whatever is declared below.
  · rintro (⟨scalar, rfl⟩ | ⟨structured, name, supertypes, declared, below⟩)
    · have present : item.isNull = false := by cases item <;> first | rfl | cases scalar
      rw [accepts_of_not_null present]
      exact Kind.isAssignableTo_refl _
    · have present : item.isNull = false := by cases item <;> first | rfl | cases structured
      rw [accepts_of_not_null present, declared, Kind.isAssignableTo, below, Bool.or_true]

/-- Of the items that an array of primitives takes, the hybrids are those that are no scalars. -/
theorem isHybrid_iff {element : Kind} (primitive : element.isPrimitive = true) {item : Value}
    (taken : Store.accepts element item = true) :
    item.IsHybrid element ↔ ¬(item.isPrimitive = true ∧ item.kind = element) := by
  -- What an array takes is a scalar of its kind or a hybrid, and no scalar is structured.
  constructor
  · rintro ⟨structured, _⟩ ⟨scalar, _⟩
    exact Bool.false_ne_true ((isStructured_of_isPrimitive scalar).symm.trans structured)
  · exact ((accepts_iff primitive).mp taken).resolve_left

end Value

namespace Store

/-- One value holds another, whether or not a walk looks there. -/
def Holds (store : Store) (source target : Value) : Prop :=
  store.Leads source target ∨
    ∃ array : FixedArray, source = .node (.array array) ∧ target ∈ store.itemsAt array.id

/-- A value can be reached from another over what each holds. -/
def HoldsWithin (store : Store) : Value → Value → Prop := Relation.ReflTransGen store.Holds

/-- The objects whose members a walk inspects when everything is accepted. -/
def inspectedFrom (store : Store) (root : Value) : List Object :=
  (Visitor.acceptAll.journal store root ()).2.filterMap WalkEvent.entered?

variable {store : Store}

/-- A walk that accepts everything inspects exactly the objects that its root reaches. -/
theorem mem_inspectedFrom {root : Value} {object : Object} :
    object ∈ store.inspectedFrom root ↔ store.Reaches root (.node (.object object)) := by
  -- The journal tells the objects entered, and a walk that accepts everything enters all it
  -- reaches.
  obtain ⟨events, journaled, told⟩ := (Visitor.acceptAll.transcript store).journal root ()
  rw [inspectedFrom, journaled, Visitor.filterMap_closed WalkEvent.entered? rfl, told.entered]
  exact Walk.mem_entered_acceptAll

/-- Whatever holds something is a container or an object. -/
theorem Holds.isStructured {source target : Value} (held : store.Holds source target) :
    source.isStructured = true := by
  -- An edge starts at something to walk, and an array is structured.
  rcases held with edge | ⟨array, rfl, _⟩
  · have opened := edge.not_core
    rwa [Value.isCore_kind, Bool.not_eq_false'] at opened
  · rfl

/-- What is reached at all is reached along edges, or over an array of primitives. -/
theorem reaches_or_hidden {root value : Value} (reached : store.HoldsWithin root value) :
    store.Reaches root value ∨
      ∃ array : FixedArray, ∃ item : Value, store.Reaches root (.node (.array array)) ∧
        array.element.isPrimitive = true ∧ item ∈ store.itemsAt array.id ∧
        store.HoldsWithin item value := by
  -- The induction goes over the way from the root, the last step split off.
  induction reached with
  | refl => exact .inl (.refl root)
  | tail _ held before =>
    rcases before with along | ⟨array, item, along, primitive, inside, within⟩
    · rcases held with edge | ⟨array, rfl, inside⟩
      · exact .inl (along.tail edge)
      · -- Only into an array of primitives leads no edge.
        cases primitive : array.element.isPrimitive with
        | false => exact .inl (along.tail (.element primitive inside))
        | true => exact .inr ⟨array, _, along, primitive, inside, .refl⟩
    · exact .inr ⟨array, item, along, primitive, inside, within.tail held⟩

/-- What is reached from a known value is known. -/
theorem Sound.known_of_reaches {nodes : List Node} (sound : store.Sound nodes) {root value : Value}
    (known : root.Known nodes) (reached : store.Reaches root value) : value.Known nodes := by
  cases reached with
  | refl => exact known
  | tail _ edge =>
    -- An edge ends at a value that some node holds.
    obtain ⟨id, contents, present, inside⟩ := exists_contents_of_mem_values edge.mem_values
    exact sound.known id contents present _ inside

/-- The items of an array that was made are such as its element kind takes. -/
theorem Sound.accepts_of_mem_itemsAt {nodes : List Node} (sound : store.Sound nodes)
    {array : FixedArray} (made : .array array ∈ nodes) {item : Value}
    (held : item ∈ store.itemsAt array.id) : accepts array.element item = true := by
  -- What an array holds was taken when it was made.
  unfold itemsAt at held
  split at held
  · next items present => exact sound.fitting array _ made present item held
  · simp at held

end Store

/-- Arrays of primitives hide the structured values of kinds below theirs, and nothing else. -/
theorem primitive_arrays_hide_hybrids {store : Store} {nodes : List Node}
    (built : store.Built nodes) :
    -- Such an array is made of scalars of its element kind and of hybrids.
    (∀ (element : Kind) (items : List Value), element.isPrimitive = true →
      ((∃ array after, store.newArray element items = .ok (array, after)) ↔
        ∀ item ∈ items, (item.isPrimitive = true ∧ item.kind = element) ∨ item.IsHybrid element)) ∧
    -- In a store that a program can build, it holds no others later.
    (∀ array : FixedArray, .array array ∈ nodes → array.element.isPrimitive = true →
      ∀ item ∈ store.itemsAt array.id,
        (item.isPrimitive = true ∧ item.kind = array.element) ↔ ¬item.IsHybrid array.element) ∧
    -- An object is found, or it hangs on a hybrid in such an array.
    ∀ root : Value, root.Known nodes → ∀ object : Object,
      store.HoldsWithin root (.node (.object object)) →
        object ∈ store.inspectedFrom root ∨
          ∃ array : FixedArray, ∃ item : Value, store.Reaches root (.node (.array array)) ∧
            array.element.isPrimitive = true ∧ item ∈ store.itemsAt array.id ∧
            item.IsHybrid array.element ∧ store.HoldsWithin item (.node (.object object)) := by
  have sound := built.sound
  refine ⟨fun element items primitive => ?_, fun array made primitive item held => ?_,
    fun root known object within => ?_⟩
  · simp only [Store.newArray_eq_ok, exists_and_left, exists_eq, and_true]
    exact forall₂_congr fun item _ => Value.accepts_iff primitive
  -- What is in the array was taken when it was made.
  · have taken := sound.accepts_of_mem_itemsAt made held
    rw [Value.isHybrid_iff primitive taken, not_not]
  · rcases Store.reaches_or_hidden within with along | ⟨array, item, along, primitive, held, inside⟩
    · exact .inl (Store.mem_inspectedFrom.mpr along)
    · -- The array was made, so it took the item; and what holds the object is no scalar.
      have made := sound.known_of_reaches known along _ rfl
      have taken := sound.accepts_of_mem_itemsAt made held
      have structured : item.isStructured = true := by
        rcases Relation.ReflTransGen.cases_head inside with rfl | ⟨next, first, _⟩
        · rfl
        · exact first.isStructured
      have hybrid : item.IsHybrid array.element := by
        refine (Value.isHybrid_iff primitive taken).mpr fun ⟨scalar, _⟩ => ?_
        exact Bool.false_ne_true ((Value.isStructured_of_isPrimitive scalar).symm.trans structured)
      exact .inr ⟨array, item, along, primitive, held, hybrid, inside⟩

/-! ### An object among integers -/

namespace Odd

/-- A declared kind that is an integer and an object. -/
def kind : Kind := .named "Odd" [.integer, .object]

def odd : Object := ⟨⟨0⟩, kind, by decide⟩

def array : FixedArray := ⟨⟨1⟩, .integer⟩

/-- An object of the kind has been made. -/
def before : Store := (Store.empty.add (.members .empty)).2

/-- An array of integers has been made of the object. -/
def store : Store := (before.add (.items [.node (.object odd)])).2

theorem newObject_kind : Store.empty.newObject kind = .ok (odd, before) := rfl

theorem newArray_odd : before.newArray .integer [.node (.object odd)] = .ok (array, store) := rfl

/-- The object may be made, and then the array. -/
theorem built : store.Built [.array array, .object odd] := by
  -- The object is made first, and then the array of it.
  refine (Store.Built.empty.newObject newObject_kind).newArray (fun item listed => ?_) newArray_odd
  obtain rfl := List.mem_singleton.mp listed
  rintro node ⟨⟩
  exact List.mem_singleton_self _

end Odd

/-- The object is no scalar of the element kind, so it is a hybrid. -/
theorem primitive_arrays_hide_odd :
    Odd.store.Built [.array Odd.array, .object Odd.odd] ∧
      (Value.node (.object Odd.odd)).IsHybrid Odd.array.element := by
  -- The item is no scalar, and so a hybrid.
  obtain ⟨_, items, _⟩ := primitive_arrays_hide_hybrids Odd.built
  have told := items Odd.array List.mem_cons_self rfl (.node (.object Odd.odd)) List.mem_cons_self
  refine ⟨Odd.built, Classical.byContradiction fun other => ?_⟩
  exact Bool.false_ne_true (told.mpr other).1

/-- The array holds the object, which is no scalar, and a walk does not come to it. -/
theorem odd_item_hidden :
    Store.empty.newObject Odd.kind = .ok (Odd.odd, Odd.before) ∧
      Odd.before.newArray .integer [.node (.object Odd.odd)] = .ok (Odd.array, Odd.store) ∧
      Odd.array.element.isPrimitive = true ∧ (Value.node (.object Odd.odd)).isPrimitive = false ∧
      Odd.store.HoldsWithin (.node (.array Odd.array)) (.node (.object Odd.odd)) ∧
      Odd.odd ∉ Odd.store.inspectedFrom (.node (.array Odd.array)) := by
  refine ⟨Odd.newObject_kind, Odd.newArray_odd, rfl, rfl, ?_, ?_⟩
  · exact .single (.inr ⟨_, rfl, List.mem_singleton_self _⟩)
  · rw [Store.mem_inspectedFrom]
    intro reached
    -- No edge starts at an array of primitives.
    rcases Relation.ReflTransGen.cases_head reached with same | ⟨next, edge, _⟩
    · simp at same
    · cases edge with
      | element structured _ => cases structured

end GraphRules
