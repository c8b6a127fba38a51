import GraphRules.Store

/-! The edges of a value graph, from containers to what they hold and from objects to members. -/

namespace GraphRules

namespace Store

/-- One value holds another in a way that a walk follows. -/
inductive Leads (store : Store) : Value → Value → Prop
  -- Boxes lead nowhere, and neither do arrays of primitives.
  | element {array : FixedArray} {item : Value} (structured : array.element.isPrimitive = false)
    (held : item ∈ store.itemsAt array.id) : Leads store (.node (.array array)) item
  | item {collection : Collection} {item : Value} (held : item ∈ store.items collection) :
    Leads store (.node (.collection collection)) item
  | key {map : Map} {entry : Value × Value} (held : entry ∈ store.entries map) :
    Leads store (.node (.map map)) entry.1
  | value {map : Map} {entry : Value × Value} (held : entry ∈ store.entries map) :
    Leads store (.node (.map map)) entry.2
  | member {object : Object} {member : String × Value} (held : member ∈ store.members object) :
    Leads store (.node (.object object)) member.2

/-- One edge, or two of which the first ends at a map. -/
def Strides (store : Store) (source target : Value) : Prop :=
  store.Leads source target ∨
    -- The keys and values of a map that is a member are walked without the map.
    ∃ map : Map, store.Leads source (.node (.map map)) ∧ store.Leads (.node (.map map)) target

/-- Every edge starts at a node. -/
theorem Leads.source_node {store : Store} {source target : Value}
    (edge : store.Leads source target) : ∃ node, source = .node node := by
  -- Every form of edge names the node that it starts at.
  cases edge <;> exact ⟨_, rfl⟩

/-- Every stride starts at a node. -/
theorem Strides.source_node {store : Store} {source target : Value}
    (stride : store.Strides source target) : ∃ node, source = .node node := by
  -- Over a map or not, a stride starts with an edge.
  rcases stride with edge | ⟨_, edge, _⟩ <;> exact edge.source_node

/-- What a node holds is held by the store. -/
theorem mem_values_of_contents {store : Store} {id : NodeId} {contents : Contents}
    (present : store.contents? id = some contents) {value : Value}
    (held : value ∈ contents.values) :
    value ∈ store.values := by
  -- The place of the node is one of the places that the store goes through.
  have placed : store.cells[id.index]? = some (some contents) := by
    simpa [contents?, Option.join_eq_some_iff] using present
  have listed : some contents ∈ store.cells.toList := by
    rw [Array.mem_toList_iff]
    exact Array.mem_of_getElem? placed
  exact List.mem_flatMap.mpr ⟨some contents, listed, by simpa using held⟩

/-- Every edge ends at a value that the store holds. -/
theorem Leads.mem_values {store : Store} {source target : Value}
    (edge : store.Leads source target) :
    target ∈ store.values := by
  -- A node that is not there holds nothing, so the contents are at hand in every case.
  cases edge with
  | element _ held =>
    unfold itemsAt at held
    split at held
    · next contents => exact mem_values_of_contents contents (by simpa [Contents.values] using held)
    · simp at held
  | item held =>
    unfold items itemsAt at held
    split at held
    · next contents => exact mem_values_of_contents contents (by simpa [Contents.values] using held)
    · simp at held
  -- Keys and values of entries are both among the values held.
  | @key map entry held =>
    unfold entries at held
    split at held
    · next contents =>
      exact mem_values_of_contents contents (List.mem_flatMap.mpr ⟨entry, held, by simp⟩)
    · simp at held
  | @value map entry held =>
    unfold entries at held
    split at held
    · next contents =>
      exact mem_values_of_contents contents (List.mem_flatMap.mpr ⟨entry, held, by simp⟩)
    · simp at held
  -- A member is found by its name among the values of the object.
  | @member object member held =>
    unfold members memberTable at held
    split at held
    · next contents =>
      exact mem_values_of_contents contents (List.mem_map.mpr ⟨member, held, rfl⟩)
    · simp [Members.empty] at held

/-- Every stride ends at a value that the store holds. -/
theorem Strides.mem_values {store : Store} {source target : Value}
    (stride : store.Strides source target) : target ∈ store.values := by
  -- Over a map or not, a stride ends with an edge.
  rcases stride with edge | ⟨_, _, edge⟩ <;> exact edge.mem_values

end Store

end GraphRules
