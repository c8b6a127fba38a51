import GraphRules.Proofs.Value.Shape
import GraphRules.Proofs.Walk.Visits
import Mathlib.Logic.Relation

/-! Reachability along the edges of a value graph, and that no walk leaves it. -/

namespace GraphRules

namespace Store

/-- A value can be reached from another along edges, in any number of them. -/
def Reaches (store : Store) : Value → Value → Prop := Relation.ReflTransGen store.Leads

variable {store : Store}

/-- A node with edges is not core. -/
theorem Leads.not_core {source target : Value}
    (edge : store.Leads source target) : source.kind.isCore = false := by
  -- Each edge starts at a container or an object.
  rw [Value.isCore_kind]
  cases edge <;> rfl

/-- What is chosen of a map are the keys of its entries, or the values, or both. -/
theorem mem_entrySides {map : Map} {keys values : Bool} {side : Value} :
    side ∈ store.entrySides map keys values ↔
      ∃ entry ∈ store.entries map,
        (keys = true ∧ side = entry.1) ∨ (values = true ∧ side = entry.2) := by
  -- Entry by entry, each side is listed if it is asked for.
  rw [entrySides, List.mem_flatMap]
  refine exists_congr fun entry => and_congr_right fun _ => ?_
  cases keys <;> cases values <;> simp

/-- Both sides of every entry are among the chosen ones when both are asked for. -/
theorem mem_entrySides_of_leads {map : Map} {side : Value}
    (edge : store.Leads (.node (.map map)) side) : side ∈ store.entrySides map true true := by
  rw [mem_entrySides]
  -- Only two kinds of edges start at a map.
  cases edge with
  | key held => exact ⟨_, held, .inl ⟨rfl, rfl⟩⟩
  | value held => exact ⟨_, held, .inr ⟨rfl, rfl⟩⟩

/-- Every value reaches itself. -/
theorem Reaches.refl (value : Value) : store.Reaches value value := Relation.ReflTransGen.refl

/-- What is reached can be left by one more edge. -/
theorem Reaches.tail {source middle target : Value} (reached : store.Reaches source middle)
    (edge : store.Leads middle target) : store.Reaches source target :=
  Relation.ReflTransGen.tail reached edge

/-- Reachability composes. -/
theorem Reaches.trans {source middle target : Value} (first : store.Reaches source middle)
    (second : store.Reaches middle target) : store.Reaches source target :=
  Relation.ReflTransGen.trans first second

/-- What is a stride away can be reached. -/
theorem Reaches.stride {source middle target : Value} (reached : store.Reaches source middle)
    (stride : store.Strides middle target) : store.Reaches source target := by
  -- A stride over a map takes two edges.
  rcases stride with edge | ⟨map, first, second⟩
  · exact reached.tail edge
  · exact (reached.tail first).tail second

/-- A value that is no node reaches nothing but itself. -/
theorem Reaches.eq_of_scalar {source target : Value} (scalar : source.identity = none)
    (reached : store.Reaches source target) : target = source := by
  -- A first edge would have to start at a node.
  rcases Relation.ReflTransGen.cases_head reached with same | ⟨middle, edge, _⟩
  · exact same.symm
  · obtain ⟨node, rfl⟩ := edge.source_node
    simp [Value.identity] at scalar

end Store

/-- Whatever its visitor answers, a walk takes only values off its queue that the root reaches. -/
theorem Walk.reaches_of_mem_taken {State : Type} {visitor : Visitor State} {store : Store}
    {root : Value} {state : State} {value : Value}
    (taken : value ∈ (start root state).taken visitor store) : store.Reaches root value := by
  -- Reachability spreads along strides, and at the start only the root waits.
  refine forall_taken (fun _ _ _ reached led => reached.stride (Visitor.strides_of_mem_examine led))
    (fun first waiting => ?_) value taken
  obtain rfl := eq_root_of_waiting waiting
  exact .refl first

end GraphRules
