import GraphRules.Proofs.Store.Program
import GraphRules.Proofs.Value.Imprint

/-! Comparisons over whole programs: what values are equal is told by their imprints for good. -/

namespace GraphRules

namespace Heap

/-- A program keeps all nodes that were made, whether or not they are still there. -/
theorem nodes_subset_run (heap : Heap) (program : List Action) :
    heap.nodes ⊆ (heap.run program).nodes := by
  induction program generalizing heap with
  | nil => exact List.Subset.refl _
  | cons action rest later =>
    -- An action makes one more node, or none.
    have grows : heap.nodes ⊆ (heap.after action).nodes := by
      rcases heap.nodes_after action with same | ⟨node, _, after⟩
      · rw [same]
        exact List.Subset.refl _
      · rw [after]
        exact List.subset_cons_self node heap.nodes
    exact List.Subset.trans grows (later (heap.after action))

/-- Equality is a partial equivalence, and lasts whatever becomes of the nodes. -/
theorem equality_lasts :
    (∀ left right : Value, left.equal right = right.equal left) ∧
    (∀ left middle right : Value, left.equal middle = true → middle.equal right = true →
      left.equal right = true) ∧
    -- A value differs from itself exactly when it ends in what is not a number.
    (∀ value : Value, value.equal value = false ↔ value.innermost = .float .nan) ∧
    -- Nodes are equal exactly when they are the same.
    (∀ left right : Node, (Value.node left).equal (.node right) = true ↔
      (Value.node left).identity = (Value.node right).identity) ∧
    -- Values of now and of later are compared by their imprints, and so do sets and maps.
    ∀ program later : List Action, empty.Allows (program ++ later) →
      let before := empty.run program
      let after := empty.run (program ++ later)
      ∀ left right : Value, left.Grounded before.nodes → right.Grounded after.nodes →
        (left.equal right = true ↔
          ∃ imprint, left.imprint? = some imprint ∧ right.imprint? = some imprint) ∧
        (∀ collection : Collection, collection.kind.isAssignableTo .set = true →
          after.store.items collection = [left] →
          ((after.store.push collection right).1 = false ↔ left.equal right = true)) ∧
        ∀ (map : Map) (stored : Value), after.store.entries map = [(left, stored)] →
          after.store.lookup? map right = if left.equal right then some stored else none := by
  refine ⟨Value.equal_comm, ?transitive, Value.equal_self_eq_false_iff, ?identity, ?lasting⟩
  case transitive =>
    intro left middle right one two
    exact Value.equal_trans one two
  case identity =>
    intro left right
    -- A node is its own identity.
    change (left == right) = true ↔ some left = some right
    exact beq_iff_eq.trans (Option.some_inj).symm
  case lasting =>
    intro program later allowed before after left right one two
    have sound : after.store.Sound after.nodes := (built_run allowed).sound
    -- The earlier value leads to a node that is known later as well.
    have known : before.nodes ⊆ after.nodes := by
      have run : after = before.run later := List.foldl_append
      rw [run]
      exact before.nodes_subset_run later
    refine ⟨Value.equal_iff_imprint sound.apart (one.mono known) two, ?_, ?_⟩
    · intro collection set items
      -- A set refuses exactly what is equal to its one item.
      rw [Store.push_eq_false_iff, Store.refuses_iff, items]
      simp [set]
    · intro map stored entries
      rw [Store.lookup?, entries, List.find?_singleton]
      split <;> rfl

namespace Parting

def kept : Object := ⟨⟨0⟩, .objectType "Kept", by decide⟩

def lost : Object := ⟨⟨1⟩, .objectType "Lost", by decide⟩

def group : Collection := ⟨⟨2⟩, .set, rfl⟩

def fresh : Object := ⟨⟨3⟩, .objectType "Lost", by decide⟩

/-- A set holds a weak reference. -/
def program : List Action :=
  [.newObject (.objectType "Kept"), .newObject (.objectType "Lost"),
    .newSet [.weak (some (.object lost))]]

/-- The target of the reference goes, and a node like the lost one is made. -/
def later : List Action :=
  [.reclaim [.node (.object kept), .node (.collection group)], .setMember kept "next" .null,
    .newObject (.objectType "Lost")]

end Parting

/-- A weak reference equals itself after its target is gone, and no reference to a new node. -/
theorem equality_lasts_parting :
    let lost : Value := .weak (some (.object Parting.lost))
    let fresh : Value := .weak (some (.object Parting.fresh))
    let before := empty.run Parting.program
    let after := empty.run (Parting.program ++ Parting.later)
    empty.Allows (Parting.program ++ Parting.later) ∧
      lost.Grounded before.nodes ∧ lost.Grounded after.nodes ∧ fresh.Grounded after.nodes ∧
      Parting.group.kind.isAssignableTo .set = true ∧ after.store.items Parting.group = [lost] ∧
      after.store.upgrade? (some (.object Parting.lost)) = none ∧
      (after.store.push Parting.group lost).1 = false ∧
      (after.store.push Parting.group fresh).1 = true := by
  intro lost fresh before after
  -- The program is run as far as it goes, and what is known of it is evaluated.
  have allowed : empty.Allows (Parting.program ++ Parting.later) := by decide +kernel
  have one : lost.Grounded before.nodes := by decide +kernel
  have same : lost.Grounded after.nodes := by decide +kernel
  have other : fresh.Grounded after.nodes := by decide +kernel
  have set : Parting.group.kind.isAssignableTo .set = true := by decide
  have items : after.store.items Parting.group = [lost] := by decide +kernel
  have gone : after.store.upgrade? (some (.object Parting.lost)) = none := by decide +kernel
  -- Both references are compared to the lost one, which the set has kept.
  have lasting := equality_lasts.2.2.2.2 Parting.program Parting.later allowed lost
  obtain ⟨alike, refused, _⟩ := lasting lost one same
  obtain ⟨unlike, taken, _⟩ := lasting fresh one other
  refine ⟨allowed, one, same, other, set, items, gone, ?_, ?_⟩
  · exact (refused Parting.group set items).mpr (alike.mpr ⟨.weak (some ⟨1⟩), rfl, rfl⟩)
  · -- The two references lead to different places.
    rw [← Bool.not_eq_false, taken Parting.group set items, unlike]
    intro common
    obtain ⟨imprint, first, second⟩ := common
    have places : some (Value.Imprint.weak (some ⟨1⟩)) = some (.weak (some ⟨3⟩)) :=
      first.trans second.symm
    simp at places

end Heap

end GraphRules
