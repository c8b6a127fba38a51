import GraphRules.Store

/-! The lifetime of nodes: a node stays while a root or another node that stays holds it. -/

namespace GraphRules

namespace Store

/-- The nodes that are held from outside or by a node of the store. -/
def heldNodes (store : Store) (roots : List Value) : List NodeId :=
  (roots ++ store.values).filterMap Value.held?

/-- For every place of the store, whether its node is held. -/
def heldPlaces (store : Store) (roots : List Value) : Array Bool :=
  (store.heldNodes roots).foldl (fun places id => places.setIfInBounds id.index true)
    (Array.replicate store.cells.size false)

/-- Removes every node that nothing holds at this moment. -/
def sweep (store : Store) (roots : List Value) : Store :=
  let held := store.heldPlaces roots
  { store with cells := store.cells.mapIdx fun index cell =>
      if held[index]?.getD false then cell else none }

/-- How many nodes are there. -/
def population (store : Store) : Nat := store.cells.countP Option.isSome

/-- Removes nodes that nothing holds until every node that is left is held. -/
def reclaim (store : Store) (roots : List Value) : Store :=
  let swept := store.sweep roots
  -- What a removed node held may be held by nothing now.
  if swept.population < store.population then swept.reclaim roots else store
termination_by store.population

end Store

end GraphRules
