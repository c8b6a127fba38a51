import GraphRules.Rule.Basic

/-! The rule on the size of containers. -/

namespace GraphRules

/-- The number of elements of an array, a collection or a map. -/
def Store.containerSize? (store : Store) : Value → Option Nat
  | .node (.array array) => some (store.itemsAt array.id).length
  | .node (.collection collection) => some (store.items collection).length
  | .node (.map map) => some (store.entries map).length
  | _ => none

namespace Rule

/-- The number of elements lies within the bounds, both included. -/
def size (least greatest : Nat) : Rule where
  code := "size"
  check store value :=
    -- Null violates no rule on sizes; that it has to be there is a rule of its own.
    if value.isNull then none
    else
      match store.containerSize? value with
      | none => some (.typeMismatch "size" "an array, collection or map" value.kind.name)
      | some count =>
        if least ≤ count ∧ count ≤ greatest then none
        else some (.outOfRange "size" "size" least greatest count)

end Rule

end GraphRules
