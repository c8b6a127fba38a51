import GraphRules.Proofs.Kind.Core

/-! The shape of a value shows in its kind, core for all but containers and objects. -/

namespace GraphRules

namespace Value

/-- Whether a value is an array, a collection, a map or an object. -/
def isStructured : Value → Bool
  | .node (.array _) => true
  | .node (.collection _) => true
  | .node (.map _) => true
  | .node (.object _) => true
  -- Boxes hold values too, but nothing walks into them.
  | _ => false

/-- A structured value has one of four shapes. -/
theorem isStructured_iff {value : Value} :
    value.isStructured = true ↔
      (∃ array, value = .node (.array array)) ∨
        (∃ collection, value = .node (.collection collection)) ∨
        (∃ map, value = .node (.map map)) ∨ ∃ object, value = .node (.object object) := by
  -- Each shape is a form of handle of its own.
  cases value with
  | node handle => cases handle <;> simp [isStructured]
  | _ => simp [isStructured]

/-- A value is structured exactly when its kind is not core. -/
theorem isCore_kind (value : Value) : value.kind.isCore = !value.isStructured := by
  cases value with
  | node handle =>
    -- The kind of a container or an object fits where structure is expected, since no other is let
    -- in.
    cases handle with
    | array | threadScoped => rfl
    | collection collection => exact Kind.isCore_eq_false collection.iterable rfl
    | map map => exact Kind.isCore_of_isKeyed map.keyed
    | object object => exact Kind.isCore_eq_false object.structured rfl
  | _ => rfl

end Value

/-- Everything that a walk examines, apart from what is core, passes the cascade's test of kinds. -/
theorem Node.passes {node : Node} (structured : node.kind.isCore = false) :
    (node.kind.isContainer || node.kind.isAssignableTo .object) = true := by
  -- The kind of each node fits the head of its family; thread-scoped boxes are core.
  cases node with
  | array array => exact Bool.or_eq_true_iff.mpr (.inl rfl)
  | collection collection =>
    -- Every kind of collection fits where an iterable is expected.
    refine Bool.or_eq_true_iff.mpr (.inl (List.any_eq_true.mpr ⟨.iterable, by decide, ?_⟩))
    exact collection.iterable
  | map map =>
    -- Maps are of one of two families, both of them containers.
    refine Bool.or_eq_true_iff.mpr (.inl (List.any_eq_true.mpr ?_))
    rcases Bool.or_eq_true_iff.mp map.keyed with plain | dictionary
    · exact ⟨.map, by decide, plain⟩
    · exact ⟨.dictionary, by decide, dictionary⟩
  | object object => exact Bool.or_eq_true_iff.mpr (.inr object.structured)
  | threadScoped box => simp [kind, Kind.isCore, BuiltinKind.isCore] at structured

end GraphRules
