import GraphRules.Proofs.Numeric.Value
import GraphRules.Proofs.Value.Equality

/-! What equality sees of a value: two values are equal exactly when they leave the same imprint. -/

namespace GraphRules

/-- Only what is not a number differs from itself. -/
theorem Double.equal_self_eq_false_iff {x : Double} : x.equal x = false ↔ x = .nan := by
  -- Whatever is a number equals itself.
  cases x <;> simp [equal]

/-- Nodes at different places are told apart by their places, also if some are missing. -/
theorem Node.map_id_inj {nodes : List Node}
    (apart : ∀ first ∈ nodes, ∀ second ∈ nodes, first.id = second.id → first = second)
    {left right : Option Node} (one : ∀ node, left = some node → node ∈ nodes)
    (two : ∀ node, right = some node → node ∈ nodes) :
    left.map Node.id = right.map Node.id ↔ left = right := by
  -- The places of known nodes tell the nodes, if there are any.
  constructor
  · intro places
    cases left with
    | none => exact (Option.map_eq_none_iff.mp places.symm).symm
    | some first =>
      cases right with
      | none => cases places
      | some second =>
        have same := apart first (one first rfl) second (two second rfl)
        exact congrArg some (same (Option.some.inj places))
  · intro same
    rw [same]

namespace Value

/-- What is inside of all the optional boxes and strong references around a value. -/
def innermost : Value → Value
  | .present payload => payload.innermost
  | .strong referent => referent.innermost
  -- Nothing is taken out of a box without a payload, a weak reference or a node.
  | value => value

/-- A value differs from itself exactly when it is no number, in any boxes. -/
theorem equal_self_eq_false_iff (value : Value) :
    value.equal value = false ↔ value.innermost = .float .nan := by
  -- The induction goes through the boxes, which pass on the question to their payload.
  induction value with
  | present payload inside => exact inside
  | strong referent inside => exact inside
  | float content =>
    change content.equal content = false ↔ _
    simp only [innermost, Double.equal_self_eq_false_iff, Value.float.injEq]
  | null | vacant =>
    exact iff_of_false (fun unequal => by cases unequal) (fun shape => by cases shape)
  | _ =>
    -- All other values are compared by what decides their equality.
    refine iff_of_false (fun unequal => ?_) (fun shape => by cases shape)
    exact Bool.false_ne_true (unequal.symm.trans (beq_self_eq_true _))

/-- What equality sees of a value. -/
inductive Imprint
  | null
  | boolean (content : Bool)
  | integer (content : Int64)
  | float (number : ExtendedRat)
  | decimal (number : ℚ)
  | text (content : String)
  | vacant
  | present (payload : Imprint)
  | strong (referent : Imprint)
  /-- The place of the target, also when nothing is left there. -/
  | weak (place : Option NodeId)
  | node (place : NodeId)

/-- The imprint of a value, unless it ends in a binary value that is not a number. -/
def imprint? : Value → Option Imprint
  | .null => some .null
  | .boolean content => some (.boolean content)
  | .integer content => some (.integer content)
  -- Both zeros, and all forms of a decimal, leave the imprint of their number.
  | .float content => content.value?.map .float
  | .decimal content => some (.decimal content.value)
  | .text content => some (.text content)
  | .vacant => some .vacant
  | .present payload => payload.imprint?.map .present
  | .strong referent => referent.imprint?.map .strong
  -- What a node holds leaves no trace.
  | .weak target => some (.weak (target.map Node.id))
  | .node handle => some (.node handle.id)

/-- The node that a value leads to, if it leads to one, through any boxes and weak references. -/
def node? : Value → Option Node
  | .present payload => payload.node?
  | .strong referent => referent.node?
  | .weak target => target
  | .node handle => some handle
  | _ => none

/-- A value leads to none but these nodes. -/
def Grounded (nodes : List Node) (value : Value) : Prop :=
  ∀ node, value.node? = some node → node ∈ nodes

instance (nodes : List Node) (value : Value) : Decidable (value.Grounded nodes) :=
  inferInstanceAs (Decidable (∀ node ∈ value.node?, node ∈ nodes))

/-- A value that leads to none but some nodes leads to none but these and others. -/
theorem Grounded.mono {nodes more : List Node} (grows : nodes ⊆ more) {value : Value}
    (grounded : value.Grounded nodes) : value.Grounded more :=
  fun node leads => grows (grounded node leads)

/-- Among nodes at different places, values are equal when they leave the same imprint. -/
theorem equal_iff_imprint {nodes : List Node}
    (apart : ∀ first ∈ nodes, ∀ second ∈ nodes, first.id = second.id → first = second)
    {left right : Value} (one : left.Grounded nodes) (two : right.Grounded nodes) :
    left.equal right = true ↔
      ∃ imprint, left.imprint? = some imprint ∧ right.imprint? = some imprint := by
  -- Values of different shapes are unequal, and their imprints are of different shapes as well.
  induction left generalizing right with
  -- Wrapped values are known by induction.
  | present payload same =>
    cases right with
    | present other =>
      change payload.equal other = true ↔ _
      simpa [imprint?] using @same other one two
    | _ => exact iff_of_false Bool.false_ne_true (by simp [imprint?])
  | strong referent same =>
    cases right with
    | strong other =>
      change referent.equal other = true ↔ _
      simpa [imprint?] using @same other one two
    | _ => exact iff_of_false Bool.false_ne_true (by simp [imprint?])
  -- The imprint of a number is what it is compared as, and there is none without a number.
  | float content =>
    cases right with
    | float other =>
      change content.equal other = true ↔ _
      simp [imprint?, Double.equal_iff]
    | _ => exact iff_of_false Bool.false_ne_true (by simp [imprint?])
  | decimal content =>
    cases right with
    | decimal other =>
      change content.equal other = true ↔ _
      simp [imprint?, Decimal.equal_iff, @eq_comm _ content.value]
    | _ => exact iff_of_false Bool.false_ne_true (by simp [imprint?])
  | weak target =>
    cases right with
    | weak other =>
      -- The targets are compared whether or not they are still there.
      have targets : other.map Node.id = target.map Node.id ↔ target = other :=
        (Node.map_id_inj apart two one).trans eq_comm
      change (target == other) = true ↔ _
      simp [imprint?, targets]
    | _ => exact iff_of_false Bool.false_ne_true (by simp [imprint?])
  | node handle =>
    cases right with
    | node other =>
      have handles : other.id = handle.id ↔ handle = other := by
        constructor
        · intro places
          exact (apart other (two other rfl) handle (one handle rfl) places).symm
        · intro same
          rw [same]
      change (handle == other) = true ↔ _
      simp [imprint?, handles]
    | _ => exact iff_of_false Bool.false_ne_true (by simp [imprint?])
  -- Everything else is its own imprint.
  | boolean content | integer content | text content =>
    cases right <;> first
      | exact iff_of_false Bool.false_ne_true (by simp [imprint?])
      | exact beq_iff_eq.trans (by simp [imprint?, @eq_comm _ content])
  | null =>
    cases right with
    | null => exact iff_of_true rfl ⟨.null, rfl, rfl⟩
    | _ => exact iff_of_false Bool.false_ne_true (by simp [imprint?])
  | vacant =>
    cases right with
    | vacant => exact iff_of_true rfl ⟨.vacant, rfl, rfl⟩
    | _ => exact iff_of_false Bool.false_ne_true (by simp [imprint?])

end Value

end GraphRules
