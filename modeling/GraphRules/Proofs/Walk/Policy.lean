import GraphRules.Proofs.Walk.Reach
import GraphRules.Walk.Journal

/-! Visitors whose answers depend on nothing but what they are asked. -/

namespace GraphRules

/-- Answers that depend on nothing but the question. -/
structure Policy where
  -- Nothing hangs on the answer about a null member, so there is none.
  acceptKind : Kind → Bool
  enterObject : Object → Bool
  acceptMember : Member → Bool
  visitField : Member → Bool
  visitArray : Member → FixedArray → Bool
  visitCollection : Member → Collection → Bool
  visitMap : Member → Map → Bool
  visitMapKeys : Member → Map → Bool
  visitMapValues : Member → Map → Bool

/-- A visitor answers as a policy says, whatever state it is in. -/
structure Visitor.Follows {State : Type} (visitor : Visitor State) (policy : Policy) : Prop where
  acceptKind : ∀ kind state, (visitor.acceptKind kind state).1 = policy.acceptKind kind
  enterObject : ∀ object state, (visitor.enterObject object state).1 = policy.enterObject object
  acceptMember : ∀ member state, (visitor.acceptMember member state).1 = policy.acceptMember member
  visitField : ∀ member state, (visitor.visitField member state).1 = policy.visitField member
  visitArray : ∀ member array state,
    (visitor.visitArray member array state).1 = policy.visitArray member array
  visitCollection : ∀ member collection state,
    (visitor.visitCollection member collection state).1 = policy.visitCollection member collection
  visitMap : ∀ member map state, (visitor.visitMap member map state).1 = policy.visitMap member map
  visitMapKeys : ∀ member map state,
    (visitor.visitMapKeys member map state).1 = policy.visitMapKeys member map
  visitMapValues : ∀ member map state,
    (visitor.visitMapValues member map state).1 = policy.visitMapValues member map

/-- Whether a member with this value is asked about as a field. -/
def Value.isField : Value → Bool
  | .null => false
  | .node (.array _) => false
  | .node (.collection _) => false
  | .node (.map _) => false
  | _ => true

namespace Policy

/-- The policy that accepts everything. -/
def acceptAll : Policy where
  acceptKind _ := true
  enterObject _ := true
  acceptMember _ := true
  visitField _ := true
  visitArray _ _ := true
  visitCollection _ _ := true
  visitMap _ _ := true
  visitMapKeys _ _ := true
  visitMapValues _ _ := true

/-- The policy that accepts whatever is not refused. -/
def refusing (refusals : Refusals) : Policy where
  acceptKind kind := refusals.kind.admits kind.name
  enterObject object := refusals.enter.admits object.kind.name
  acceptMember member := (refusals.member .inspect).admits member.text
  visitField member := (refusals.member .field).admits member.text
  visitArray member _ := (refusals.member .array).admits member.text
  visitCollection member _ := (refusals.member .collection).admits member.text
  visitMap member _ := (refusals.member .map).admits member.text
  visitMapKeys member _ := (refusals.member .mapKeys).admits member.text
  visitMapValues member _ := (refusals.member .mapValues).admits member.text

/-- Whether values of a kind are examined at all. -/
def opens (policy : Policy) (kind : Kind) : Bool := !kind.isCore && policy.acceptKind kind

variable (policy : Policy) (store : Store)

/-- What an accepted member leads to, by the question for the shape of its value. -/
inductive MemberLeads (member : Member) : Value → Prop
  | field (shape : member.value.isField = true) (visited : policy.visitField member = true) :
    MemberLeads member member.value
  | array {array : FixedArray} (shape : member.value = .node (.array array))
    (visited : policy.visitArray member array = true) : MemberLeads member member.value
  | collection {collection : Collection} (shape : member.value = .node (.collection collection))
    (visited : policy.visitCollection member collection = true) : MemberLeads member member.value
  -- A map leads to its keys and its values, each side by an answer of its own.
  | key {map : Map} {entry : Value × Value} (shape : member.value = .node (.map map))
    (visited : policy.visitMap member map = true) (keys : policy.visitMapKeys member map = true)
    (held : entry ∈ store.entries map) : MemberLeads member entry.1
  | value {map : Map} {entry : Value × Value} (shape : member.value = .node (.map map))
    (visited : policy.visitMap member map = true) (values : policy.visitMapValues member map = true)
    (held : entry ∈ store.entries map) : MemberLeads member entry.2

/-- The edges that a policy leaves open. -/
inductive Leads : Value → Value → Prop
  -- A value of a core kind, or of a kind that is not accepted, has none.
  | element {array : FixedArray} {item : Value} (opened : policy.opens .array = true)
    (structured : array.element.isPrimitive = false) (held : item ∈ store.itemsAt array.id) :
    Leads (.node (.array array)) item
  | item {collection : Collection} {item : Value} (opened : policy.opens collection.kind = true)
    (held : item ∈ store.items collection) : Leads (.node (.collection collection)) item
  | key {map : Map} {entry : Value × Value} (opened : policy.opens map.kind = true)
    (held : entry ∈ store.entries map) : Leads (.node (.map map)) entry.1
  | value {map : Map} {entry : Value × Value} (opened : policy.opens map.kind = true)
    (held : entry ∈ store.entries map) : Leads (.node (.map map)) entry.2
  | member {object : Object} {member : Member} {target : Value}
    (opened : policy.opens object.kind = true) (entered : policy.enterObject object = true)
    (held : member ∈ store.memberViews object) (accepted : policy.acceptMember member = true)
    (leads : MemberLeads policy store member target) : Leads (.node (.object object)) target

/-- A value can be reached from another along open edges. -/
def Reaches : Value → Value → Prop := Relation.ReflTransGen (policy.Leads store)

/-- Open edges start at values of a kind that is examined. -/
theorem Leads.opened {policy : Policy} {store : Store} {source target : Value}
    (edge : policy.Leads store source target) : policy.opens source.kind = true := by
  -- Every form of edge says so about the value that it starts at.
  cases edge <;> assumption

/-- A policy shuts edges and adds none: where it leads is a stride away, over a map at most. -/
theorem Leads.strides {policy : Policy} {store : Store} {source target : Value}
    (edge : policy.Leads store source target) : store.Strides source target := by
  cases edge with
  | element _ structured held => exact .inl (.element structured held)
  | item _ held => exact .inl (.item held)
  | key _ held => exact .inl (.key held)
  | value _ held => exact .inl (.value held)
  | member _ _ viewed _ leads =>
    obtain ⟨named, held, rfl⟩ := List.mem_map.mp viewed
    -- Only a member that holds a map leads past its value.
    cases leads with
    | field | array | collection => exact .inl (.member held)
    | key shape _ _ side => exact .inr ⟨_, shape ▸ .member held, .key side⟩
    | value shape _ _ side => exact .inr ⟨_, shape ▸ .member held, .value side⟩

/-! ### Members by the shape of their value -/

variable {policy : Policy} {store : Store} {member : Member} {target : Value}

/-- A null member leads nowhere. -/
theorem not_memberLeads_null (shape : member.value = .null) :
    ¬policy.MemberLeads store member target := by
  -- Every form of edge needs a value of another shape.
  intro leads
  cases leads <;> simp_all [Value.isField]

/-- A member that holds an array leads to the array, if the policy visits it. -/
theorem memberLeads_array {array : FixedArray} (shape : member.value = .node (.array array)) :
    policy.MemberLeads store member target ↔
      policy.visitArray member array = true ∧ target = member.value := by
  -- Only one of the five cases is about arrays.
  constructor
  · intro leads
    cases leads <;> simp_all [Value.isField]
  · rintro ⟨visited, rfl⟩
    exact .array shape visited

/-- A member that holds a collection leads to the collection, if the policy visits it. -/
theorem memberLeads_collection {collection : Collection}
    (shape : member.value = .node (.collection collection)) :
    policy.MemberLeads store member target ↔
      policy.visitCollection member collection = true ∧ target = member.value := by
  -- Only one of the five cases is about collections.
  constructor
  · intro leads
    cases leads <;> simp_all [Value.isField]
  · rintro ⟨visited, rfl⟩
    exact .collection shape visited

/-- A member that holds a map leads to the sides of its entries that the policy chooses. -/
theorem memberLeads_map {map : Map} (shape : member.value = .node (.map map)) :
    policy.MemberLeads store member target ↔
      policy.visitMap member map = true ∧
        target ∈ store.entrySides map (policy.visitMapKeys member map)
          (policy.visitMapValues member map) := by
  -- Two of the five cases are about maps, one for each side.
  rw [Store.mem_entrySides]
  constructor
  · intro leads
    cases leads with
    | key same visited keys held =>
      obtain rfl : _ = map := by simpa using same.symm.trans shape
      exact ⟨visited, _, held, .inl ⟨keys, rfl⟩⟩
    | value same visited values held =>
      obtain rfl : _ = map := by simpa using same.symm.trans shape
      exact ⟨visited, _, held, .inr ⟨values, rfl⟩⟩
    | _ => simp_all [Value.isField]
  · rintro ⟨visited, entry, held, ⟨keys, rfl⟩ | ⟨values, rfl⟩⟩
    · exact .key shape visited keys held
    · exact .value shape visited values held

/-- Any other member leads to its value, if the policy visits it as a field. -/
theorem memberLeads_field (shape : member.value.isField = true) :
    policy.MemberLeads store member target ↔
      policy.visitField member = true ∧ target = member.value := by
  -- Only one of the five cases is about other values.
  constructor
  · intro leads
    cases leads <;> simp_all [Value.isField]
  · rintro ⟨visited, rfl⟩
    exact .field shape visited

end Policy

namespace Visitor

variable {State : Type} {visitor : Visitor State} {policy : Policy} {store : Store}

/-- The visitor that accepts everything follows the policy that does. -/
theorem acceptAll_follows : acceptAll.Follows .acceptAll := by
  -- Every answer is yes.
  constructor <;> intros <;> rfl

/-- What is refused does not depend on what was asked before. -/
theorem refusing_follows (refusals : Refusals) :
    (refusing refusals).Follows (.refusing refusals) := by
  -- Every answer is looked up in the refusals.
  constructor <;> intros <;> rfl

/-- A value is walked as a whole when the one question about it is answered with yes. -/
theorem mem_whole {accepted : Bool} {value target : Value} :
    target ∈ (if accepted then [value] else []) ↔ accepted = true ∧ target = value := by
  -- The value is there or not.
  cases accepted <;> simp

namespace Follows

/-- An accepted member leads where the policy says. -/
theorem mem_inspectAccepted (follows : visitor.Follows policy) {member : Member} {state : State}
    {target : Value} :
    target ∈ (visitor.inspectAccepted store member state).1 ↔
      policy.MemberLeads store member target := by
  rw [inspectAccepted_apply]
  -- The cases are the shapes of the member's value, each with a question of its own.
  split
  · next shape => exact iff_of_false List.not_mem_nil (Policy.not_memberLeads_null shape)
  · next shape => rw [Policy.memberLeads_array shape, mem_whole, follows.visitArray]
  · next shape => rw [Policy.memberLeads_collection shape, mem_whole, follows.visitCollection]
  · next map shape =>
    rw [Policy.memberLeads_map shape]
    dsimp only
    rw [follows.visitMap]
    -- The sides are asked for one after the other, and only for a map that is visited.
    split
    · next visited => rw [follows.visitMapKeys, follows.visitMapValues, and_iff_right visited]
    · next declined => simp [declined]
  · next notNull notArray notCollection notMap =>
    have shape : member.value.isField = true := by
      unfold Value.isField
      split <;> simp_all
    rw [Policy.memberLeads_field shape, mem_whole, follows.visitField]

/-- A member leads where the policy says once it is accepted, and nowhere otherwise. -/
theorem mem_inspect (follows : visitor.Follows policy) {member : Member} {state : State}
    {target : Value} :
    target ∈ (visitor.inspect store member state).1 ↔
      policy.acceptMember member = true ∧ policy.MemberLeads store member target := by
  -- The question about the member comes first, and then that about the shape of its value.
  rw [inspect_apply]
  dsimp only
  rw [follows.acceptMember]
  split
  · next accepted => rw [follows.mem_inspectAccepted, and_iff_right accepted]
  · next declined => simp [declined]

/-- Members lead where each of them does. -/
theorem mem_inspectAll (follows : visitor.Follows policy) {members : List Member} {state : State}
    {target : Value} :
    target ∈ (visitor.inspectAll store members state).1 ↔
      ∃ member ∈ members,
        policy.acceptMember member = true ∧ policy.MemberLeads store member target := by
  induction members generalizing state with
  | nil => simp [inspectAll, pure_apply]
  | cons member rest later =>
    -- The answers about the first member change the state and nothing else.
    rw [inspectAll_cons]
    simp only [List.mem_append, follows.mem_inspect, later, List.mem_cons, exists_eq_or_imp]

/-- Opening a value leads along exactly the edges that the policy leaves open. -/
theorem mem_expand (follows : visitor.Follows policy) {source target : Value}
    (opened : policy.opens source.kind = true) {state : State} :
    target ∈ (visitor.expand store source state).1.next ↔ policy.Leads store source target := by
  cases source with
  | node handle =>
    cases handle with
    | array array =>
      -- An array leads to its items unless it is one of primitives.
      simp only [expand, pure_apply]
      constructor
      · intro held
        split at held
        · simp at held
        · next structured => exact .element opened (by simpa using structured) held
      · intro edge
        cases edge with
        | element _ structured held => simpa [structured] using held
    | collection collection =>
      simp only [expand, pure_apply]
      constructor
      · exact fun held => .item opened held
      · intro edge
        cases edge with
        | item _ held => exact held
    | map map =>
      -- A map leads to both sides of its entries.
      simp only [expand, pure_apply, Store.mem_entrySides]
      constructor
      · rintro ⟨entry, held, ⟨_, rfl⟩ | ⟨_, rfl⟩⟩
        · exact .key opened held
        · exact .value opened held
      · intro edge
        cases edge with
        | key _ held => exact ⟨_, held, .inl ⟨trivial, rfl⟩⟩
        | value _ held => exact ⟨_, held, .inr ⟨trivial, rfl⟩⟩
    | object object =>
      rw [expand_object]
      dsimp only
      rw [follows.enterObject]
      -- The members of an object lead on only if it is entered.
      constructor
      · intro led
        split at led
        · next entered =>
          obtain ⟨member, held, accepted, leads⟩ := follows.mem_inspectAll.mp led
          exact .member opened entered held accepted leads
        · simp [Examination.closed] at led
      · intro edge
        cases edge with
        | member _ entered held accepted leads =>
          rw [if_pos entered]
          exact follows.mem_inspectAll.mpr ⟨_, held, accepted, leads⟩
    | threadScoped box =>
      -- Boxes lead nowhere.
      refine iff_of_false List.not_mem_nil fun edge => ?_
      cases edge
  | _ =>
    refine iff_of_false List.not_mem_nil fun edge => ?_
    cases edge

/-- A value is opened when its kind is examined, and closed otherwise. -/
theorem examine_eq (follows : visitor.Follows policy) (source : Value) (state : State) :
    (visitor.examine store source state).1 =
      if policy.opens source.kind then
        (visitor.expand store source (visitor.acceptKind source.kind state).2).1
      else .closed := by
  rw [examine_apply, Policy.opens]
  -- The visitor is not even asked about a core kind.
  cases source.kind.isCore with
  | true => rfl
  | false =>
    simp only [Bool.false_eq_true, if_false, Bool.not_false, Bool.true_and, follows.acceptKind]
    split <;> rfl

/-- Examining a value leads along exactly the edges that the policy leaves open. -/
theorem mem_examine (follows : visitor.Follows policy) {source target : Value} {state : State} :
    target ∈ (visitor.examine store source state).1.next ↔ policy.Leads store source target := by
  -- An examination follows the edges of its value, if its kind is opened.
  rw [follows.examine_eq]
  split
  · next opened => exact follows.mem_expand opened
  · next shut => exact iff_of_false List.not_mem_nil fun edge => shut edge.opened

/-- An examination enters exactly the objects accepted by their kind and by themselves. -/
theorem entered_examine (follows : visitor.Follows policy) {object : Object} {state : State} :
    (visitor.examine store (.node (.object object)) state).1.entered = true ↔
      policy.acceptKind object.kind = true ∧ policy.enterObject object = true := by
  -- The kind of an object is not core, so it is left to the policy.
  have structured : object.kind.isCore = false := Kind.isCore_eq_false object.structured rfl
  have opened : policy.opens (Value.node (.object object)).kind =
      policy.acceptKind object.kind := by
    simp [Policy.opens, Value.kind, Node.kind, structured]
  rw [follows.examine_eq, opened, expand_object]
  dsimp only
  rw [follows.enterObject]
  cases policy.acceptKind object.kind <;> cases policy.enterObject object <;>
    simp [Examination.closed]

end Follows

end Visitor

end GraphRules
