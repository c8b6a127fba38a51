import GraphRules.Walk.Edge

/-! The decisions that steer a walk, and what a single value leads to under them. -/

namespace GraphRules

/-- A member of an object, as a visitor sees it. -/
structure Member where
  owner : Object
  name : String
  value : Value

/-- The kind of the owner and the name. -/
def Member.text (member : Member) : String := s!"{member.owner.kind}.{member.name}"

instance : ToString Member := ⟨Member.text⟩

/-- Decisions on what a walk looks into, over a state of the visitor's own. -/
structure Visitor (State : Type) where
  -- Each decision accepts where nothing is said.
  /-- Whether a value of this kind is examined at all. -/
  acceptKind : Kind → StateM State Bool := fun _ => pure true
  /-- Whether the members of an object are inspected. -/
  enterObject : Object → StateM State Bool := fun _ => pure true
  /-- Whether a member is inspected. -/
  acceptMember : Member → StateM State Bool := fun _ => pure true
  /-- A member that is null; there is nothing to walk either way. -/
  visitNull : Member → StateM State Bool := fun _ => pure true
  /-- A member that is neither null nor an array, a collection or a map. -/
  visitField : Member → StateM State Bool := fun _ => pure true
  visitArray : Member → FixedArray → StateM State Bool := fun _ _ => pure true
  visitCollection : Member → Collection → StateM State Bool := fun _ _ => pure true
  visitMap : Member → Map → StateM State Bool := fun _ _ => pure true
  /-- Whether the keys of an accepted map are walked. -/
  visitMapKeys : Member → Map → StateM State Bool := fun _ _ => pure true
  /-- Whether the values of an accepted map are walked. -/
  visitMapValues : Member → Map → StateM State Bool := fun _ _ => pure true
  /-- Told once, when nothing is left to walk. -/
  complete : StateM State Unit := pure ()

/-- The visitor that accepts everything. -/
def Visitor.acceptAll : Visitor Unit := {}

/-- What examining a value comes to: whether it was entered, and the values to walk next. -/
structure Examination where
  entered : Bool
  next : List Value

namespace Examination

/-- The outcome for a value that leads nowhere. -/
def closed : Examination := ⟨false, []⟩

end Examination

namespace Store

/-- The members of an object as a visitor sees them. -/
def memberViews (store : Store) (object : Object) : List Member :=
  (store.members object).map fun (name, value) => ⟨object, name, value⟩

/-- The chosen sides of the entries of a map, entry by entry. -/
def entrySides (store : Store) (map : Map) (keys values : Bool) : List Value :=
  (store.entries map).flatMap fun (key, value) =>
    (if keys then [key] else []) ++ (if values then [value] else [])

/-- Every side of an entry is an edge away from the map. -/
theorem leads_of_mem_entrySides {store : Store} {map : Map} {keys values : Bool} {side : Value}
    (chosen : side ∈ store.entrySides map keys values) : store.Leads (.node (.map map)) side := by
  obtain ⟨entry, held, chosen⟩ := List.mem_flatMap.mp chosen
  -- The side is the key or the value, whichever sides were asked for.
  rcases List.mem_append.mp chosen with key | value
  · obtain rfl : side = entry.1 := by cases keys <;> simp_all
    exact .key held
  · obtain rfl : side = entry.2 := by cases values <;> simp_all
    exact .value held

end Store

namespace Visitor

variable {State : Type}

/-- The values to walk from an accepted member: of a map only its keys and values. -/
def inspectAccepted (visitor : Visitor State) (store : Store) (member : Member) :
    StateM State (List Value) :=
  match member.value with
  | .null => do
    let _ ← visitor.visitNull member
    return []
  | .node (.array array) => do
    let accepted ← visitor.visitArray member array
    return if accepted then [member.value] else []
  | .node (.collection collection) => do
    let accepted ← visitor.visitCollection member collection
    return if accepted then [member.value] else []
  | .node (.map map) => do
    let accepted ← visitor.visitMap member map
    if accepted then
      let keys ← visitor.visitMapKeys member map
      let values ← visitor.visitMapValues member map
      return store.entrySides map keys values
    else return []
  | _ => do
    let accepted ← visitor.visitField member
    return if accepted then [member.value] else []

/-- The values to walk from a member. -/
def inspect (visitor : Visitor State) (store : Store) (member : Member) :
    StateM State (List Value) := do
  let accepted ← visitor.acceptMember member
  if accepted then visitor.inspectAccepted store member else return []

/-- The values to walk from members in order. -/
def inspectAll (visitor : Visitor State) (store : Store) : List Member → StateM State (List Value)
  | [] => return []
  | member :: rest => do
    let first ← visitor.inspect store member
    let others ← visitor.inspectAll store rest
    return first ++ others

/-- Where a value leads, once its kind is accepted. -/
def expand (visitor : Visitor State) (store : Store) : Value → StateM State Examination
  -- Arrays of primitives hold nothing to walk.
  | .node (.array array) =>
    return ⟨false, if array.element.isPrimitive then [] else store.itemsAt array.id⟩
  | .node (.collection collection) => return ⟨false, store.items collection⟩
  | .node (.map map) => return ⟨false, store.entrySides map true true⟩
  | .node (.object object) => do
    let entered ← visitor.enterObject object
    if entered then
      let next ← visitor.inspectAll store (store.memberViews object)
      return ⟨true, next⟩
    else return .closed
  | _ => return .closed

/-- Examines a value: core values are closed, whatever the visitor says. -/
def examine (visitor : Visitor State) (store : Store) (value : Value) :
    StateM State Examination := do
  if value.kind.isCore then return .closed
  else
    let accepted ← visitor.acceptKind value.kind
    if accepted then visitor.expand store value else return .closed

/-! ### Answers in order

Each function above, as a plain function of the visitor's state. -/

/-- An answer at hand leaves the state as it is. -/
theorem pure_apply {Answer : Type} (answer : Answer) (state : State) :
    (pure answer : StateM State Answer) state = (answer, state) := rfl

/-- One question after another passes the state on. -/
theorem bind_apply {Answer Next : Type} (first : StateM State Answer)
    (next : Answer → StateM State Next) (state : State) :
    (first >>= next) state = next (first state).1 (first state).2 := rfl

theorem inspectAccepted_apply (visitor : Visitor State) (store : Store) (member : Member)
    (state : State) :
    visitor.inspectAccepted store member state =
      match member.value with
      | .null => ([], (visitor.visitNull member state).2)
      | .node (.array array) =>
        let answer := visitor.visitArray member array state
        (if answer.1 then [member.value] else [], answer.2)
      | .node (.collection collection) =>
        let answer := visitor.visitCollection member collection state
        (if answer.1 then [member.value] else [], answer.2)
      | .node (.map map) =>
        let answer := visitor.visitMap member map state
        if answer.1 then
          let keys := visitor.visitMapKeys member map answer.2
          let values := visitor.visitMapValues member map keys.2
          (store.entrySides map keys.1 values.1, values.2)
        else ([], answer.2)
      | _ =>
        let answer := visitor.visitField member state
        (if answer.1 then [member.value] else [], answer.2) := by
  -- Only for a map does a later question hang on an earlier answer.
  obtain ⟨owner, name, value⟩ := member
  cases value with
  | node handle =>
    cases handle with
    | map map =>
      simp only [inspectAccepted, bind_apply]
      cases visitor.visitMap _ map state with
      | mk accepted after => cases accepted <;> rfl
    | _ => rfl
  | _ => rfl

theorem inspect_apply (visitor : Visitor State) (store : Store) (member : Member) (state : State) :
    visitor.inspect store member state =
      let answer := visitor.acceptMember member state
      if answer.1 then visitor.inspectAccepted store member answer.2 else ([], answer.2) := by
  -- A member that is declined leads nowhere.
  rw [inspect, bind_apply]
  cases visitor.acceptMember member state with
  | mk accepted after => cases accepted <;> rfl

theorem inspectAll_cons (visitor : Visitor State) (store : Store) (member : Member)
    (rest : List Member) (state : State) :
    visitor.inspectAll store (member :: rest) state =
      let first := visitor.inspect store member state
      let others := visitor.inspectAll store rest first.2
      (first.1 ++ others.1, others.2) := rfl

theorem expand_object (visitor : Visitor State) (store : Store) (object : Object) (state : State) :
    visitor.expand store (.node (.object object)) state =
      let answer := visitor.enterObject object state
      if answer.1 then
        let inspected := visitor.inspectAll store (store.memberViews object) answer.2
        (⟨true, inspected.1⟩, inspected.2)
      else (.closed, answer.2) := by
  -- The members of an object are looked at only once it is entered.
  rw [expand, bind_apply]
  cases visitor.enterObject object state with
  | mk entered after => cases entered <;> rfl

theorem examine_apply (visitor : Visitor State) (store : Store) (value : Value) (state : State) :
    visitor.examine store value state =
      if value.kind.isCore then (.closed, state)
      else
        let answer := visitor.acceptKind value.kind state
        if answer.1 then visitor.expand store value answer.2 else (.closed, answer.2) := by
  unfold examine
  split
  · rfl
  · -- The visitor is asked about the kind of a value that is not core.
    rw [bind_apply]
    cases visitor.acceptKind value.kind state with
    | mk accepted after => cases accepted <;> rfl

/-! ### How far one examination looks -/

/-- What is walked from an accepted member is its value or, for a map, a key or a value of it. -/
theorem mem_inspectAccepted {visitor : Visitor State} {store : Store} {member : Member}
    {state : State} {value : Value}
    (queued : value ∈ (visitor.inspectAccepted store member state).1) :
    value = member.value ∨
      ∃ map : Map, member.value = .node (.map map) ∧ store.Leads (.node (.map map)) value := by
  rw [inspectAccepted_apply] at queued
  -- The cases are the shapes of the member's value; only a map is not walked as a whole.
  split at queued
  · simp at queued
  · left; dsimp only at queued; split at queued <;> simp_all
  · left; dsimp only at queued; split at queued <;> simp_all
  · next map shape =>
    dsimp only at queued
    split at queued
    · exact .inr ⟨map, shape, Store.leads_of_mem_entrySides queued⟩
    · simp at queued
  · left; dsimp only at queued; split at queued <;> simp_all

/-- What is walked from a member is its value or, for a map, a key or a value of it. -/
theorem mem_inspect {visitor : Visitor State} {store : Store} {member : Member}
    {state : State} {value : Value} (queued : value ∈ (visitor.inspect store member state).1) :
    value = member.value ∨
      ∃ map : Map, member.value = .node (.map map) ∧ store.Leads (.node (.map map)) value := by
  -- What is queued after an inspection comes from the accepted value or from a map there.
  rw [inspect_apply] at queued
  dsimp only at queued
  split at queued
  · exact mem_inspectAccepted queued
  · simp at queued

/-- What is walked from several members is walked from one of them. -/
theorem mem_inspectAll {visitor : Visitor State} {store : Store} {members : List Member}
    {state : State} {value : Value}
    (queued : value ∈ (visitor.inspectAll store members state).1) :
    ∃ member ∈ members, value = member.value ∨
      ∃ map : Map, member.value = .node (.map map) ∧ store.Leads (.node (.map map)) value := by
  induction members generalizing state with
  | nil => simp [inspectAll, pure_apply] at queued
  | cons member rest found =>
    rw [inspectAll_cons] at queued
    -- The value comes from the first member or from one of the others.
    rcases List.mem_append.mp queued with first | later
    · exact ⟨member, by simp, mem_inspect first⟩
    · obtain ⟨other, listed, near⟩ := found later
      exact ⟨other, by simp [listed], near⟩

/-- Whatever a visitor answers, an opened value leads only to values that are a stride away. -/
theorem strides_of_mem_expand {visitor : Visitor State} {store : Store} {source target : Value}
    {state : State} (queued : target ∈ (visitor.expand store source state).1.next) :
    store.Strides source target := by
  cases source with
  | node handle =>
    cases handle with
    | array array =>
      cases primitive : array.element.isPrimitive with
      | true => simp [expand, primitive, pure_apply] at queued
      | false =>
        -- Other arrays lead to their items.
        simp only [expand, primitive, pure_apply] at queued
        exact .inl (.element primitive queued)
    | collection collection => exact .inl (.item queued)
    | map map => exact .inl (Store.leads_of_mem_entrySides queued)
    | object object =>
      rw [expand_object] at queued
      dsimp only at queued
      split at queued
      · obtain ⟨member, listed, near⟩ := mem_inspectAll queued
        obtain ⟨named, held, rfl⟩ := List.mem_map.mp listed
        -- A member that is a map stands between the object and what is walked.
        rcases near with rfl | ⟨map, same, edge⟩
        · exact .inl (.member held)
        · exact .inr ⟨map, same ▸ .member held, edge⟩
      · simp [Examination.closed] at queued
    | threadScoped box => simp [expand, Examination.closed, pure_apply] at queued
  | _ => simp [expand, Examination.closed, pure_apply] at queued

/-- Whatever a visitor answers, examining a value leads only to values that are a stride away. -/
theorem strides_of_mem_examine {visitor : Visitor State} {store : Store} {source target : Value}
    {state : State} (queued : target ∈ (visitor.examine store source state).1.next) :
    store.Strides source target := by
  rw [examine_apply] at queued
  -- Only a value that is opened leads anywhere.
  split at queued
  · simp [Examination.closed] at queued
  · dsimp only at queued
    split at queued
    · exact strides_of_mem_expand queued
    · simp [Examination.closed] at queued

end Visitor

end GraphRules
