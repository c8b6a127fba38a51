import GraphRules.Proofs.Walk.Once
import GraphRules.Proofs.Walk.Policy

/-! What a walk covers when its visitor follows a policy: what is reached along open edges. -/

namespace GraphRules

namespace Policy

variable {store : Store} {root : Value}

/-- A policy adds no edges, so all that is reached along open ones is reached at all. -/
theorem Reaches.reaches {policy : Policy} {value : Value}
    (reached : policy.Reaches store root value) :
    store.Reaches root value := by
  -- The induction is on the open edges, each of which the store has as well.
  induction reached with
  | refl => exact .refl root
  | tail _ edge before => exact before.stride edge.strides

/-- The policy that accepts everything opens whatever has edges. -/
theorem acceptAll_opens {source target : Value} (edge : store.Leads source target) :
    acceptAll.opens source.kind = true := by
  -- It accepts the kind, and a value with edges is not core.
  simp [opens, edge.not_core, acceptAll]

/-- What a member holds is null, or led to, or a map whose keys and values are. -/
theorem memberLeads_acceptAll (member : Member) :
    member.value.isNull = true ∨ acceptAll.MemberLeads store member member.value ∨
      ∃ map : Map, member.value = .node (.map map) ∧
        ∀ side, store.Leads (.node (.map map)) side → acceptAll.MemberLeads store member side := by
  -- The cases are the shapes of the member's value.
  cases shape : member.value with
  | null => exact .inl rfl
  | node node =>
    cases node with
    | array array => exact .inr (.inl ((memberLeads_array shape).mpr ⟨rfl, shape.symm⟩))
    | collection collection =>
      exact .inr (.inl ((memberLeads_collection shape).mpr ⟨rfl, shape.symm⟩))
    | map map =>
      -- A member that is a map is no value of the walk, but what it holds is.
      refine .inr (.inr ⟨map, rfl, fun side edge => (memberLeads_map shape).mpr ⟨rfl, ?_⟩⟩)
      exact Store.mem_entrySides_of_leads edge
    | object | threadScoped =>
      exact .inr (.inl ((memberLeads_field (by rw [shape]; rfl)).mpr ⟨rfl, shape.symm⟩))
  | _ => exact .inr (.inl ((memberLeads_field (by rw [shape]; rfl)).mpr ⟨rfl, shape.symm⟩))

/-- When everything is accepted no value is lost, but for maps, whose entries are not. -/
theorem acceptAll_reaches {value : Value} (reached : store.Reaches root value) :
    value.isNull = true ∨ acceptAll.Reaches store root value ∨
      ∃ map : Map, value = .node (.map map) ∧
        ∀ side, store.Leads value side → acceptAll.Reaches store root side := by
  -- The induction goes over the edges from the root, the last one split off.
  induction reached with
  | refl => exact .inr (.inl .refl)
  | @tail source target _ edge kept =>
    rcases kept with null | reached | ⟨map, rfl, sides⟩
    · -- No edge starts at null.
      obtain ⟨node, rfl⟩ := edge.source_node
      simp [Value.isNull] at null
    · have opened := acceptAll_opens edge
      cases edge with
      | element structured held =>
        exact .inr (.inl (reached.tail (.element opened structured held)))
      | item held => exact .inr (.inl (reached.tail (.item opened held)))
      | key held => exact .inr (.inl (reached.tail (.key opened held)))
      | value held => exact .inr (.inl (reached.tail (.value opened held)))
      | @member object named held =>
        have viewed : (⟨object, named.1, named.2⟩ : Member) ∈ store.memberViews object :=
          List.mem_map_of_mem held
        have onwards : ∀ side, acceptAll.MemberLeads store ⟨object, named.1, named.2⟩ side →
            acceptAll.Reaches store root side :=
          fun side leads => reached.tail (.member opened rfl viewed rfl leads)
        -- A map is passed over, and its keys and values are led to in its place.
        rcases memberLeads_acceptAll ⟨object, named.1, named.2⟩ with
          null | leads | ⟨map, same, sides⟩
        · exact .inl null
        · exact .inr (.inl (onwards _ leads))
        · refine .inr (.inr ⟨map, same, fun side edge => onwards side (sides side ?_)⟩)
          rwa [← show named.2 = _ from same]
    · exact .inr (.inl (sides target edge))

/-- When everything is accepted, the edges left open reach every object that is reached. -/
theorem acceptAll_reaches_object {object : Object} :
    acceptAll.Reaches store root (.node (.object object)) ↔
      store.Reaches root (.node (.object object)) := by
  refine ⟨Reaches.reaches, fun reached => ?_⟩
  -- An object is neither null nor a map.
  rcases acceptAll_reaches reached with null | along | ⟨map, same, _⟩
  · simp [Value.isNull] at null
  · exact along
  · simp at same

end Policy

namespace Walk

variable {State : Type} {visitor : Visitor State} {policy : Policy} {store : Store} {root : Value}
  {state : State}

/-- Whatever a walk takes off its queue, the root reaches along open edges. -/
theorem policy_reaches_of_mem_taken (follows : visitor.Follows policy) {value : Value}
    (taken : value ∈ (start root state).taken visitor store) : policy.Reaches store root value := by
  -- Examinations lead along open edges, and at the start only the root waits.
  refine forall_taken (fun _ _ _ reached led => reached.tail (follows.mem_examine.mp led))
    (fun first waiting => ?_) value taken
  obtain rfl := eq_root_of_waiting waiting
  exact .refl

/-- What the root reaches along open edges is null or taken off the queue. -/
theorem mem_taken_of_policy_reaches (follows : visitor.Follows policy) {value : Value}
    (reached : policy.Reaches store root value) :
    value.isNull = true ∨ value ∈ (start root state).taken visitor store := by
  -- The induction goes over the edges from the root, the last one split off.
  induction reached with
  | refl =>
    cases null : root.isNull with
    | true => exact .inl rfl
    | false => exact .inr (root_mem_taken state null)
  | @tail source target _ edge kept =>
    rcases kept with null | taken
    · -- No edge starts at null.
      obtain ⟨node, rfl⟩ := edge.strides.source_node
      simp [Value.isNull] at null
    · -- The source was examined at some time, and the answers were those of the policy.
      obtain ⟨during, visited⟩ := exists_visit_of_mem_taken taken
      exact mem_taken_start_of_mem_next visited (follows.mem_examine.mpr edge)

/-- A walk enters exactly the objects that are accepted and reached along open edges. -/
theorem mem_entered_iff (follows : visitor.Follows policy) {object : Object} :
    object ∈ ((start root state).visits visitor store).filterMap enteredObject? ↔
      policy.acceptKind object.kind = true ∧ policy.enterObject object = true ∧
        policy.Reaches store root (.node (.object object)) := by
  rw [List.mem_filterMap, ← and_assoc]
  constructor
  · rintro ⟨⟨value, outcome⟩, visited, found⟩
    have taken : value ∈ (start root state).taken visitor store := List.mem_map_of_mem visited
    obtain ⟨during, examined⟩ := exists_examine_of_mem_visits visited
    obtain rfl : outcome = (visitor.examine store value during).1 := examined
    obtain ⟨entered, rfl⟩ := enteredObject?_eq_some.mp found
    exact ⟨follows.entered_examine.mp entered, policy_reaches_of_mem_taken follows taken⟩
  -- No object is null, so a reached one is taken off the queue.
  · rintro ⟨accepted, reached⟩
    rcases mem_taken_of_policy_reaches follows reached with null | taken
    · simp [Value.isNull] at null
    · -- The object was examined at some time, and then it was entered.
      obtain ⟨during, visited⟩ := exists_visit_of_mem_taken taken
      refine ⟨_, visited, ?_⟩
      exact enteredObject?_eq_some.mpr ⟨follows.entered_examine.mpr accepted, rfl⟩

/-- A walk that accepts everything enters exactly the objects that the root reaches. -/
theorem mem_entered_acceptAll {object : Object} :
    object ∈ ((start root ()).visits .acceptAll store).filterMap enteredObject? ↔
      store.Reaches root (.node (.object object)) := by
  -- No kind and no object is refused, and the edges left open are enough.
  rw [mem_entered_iff Visitor.acceptAll_follows, Policy.acceptAll_reaches_object]
  simp [Policy.acceptAll]

end Walk

namespace Visitor

variable {State : Type} {visitor : Visitor State} {policy : Policy}

/-- A walk whose visitor follows a policy enters exactly the objects reached along open edges. -/
theorem walk_covers (follows : visitor.Follows policy) (store : Store) (root : Value)
    (state : State) :
    let (stats, events) := visitor.journal store root state
    let entered := events.filterMap WalkEvent.entered?
    (∀ object, object ∈ entered ↔
      policy.acceptKind object.kind = true ∧ policy.enterObject object = true ∧
        policy.Reaches store root (.node (.object object))) ∧
      -- Each of them is entered once, with all its members.
      entered.Nodup ∧
      events.filterMap WalkEvent.inspected? = entered.flatMap store.memberViews ∧
      stats.objectsVisited = entered.length := by
  obtain ⟨events, journaled, told⟩ := (visitor.transcript store).journal root state
  rw [journaled]
  dsimp only
  -- The closing entry is about no object and no member.
  rw [filterMap_closed WalkEvent.entered? rfl, filterMap_closed WalkEvent.inspected? rfl,
    told.entered, told.inspected]
  refine ⟨fun object => Walk.mem_entered_iff follows, ?_, rfl, ?_⟩
  · exact (Walk.entered_sublist _).nodup (Walk.objects_distinct visitor store root state)
  · -- The count of objects starts from zero.
    rw [Walk.length_entered]
    exact (Walk.entered_run visitor store _).trans (Nat.zero_add _)

end Visitor

/-! ### A ring of two objects -/

namespace Ring

def first : Object := ⟨⟨0⟩, .objectType "First", by decide⟩
def second : Object := ⟨⟨1⟩, .objectType "Second", by decide⟩
def hidden : Object := ⟨⟨2⟩, .objectType "Hidden", by decide⟩
def index : Map := ⟨⟨3⟩, .map, rfl⟩

/-- The first object leads to the second over a map, and the second back and on to a third. -/
def store : Store where
  cells := #[
    some (.members ⟨[("index", .node (.map index))], by decide⟩),
    some (.members
      ⟨[("back", .node (.object first)), ("hidden", .node (.object hidden))], by decide⟩),
    some (.members .empty),
    some (.entries [(.text "key", .node (.object second))])]
  running := ⟨0⟩

/-- Only the member that leads out of the ring is not visited. -/
def refusals : Refusals := .ofNamed [("field", .names ["Second.hidden"])]

def policy : Policy := .refusing refusals

theorem memberViews_first :
    store.memberViews first = [⟨first, "index", .node (.map index)⟩] := rfl

theorem memberViews_second :
    store.memberViews second =
      [⟨second, "back", .node (.object first)⟩, ⟨second, "hidden", .node (.object hidden)⟩] := rfl

theorem entries_index : store.entries index = [(.text "key", .node (.object second))] := rfl

/-- The first object leads to the second, over the map. -/
theorem first_leads : policy.Leads store (.node (.object first)) (.node (.object second)) := by
  -- The member of the first object is a map, and the second object is its value.
  have viewed : (⟨first, "index", .node (.map index)⟩ : Member) ∈ store.memberViews first :=
    memberViews_first ▸ List.mem_singleton_self _
  have held : (.node (.object second)) ∈ store.entrySides index true true := by
    rw [Store.mem_entrySides, entries_index]
    exact ⟨_, List.mem_singleton_self _, .inr ⟨rfl, rfl⟩⟩
  exact .member (by decide) (by decide) viewed (by decide)
    ((Policy.memberLeads_map rfl).mpr ⟨by decide, held⟩)

/-- No open edge leads out of the ring. -/
theorem leads_inside {source target : Value}
    (inside : source ∈ [.node (.object first), .node (.object second), .text "key"])
    (edge : policy.Leads store source target) :
    target ∈ [.node (.object first), .node (.object second), Value.text "key"] := by
  simp only [List.mem_cons, List.not_mem_nil, or_false] at inside ⊢
  rcases inside with rfl | rfl | rfl
  · cases edge with
    | member _ _ viewed _ leads =>
      obtain rfl := List.mem_singleton.mp (memberViews_first ▸ viewed)
      -- The member holds a map, so it leads to the key and the value of its one entry.
      have side := ((Policy.memberLeads_map rfl).mp leads).2
      rw [Store.mem_entrySides, entries_index] at side
      obtain ⟨entry, held, ⟨_, rfl⟩ | ⟨_, rfl⟩⟩ := side <;> obtain rfl := List.mem_singleton.mp held
      · exact .inr (.inr rfl)
      · exact .inr (.inl rfl)
  · cases edge with
    | member _ _ viewed _ leads =>
      rw [memberViews_second, List.mem_cons, List.mem_singleton] at viewed
      -- Of the two members only the first is visited.
      rcases viewed with rfl | rfl
      · exact .inl ((Policy.memberLeads_field rfl).mp leads).2
      · have refused := ((Policy.memberLeads_field rfl).mp leads).1
        exact absurd refused (by decide)
  · cases edge

/-- So the first object reaches nothing outside of the ring. -/
theorem reaches_inside {value : Value}
    (reached : policy.Reaches store (.node (.object first)) value) :
    value ∈ [.node (.object first), .node (.object second), Value.text "key"] := by
  -- The induction is on the open edges, none of which leads outside of these three.
  induction reached with
  | refl => exact List.mem_cons_self
  | tail _ edge inside => exact leads_inside inside edge

end Ring

/-- In the ring both objects are entered once, and the hidden one is not. -/
theorem walk_covers_ring :
    let entered := ((Visitor.refusing Ring.refusals).journal Ring.store (.node (.object Ring.first))
      ()).2.filterMap WalkEvent.entered?
    (Visitor.refusing Ring.refusals).Follows Ring.policy ∧
      Ring.first ∈ entered ∧ Ring.second ∈ entered ∧ Ring.hidden ∉ entered ∧ entered.Nodup := by
  -- The refusals are a policy, under which the hidden object is behind a shut edge.
  intro entered
  have follows := Visitor.refusing_follows Ring.refusals
  obtain ⟨covered, once, _⟩ :=
    Visitor.walk_covers follows Ring.store (.node (.object Ring.first)) ()
  refine ⟨follows, (covered _).mpr ⟨by decide, by decide, .refl⟩,
    (covered _).mpr ⟨by decide, by decide, .single Ring.first_leads⟩, fun found => ?_, once⟩
  exact absurd (Ring.reaches_inside ((covered _).mp found).2.2) (by decide)

end GraphRules
