import GraphRules.Proofs.Walk.Transcript
import Mathlib.Data.List.Nodup

/-! Walks end, and ask about nothing twice, on every value graph and for every visitor. -/

namespace GraphRules

/-- Only an object has members that can be inspected. -/
theorem Visitor.isSome_object?_of_entered {State : Type} {visitor : Visitor State} {store : Store}
    {value : Value} {state : State}
    (entered : (visitor.examine store value state).1.entered = true) :
    value.object?.isSome = true := by
  rw [examine_apply] at entered
  -- A value that is not opened is not entered, and of the opened ones only objects are.
  split at entered
  · simp [Examination.closed] at entered
  · dsimp only at entered
    split at entered
    · cases value with
      | node handle => cases handle <;> simp_all [expand, Value.object?, pure_apply,
          Examination.closed]
      | _ => simp [expand, Examination.closed, pure_apply] at entered
    · simp [Examination.closed] at entered

/-- The objects among values are found among their identities. -/
theorem filterMap_object? (values : List Value) :
    values.filterMap Value.object? =
      (values.filterMap Value.identity).filterMap fun node => (Value.node node).object? := by
  -- A value without an identity is no object either.
  rw [List.filterMap_filterMap]
  refine List.filterMap_congr fun value _ => ?_
  cases value <;> rfl

namespace Store

/-- The members of an object have different names. -/
theorem memberViews_distinct (store : Store) (object : Object) :
    ((store.memberViews object).map fun member => (member.owner, member.name)).Nodup := by
  -- All of them belong to the same object, so they are told apart by their names.
  have names : ((store.memberViews object).map fun member => (member.owner, member.name)) =
      ((store.members object).map (·.1)).map fun name => (object, name) := by
    simp [memberViews, Function.comp_def]
  rw [names]
  exact (store.memberTable object).distinct.map fun _ _ same => (Prod.mk.inj same).2

/-- Members of different objects are different, so the members of distinct objects are distinct. -/
theorem flatMap_memberViews_distinct (store : Store) {objects : List Object}
    (distinct : objects.Nodup) :
    ((objects.flatMap store.memberViews).map fun member => (member.owner, member.name)).Nodup := by
  rw [List.map_flatMap, List.nodup_flatMap]
  refine ⟨fun object _ => store.memberViews_distinct object, distinct.imp ?_⟩
  -- A member that stood in both lists would belong to both objects.
  intro first second different pair one two
  obtain ⟨member, listed, rfl⟩ := List.mem_map.mp one
  obtain ⟨_, _, rfl⟩ := List.mem_map.mp listed
  obtain ⟨member, listed, same⟩ := List.mem_map.mp two
  obtain ⟨_, _, rfl⟩ := List.mem_map.mp listed
  exact different (Prod.mk.inj same).1.symm

end Store

namespace Walk

variable {State : Type}

/-- The entered objects are among the objects taken off the queue, in the same order. -/
theorem entered_sublist (visits : List (Value × Examination)) :
    (visits.filterMap enteredObject?).Sublist (visits.filterMap (·.1.object?)) := by
  induction visits with
  | nil => exact .slnil
  | cons visit rest sublist =>
    -- A visit to an object adds it to the second list, and to the first only if it was entered.
    cases object : visit.1.object? with
    | none => simpa [List.filterMap_cons, enteredObject?, object] using sublist
    | some found =>
      cases entered : visit.2.entered with
      | false =>
        simpa [List.filterMap_cons, enteredObject?, object, entered] using sublist.cons found
      | true => simpa [List.filterMap_cons, enteredObject?, object, entered] using sublist

/-- From its start, a walk takes every object off the queue at most once. -/
theorem objects_distinct (visitor : Visitor State) (store : Store) (root : Value) (state : State) :
    (((start root state).visits visitor store).filterMap (·.1.object?)).Nodup := by
  have objects : ((start root state).visits visitor store).filterMap (·.1.object?) =
      ((start root state).taken visitor store).filterMap Value.object? := by
    simp [taken, List.filterMap_map]
  -- Objects with the same handle are the same node, and no node is taken off twice.
  rw [objects, filterMap_object?]
  refine (taken_distinct visitor store root state).filterMap fun first second object one two => ?_
  exact Value.node.inj ((Value.object?_eq_some.mp one).trans (Value.object?_eq_some.mp two).symm)

/-- A walk enters as many objects as it counts. -/
theorem length_entered (visitor : Visitor State) (store : Store) (walk : Walk State) :
    ((walk.visits visitor store).filterMap enteredObject?).length =
      (walk.visits visitor store).countP (·.2.entered) := by
  -- Whatever was entered is an object, so none of the entered visits drops out.
  rw [List.length_filterMap_eq_countP]
  refine List.countP_congr fun visit listed => ?_
  cases entered : visit.2.entered with
  | false => simp [enteredObject?, entered]
  | true =>
    obtain ⟨state, examined⟩ := exists_examine_of_mem_visits listed
    have object := Visitor.isSome_object?_of_entered (examined ▸ entered)
    simp [enteredObject?, entered, object]

end Walk

namespace Visitor

variable {State : Type}

/-- The values that a walk puts on its queue, the root among them. -/
def queued (visitor : Visitor State) (store : Store) (root : Value) (state : State) : List Value :=
  WorkQueue.empty.admits [root] ++ (Walk.start root state).queued visitor store

/-- The closing entry of a journal is about no object and no member. -/
theorem filterMap_closed {Seen : Type} (view : WalkEvent → Option Seen)
    (blind : view .complete = none) (events : List WalkEvent) :
    (events ++ [WalkEvent.complete]).filterMap view = events.filterMap view := by
  -- What is blind to the entry does not see that it stands there.
  rw [List.filterMap_append, List.filterMap_cons_none blind, List.filterMap_nil, List.append_nil]

/-- A walk ends and does everything once, on every value graph and for every visitor. -/
theorem walk_each_once (visitor : Visitor State) (store : Store) (root : Value) (state : State) :
    let start := Walk.start root state
    let queued := visitor.queued store root state
    let taken := start.taken visitor store
    let final := (Walk.advance visitor store)^[taken.length] start
    let stats := (visitor.walk store root state).1
    let (journalStats, events) := visitor.journal store root state
    -- The loop of the walk ends.
    (final.queue.waiting = [] ∧ final = start.run visitor store) ∧
      -- Every node is put on the queue once at most, and comes off it.
      (queued = taken ∧ (queued.filterMap Value.identity).Nodup) ∧
      journalStats = stats ∧
      -- Objects are asked about once at most, and so are their members.
      (events.filterMap WalkEvent.asked?).Nodup ∧
      ((events.filterMap WalkEvent.inspected?).map fun member =>
        (member.owner, member.name)).Nodup ∧
      -- Both counts are right.
      stats.objectsVisited = (events.filterMap WalkEvent.entered?).length ∧
      stats.valuesEnqueued = taken.length ∧
      -- The visitor is told once that nothing is left, after every question.
      ∃ earlier, events = earlier ++ [.complete] ∧ .complete ∉ earlier := by
  obtain ⟨events, journaled, told⟩ := (visitor.transcript store).journal root state
  -- First in, first out: what is put on the queue comes off it in the same order.
  have queuedTaken : visitor.queued store root state =
      (Walk.start root state).taken visitor store := by
    rw [Walk.taken_eq, Walk.start_waiting, queued]
  have askedOnce := Walk.objects_distinct visitor store root state
  have enteredOnce := (Walk.entered_sublist _).nodup askedOnce
  rw [journaled]
  refine ⟨Walk.advance_iterate visitor store _, ⟨queuedTaken, ?_⟩, rfl, ?_, ?_, ?_, ?_,
    events, rfl, told.ongoing⟩
  · rw [queuedTaken]
    exact Walk.taken_distinct visitor store root state
  · -- Only objects that come off the queue are asked about.
    rw [filterMap_closed WalkEvent.asked? rfl]
    exact told.asked.nodup askedOnce
  · -- Members are asked about when their object is entered, and at no other time.
    rw [filterMap_closed WalkEvent.inspected? rfl, told.inspected]
    exact store.flatMap_memberViews_distinct enteredOnce
  · -- The count of objects starts from zero.
    rw [filterMap_closed WalkEvent.entered? rfl, told.entered, Walk.length_entered]
    exact (Walk.entered_run visitor store _).trans (Nat.zero_add _)
  · -- The count of values starts with the root, if the root was put on the queue.
    have counted := Walk.enqueued_run visitor store (Walk.start root state)
    rw [Walk.start_queue, ← List.length_append] at counted
    rw [← queuedTaken]
    exact counted

end Visitor

end GraphRules
