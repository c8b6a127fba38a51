import GraphRules.Proofs.Walk.Queue
import Mathlib.Logic.Function.Iterate

/-! The course of a walk, for any visitor: what it takes off the queue and puts there. -/

namespace GraphRules

namespace Walk

variable {State : Type}

/-- One turn of the loop; a finished walk stays as it is. -/
def advance (visitor : Visitor State) (store : Store) (walk : Walk State) : Walk State :=
  match walk.queue.waiting with
  | [] => walk
  | value :: rest => walk.step visitor store value rest

/-- The queue once its first value is taken off. -/
def remaining (walk : Walk State) (rest : List Value) : WorkQueue :=
  ⟨rest, walk.queue.seen, walk.queue.enqueued⟩

/-- The values that one turn puts on the queue. -/
def admitted (visitor : Visitor State) (store : Store) (walk : Walk State) (value : Value)
    (rest : List Value) : List Value :=
  (walk.remaining rest).admits (visitor.examine store value walk.state).1.next

/-- The values that a walk takes off the queue from here on, each with what examining it came to. -/
def visits (visitor : Visitor State) (store : Store) (walk : Walk State) :
    List (Value × Examination) :=
  match _waiting : walk.queue.waiting with
  | [] => []
  | value :: rest =>
    (value, (visitor.examine store value walk.state).1) ::
      visits visitor store (walk.step visitor store value rest)
termination_by (store.pending walk.queue, walk.queue.waiting.length)
decreasing_by exact walk.step_decreases visitor store value rest _waiting

/-- The values that a walk puts on the queue from here on. -/
def queued (visitor : Visitor State) (store : Store) (walk : Walk State) : List Value :=
  match _waiting : walk.queue.waiting with
  | [] => []
  | value :: rest =>
    admitted visitor store walk value rest ++
      queued visitor store (walk.step visitor store value rest)
termination_by (store.pending walk.queue, walk.queue.waiting.length)
decreasing_by exact walk.step_decreases visitor store value rest _waiting

/-- The values that a walk takes off the queue from here on. -/
def taken (visitor : Visitor State) (store : Store) (walk : Walk State) : List Value :=
  (walk.visits visitor store).map (·.1)

variable {visitor : Visitor State} {store : Store} {walk : Walk State} {value : Value}
  {rest : List Value}

/-- What holds of finished walks, and of a walk whenever it holds one turn later, holds of all. -/
@[elab_as_elim]
theorem turns {motive : Walk State → Prop} (visitor : Visitor State) (store : Store)
    (finished : ∀ walk, walk.queue.waiting = [] → motive walk)
    (turned : ∀ walk value rest, walk.queue.waiting = value :: rest →
      motive (walk.step visitor store value rest) → motive walk)
    (walk : Walk State) : motive walk :=
  -- The induction follows the loop, which ends because each turn decreases its measure.
  Walk.run.induct visitor store motive finished turned walk

/-- A finished walk is its own outcome. -/
theorem run_finished (empty : walk.queue.waiting = []) : walk.run visitor store = walk := by
  rw [run]
  split
  · rfl
  -- A value that waits would have to stand on the empty queue.
  · next waiting => simp [empty] at waiting

theorem run_turned (waiting : walk.queue.waiting = value :: rest) :
    walk.run visitor store = (walk.step visitor store value rest).run visitor store := by
  -- The queue is not empty, so the loop goes on with its first value.
  rw [run]
  split
  · next empty => simp [waiting] at empty
  · next first others same => cases waiting.symm.trans same; rfl

theorem advance_turned (waiting : walk.queue.waiting = value :: rest) :
    walk.advance visitor store = walk.step visitor store value rest := by
  -- A turn of a walk that goes on is a step.
  simp [advance, waiting]

theorem visits_finished (empty : walk.queue.waiting = []) : walk.visits visitor store = [] := by
  -- The queue is empty, so the loop ends.
  rw [visits]
  split
  · rfl
  · next waiting => simp [empty] at waiting

theorem visits_turned (waiting : walk.queue.waiting = value :: rest) :
    walk.visits visitor store =
      (value, (visitor.examine store value walk.state).1) ::
        (walk.step visitor store value rest).visits visitor store := by
  -- The queue is not empty, so the loop goes on with its first value.
  rw [visits]
  split
  · next empty => simp [waiting] at empty
  · next first others same => cases waiting.symm.trans same; rfl

theorem queued_finished (empty : walk.queue.waiting = []) : walk.queued visitor store = [] := by
  -- The queue is empty, so the loop ends.
  rw [queued]
  split
  · rfl
  · next waiting => simp [empty] at waiting

theorem queued_turned (waiting : walk.queue.waiting = value :: rest) :
    walk.queued visitor store =
      walk.admitted visitor store value rest ++
        (walk.step visitor store value rest).queued visitor store := by
  -- The queue is not empty, so the loop goes on with its first value.
  rw [queued]
  split
  · next empty => simp [waiting] at empty
  · next first others same => cases waiting.symm.trans same; rfl

/-- One turn takes a value off the queue and puts on what it admits. -/
theorem step_queue (visitor : Visitor State) (store : Store) (walk : Walk State) (value : Value)
    (rest : List Value) :
    (walk.step visitor store value rest).queue =
      ⟨rest ++ walk.admitted visitor store value rest,
        ((walk.admitted visitor store value rest).filterMap Value.identity).reverse ++
          walk.queue.seen,
        walk.queue.enqueued + (walk.admitted visitor store value rest).length⟩ :=
  -- Taking a value off the queue makes no node unknown and takes nothing off the count.
  (walk.remaining rest).pushAll_eq (visitor.examine store value walk.state).1.next

/-- One turn leaves the rest of the queue in front of what it admits. -/
theorem step_waiting (visitor : Visitor State) (store : Store) (walk : Walk State) (value : Value)
    (rest : List Value) :
    (walk.step visitor store value rest).queue.waiting =
      rest ++ walk.admitted visitor store value rest := by
  -- The value is taken off at the front, and the new ones are put at the end.
  rw [step_queue]

/-- One turn makes known the nodes that it admits. -/
theorem mem_step_seen {node : Node} :
    node ∈ (walk.step visitor store value rest).queue.seen ↔
      .node node ∈ walk.admitted visitor store value rest ∨ node ∈ walk.queue.seen := by
  -- The identity of an admitted value is a node exactly when the value is that node.
  rw [step_queue]
  simp [List.mem_filterMap]

/-- After what waits already, a walk takes off what it puts on, in the same order. -/
theorem taken_eq (visitor : Visitor State) (store : Store) (walk : Walk State) :
    walk.taken visitor store = walk.queue.waiting ++ walk.queued visitor store := by
  induction walk using turns visitor store with
  | finished walk empty => simp [taken, visits_finished empty, queued_finished empty, empty]
  | turned walk value rest waiting later =>
    -- What the turn admits stands between what waited before and what comes later.
    show (walk.visits visitor store).map (·.1) = _
    unfold taken at later
    rw [visits_turned waiting, queued_turned waiting, waiting, List.map_cons, later, step_waiting]
    simp

/-- After as many turns as values are taken off, the queue is empty and the walk ends. -/
theorem advance_iterate (visitor : Visitor State) (store : Store) (walk : Walk State) :
    ((advance visitor store)^[(walk.taken visitor store).length] walk).queue.waiting = [] ∧
      (advance visitor store)^[(walk.taken visitor store).length] walk =
        walk.run visitor store := by
  induction walk using turns visitor store with
  | finished walk empty =>
    -- No value is taken off, and no turn is needed.
    simp [taken, visits_finished empty, run_finished empty, empty]
  | turned walk value rest waiting later =>
    -- The first turn is one step, and as many are left as the step leaves values to take off.
    simp only [taken, visits_turned waiting, List.map_cons, List.length_cons,
      Function.iterate_succ, Function.comp_apply, advance_turned waiting, run_turned waiting]
    exact later

/-- The counter of the queue grows by one for each value that is put on it. -/
theorem enqueued_run (visitor : Visitor State) (store : Store) (walk : Walk State) :
    (walk.run visitor store).queue.enqueued =
      walk.queue.enqueued + (walk.queued visitor store).length := by
  induction walk using turns visitor store with
  | finished walk empty => simp [run_finished empty, queued_finished empty]
  | turned walk value rest waiting later =>
    -- What this turn admits is counted now, and all the rest later.
    rw [run_turned waiting, later, step_queue, queued_turned waiting, List.length_append]
    dsimp only
    omega

/-- The count of objects grows by one for each object whose members were inspected. -/
theorem entered_run (visitor : Visitor State) (store : Store) (walk : Walk State) :
    (walk.run visitor store).entered =
      walk.entered + (walk.visits visitor store).countP (·.2.entered) := by
  induction walk using turns visitor store with
  | finished walk empty => simp [run_finished empty, visits_finished empty]
  | turned walk value rest waiting later =>
    rw [run_turned waiting, later, visits_turned waiting, List.countP_cons]
    -- The step counts one more exactly when the examination entered an object.
    simp only [step]
    split <;> omega

/-- No node is put on the queue twice, nor one that was there before. -/
theorem queued_distinct (visitor : Visitor State) (store : Store) (walk : Walk State) :
    ((walk.queued visitor store).filterMap Value.identity).Nodup ∧
      ∀ node, .node node ∈ walk.queued visitor store → node ∉ walk.queue.seen := by
  induction walk using turns visitor store with
  | finished walk empty => simp [queued_finished empty]
  | turned walk value rest waiting later =>
    -- Each turn admits every node at most once, and none that is known.
    obtain ⟨laterOnce, laterFresh⟩ := later
    obtain ⟨once, fresh⟩ := (walk.remaining rest).admits_distinct
      (visitor.examine store value walk.state).1.next
    rw [queued_turned waiting, List.filterMap_append]
    refine ⟨List.nodup_append.mpr ⟨once, laterOnce, ?_⟩, fun node listed => ?_⟩
    · -- What this turn admits is known in all later turns.
      rintro node now other again rfl
      simp only [List.mem_filterMap, Value.identity_eq_some, exists_eq_right] at now again
      exact laterFresh node again (mem_step_seen.mpr (.inl now))
    · rcases List.mem_append.mp listed with now | again
      · -- A node that is admitted now was not known.
        exact fresh node (List.mem_filterMap.mpr ⟨_, now, rfl⟩)
      · -- A node that was known now would still be known when it is admitted later.
        exact fun known => laterFresh node again (mem_step_seen.mpr (.inr known))

/-- Every visit is an examination in some state of the visitor. -/
theorem exists_examine_of_mem_visits {visit : Value × Examination}
    (visited : visit ∈ walk.visits visitor store) :
    ∃ state, visit.2 = (visitor.examine store visit.1 state).1 := by
  induction walk using turns visitor store with
  | finished walk empty => simp [visits_finished empty] at visited
  | turned walk value rest waiting later =>
    rw [visits_turned waiting] at visited
    rcases List.mem_cons.mp visited with rfl | visited
    -- The first examination starts from the state at hand, the others from what it leaves.
    · exact ⟨walk.state, rfl⟩
    · exact later visited

/-- Every value that is taken off the queue is examined in some state of the visitor. -/
theorem exists_visit_of_mem_taken (taken : value ∈ walk.taken visitor store) :
    ∃ state, (value, (visitor.examine store value state).1) ∈ walk.visits visitor store := by
  obtain ⟨⟨_, outcome⟩, visited, rfl⟩ := List.mem_map.mp taken
  -- The visit is an examination of the value that was taken off.
  obtain ⟨state, examined⟩ := exists_examine_of_mem_visits visited
  exact ⟨state, examined ▸ visited⟩

/-- Whatever an examination leads to is null, taken off the queue at some time, or known before. -/
theorem mem_taken_of_mem_next {visit : Value × Examination}
    (visited : visit ∈ walk.visits visitor store) {target : Value} (led : target ∈ visit.2.next) :
    target.isNull = true ∨ target ∈ walk.taken visitor store ∨
      ∃ node ∈ walk.queue.seen, target = .node node := by
  induction walk using turns visitor store with
  | finished walk empty => simp [visits_finished empty] at visited
  | turned walk value rest waiting later =>
    rw [taken_eq, waiting, queued_turned waiting]
    rw [visits_turned waiting] at visited
    rcases List.mem_cons.mp visited with rfl | visited
    · -- What the first examination leads to is offered to the queue at once.
      rcases (walk.remaining rest).mem_admits_or_seen led with null | now | known
      · exact .inl null
      · exact .inr (.inl (by simp [admitted, now]))
      · exact .inr (.inr known)
    · rcases later visited with null | again | ⟨node, known, rfl⟩
      · exact .inl null
      · -- What is taken off after this turn is taken off after its beginning.
        rw [taken_eq, step_waiting, List.append_assoc] at again
        exact .inr (.inl (List.mem_cons_of_mem _ again))
      · -- A node known one turn later was known before or admitted in between.
        rcases mem_step_seen.mp known with now | before
        · exact .inr (.inl (by simp [now]))
        · exact .inr (.inr ⟨node, before, rfl⟩)

/-- What holds of the values that wait, and spreads along examinations, holds of all taken. -/
theorem forall_taken {property : Value → Prop}
    (spreads : ∀ source target state, property source →
      target ∈ (visitor.examine store source state).1.next → property target)
    (holds : ∀ value ∈ walk.queue.waiting, property value) :
    ∀ value ∈ walk.taken visitor store, property value := by
  induction walk using turns visitor store with
  -- The induction is on the turns of the walk.
  | finished walk empty => simp [taken, visits_finished empty]
  | turned walk value rest waiting later =>
    have first : property value := holds value (by simp [waiting])
    -- One turn keeps the property for all that waits: what it admits, the examination leads to.
    have others : ∀ other ∈ (walk.step visitor store value rest).queue.waiting,
        property other := by
      rw [step_waiting]
      intro other listed
      rcases List.mem_append.mp listed with before | now
      · exact holds other (by simp [waiting, before])
      · exact spreads value other walk.state first (WorkQueue.mem_of_mem_admits now)
    simp only [taken, visits_turned waiting, List.map_cons, List.mem_cons]
    rintro other (rfl | visited)
    · exact first
    · exact later others other visited

/-! ### Walks from their start -/

/-- The start offers the root to the empty queue. -/
theorem start_queue (root : Value) (state : State) :
    (start root state).queue =
      ⟨WorkQueue.empty.admits [root],
        ((WorkQueue.empty.admits [root]).filterMap Value.identity).reverse,
        (WorkQueue.empty.admits [root]).length⟩ := by
  -- The empty queue knows no node and has counted nothing.
  have pushed : (start root state).queue = _ := WorkQueue.empty.pushAll_eq [root]
  rw [pushed]
  simp [WorkQueue.empty]

/-- Only the root waits at the start, and it does not wait if it is null. -/
theorem start_waiting (root : Value) (state : State) :
    (start root state).queue.waiting = WorkQueue.empty.admits [root] := by
  -- The root is offered to an empty queue.
  rw [start_queue]

/-- Nothing waits at the start but the root. -/
theorem eq_root_of_waiting {root value : Value} {state : State}
    (waiting : value ∈ (start root state).queue.waiting) : value = root := by
  rw [start_waiting] at waiting
  -- Only the root is offered to the queue.
  exact List.mem_singleton.mp (WorkQueue.mem_of_mem_admits waiting)

/-- Only the root is known at the start, and then it waits. -/
theorem mem_start_seen {root : Value} {state : State} {node : Node} :
    node ∈ (start root state).queue.seen ↔ .node node ∈ WorkQueue.empty.admits [root] := by
  -- An empty queue knows only what it takes in.
  rw [start_queue]
  simp [List.mem_filterMap]

/-- A root other than null is taken off the queue. -/
theorem root_mem_taken {root : Value} (state : State) (present : root.isNull = false) :
    root ∈ (start root state).taken visitor store := by
  rw [taken_eq, start_waiting]
  have offered : root ∈ [root] := List.mem_singleton.mpr rfl
  -- An empty queue knows no node, so only null could keep the root from it.
  rcases WorkQueue.empty.mem_admits_or_seen offered with null | waits | known
  · simp [present] at null
  · exact List.mem_append_left _ waits
  · simp [WorkQueue.empty] at known

/-- From its start, a walk takes every node off the queue at most once. -/
theorem taken_distinct (visitor : Visitor State) (store : Store) (root : Value) (state : State) :
    (((start root state).taken visitor store).filterMap Value.identity).Nodup := by
  rw [taken_eq, start_waiting, List.filterMap_append]
  obtain ⟨once, _⟩ := WorkQueue.empty.admits_distinct [root]
  obtain ⟨laterOnce, fresh⟩ := (start root state).queued_distinct visitor store
  refine List.nodup_append.mpr ⟨once, laterOnce, ?_⟩
  -- The root is known from the start, so it is not queued again.
  rintro node first other again rfl
  simp only [List.mem_filterMap, Value.identity_eq_some, exists_eq_right] at first again
  exact fresh node again (mem_start_seen.mpr first)

/-- From its start, a walk loses nothing: all it is led to is null or taken off the queue. -/
theorem mem_taken_start_of_mem_next {root : Value} {state : State} {visit : Value × Examination}
    (visited : visit ∈ (start root state).visits visitor store) {target : Value}
    (led : target ∈ visit.2.next) :
    target.isNull = true ∨ target ∈ (start root state).taken visitor store := by
  rcases mem_taken_of_mem_next visited led with null | taken | ⟨node, known, rfl⟩
  · exact .inl null
  · exact .inr taken
  · -- The only node known at the start is the root, and the root waits.
    rw [taken_eq, start_waiting]
    exact .inr (List.mem_append_left _ (mem_start_seen.mp known))

end Walk

end GraphRules
