import GraphRules.Walk.Visitor

/-! Breadth-first walks over everything that can be reached from a value. -/

namespace GraphRules

/-- The values that wait to be examined, in order, and the nodes that ever waited. -/
structure WorkQueue where
  waiting : List Value
  seen : List Node
  /-- How many values were ever put on the queue. -/
  enqueued : Nat

namespace WorkQueue

/-- The queue before anything was put on it. -/
def empty : WorkQueue := ⟨[], [], 0⟩

/-- Puts a value at the end, unless it is null or a node that was there before. -/
def push (queue : WorkQueue) (value : Value) : WorkQueue :=
  if value.isNull then queue
  else
    match value.identity with
    | none => ⟨queue.waiting ++ [value], queue.seen, queue.enqueued + 1⟩
    | some node =>
      if node ∈ queue.seen then queue
      else ⟨queue.waiting ++ [value], node :: queue.seen, queue.enqueued + 1⟩

/-- Puts values on the queue in order. -/
def pushAll (queue : WorkQueue) (values : List Value) : WorkQueue :=
  values.foldl push queue

end WorkQueue

/-! ### The measure of a walk

A node leaves the queue for good, or the queue gets shorter by a value that leads nowhere. -/

namespace Store

/-- Every node that some node of the store holds, as often as it is held. -/
def handles (store : Store) : List Node := store.values.filterMap Value.identity

/-- How many of the handles in the store are on nodes that were never on a queue. -/
def unseen (store : Store) (seen : List Node) : Nat :=
  store.handles.countP fun node => decide (node ∉ seen)

/-- How many handles are on the queue or have not reached it yet. -/
def pending (store : Store) (queue : WorkQueue) : Nat :=
  store.unseen queue.seen + queue.waiting.countP (·.identity.isSome)

/-- Marking a node takes its handles off the count of unseen ones. -/
theorem unseen_cons_lt (store : Store) {seen : List Node} {node : Node}
    (held : node ∈ store.handles) (fresh : node ∉ seen) :
    store.unseen (node :: seen) < store.unseen seen := by
  -- The marked node itself is counted before and not after.
  simp only [unseen, List.countP_eq_length_filter]
  have narrowed : store.handles.filter (fun other => decide (other ∉ node :: seen)) =
      (store.handles.filter fun other => decide (other ∉ seen)).filter (· != node) := by
    rw [List.filter_filter]
    refine List.filter_congr fun other _ => ?_
    by_cases same : other = node <;> simp [same]
  rw [narrowed]
  refine List.length_filter_lt_length_iff_exists.mpr ⟨node, ?_, by simp⟩
  simp [held, fresh]

/-- Putting a value of the store on the queue never adds to what is pending. -/
theorem pending_push_le (store : Store) (queue : WorkQueue) {value : Value}
    (held : value ∈ store.values) : store.pending (queue.push value) ≤ store.pending queue := by
  -- Null and known nodes are turned down, and values without an identity are not counted.
  unfold WorkQueue.push
  split
  · exact Nat.le_refl _
  · split
    · next scalar => simp [pending, scalar]
    · next node found =>
      split
      · exact Nat.le_refl _
      · next fresh =>
        -- What the queue gains, the unseen handles lose.
        have listed : node ∈ store.handles := List.mem_filterMap.mpr ⟨value, held, found⟩
        have moved := store.unseen_cons_lt listed fresh
        simp only [pending, List.countP_append, List.countP_singleton, found, Option.isSome_some,
          if_true]
        omega

/-- Putting values of the store on the queue never adds to what is pending. -/
theorem pending_pushAll_le (store : Store) {values : List Value}
    (held : ∀ value ∈ values, value ∈ store.values) (queue : WorkQueue) :
    store.pending (queue.pushAll values) ≤ store.pending queue := by
  induction values generalizing queue with
  | nil => exact Nat.le_refl _
  | cons value rest pushed =>
    -- The rest is put on the queue that the first value leaves.
    have later := pushed (fun other listed => held other (by simp [listed])) (queue.push value)
    exact Nat.le_trans later (store.pending_push_le queue (held value (by simp)))

end Store

/-- A value without an identity leads nowhere. -/
theorem Visitor.examine_next_of_scalar {State : Type} (visitor : Visitor State) (store : Store)
    {value : Value} (scalar : value.identity = none) (state : State) :
    (visitor.examine store value state).1.next = [] := by
  -- Every edge starts at a node, so there is no stride from such a value.
  refine List.eq_nil_iff_forall_not_mem.mpr fun target queued => ?_
  obtain ⟨node, rfl⟩ := (strides_of_mem_examine queued).source_node
  simp [Value.identity] at scalar

/-- A walk under way: the queue, the state of the visitor, and how many objects were entered. -/
structure Walk (State : Type) where
  queue : WorkQueue
  state : State
  entered : Nat

namespace Walk

variable {State : Type}

/-- A walk that has examined nothing yet. -/
def start (root : Value) (state : State) : Walk State :=
  ⟨WorkQueue.empty.push root, state, 0⟩

/-- Takes the first value off the queue, examines it, and queues what it leads to. -/
def step (visitor : Visitor State) (store : Store) (walk : Walk State) (value : Value)
    (rest : List Value) : Walk State :=
  let found := visitor.examine store value walk.state
  let queue : WorkQueue := ⟨rest, walk.queue.seen, walk.queue.enqueued⟩
  ⟨queue.pushAll found.1.next, found.2,
    if found.1.entered then walk.entered + 1 else walk.entered⟩

/-- A step takes a node off the pending ones, or shortens the queue and leaves them. -/
theorem step_decreases (visitor : Visitor State) (store : Store) (walk : Walk State)
    (value : Value) (rest : List Value) (waiting : walk.queue.waiting = value :: rest) :
    Prod.Lex (· < ·) (· < ·)
      (store.pending (walk.step visitor store value rest).queue,
        (walk.step visitor store value rest).queue.waiting.length)
      (store.pending walk.queue, walk.queue.waiting.length) := by
  let next := (visitor.examine store value walk.state).1.next
  let remaining : WorkQueue := ⟨rest, walk.queue.seen, walk.queue.enqueued⟩
  have shrinks : store.pending (remaining.pushAll next) ≤ store.pending remaining :=
    store.pending_pushAll_le
      (fun _ queued => (Visitor.strides_of_mem_examine queued).mem_values) remaining
  cases identity : value.identity with
  | some node =>
    -- The node has left the queue, and nothing new has become pending.
    refine Prod.Lex.left _ _ (Nat.lt_of_le_of_lt shrinks ?_)
    simp [remaining, Store.pending, waiting, identity]
  | none =>
    -- The value leads nowhere, so the rest of the queue is all that is left.
    have closed := visitor.examine_next_of_scalar store identity walk.state
    have same : store.pending ⟨rest, walk.queue.seen, walk.queue.enqueued⟩ =
        store.pending walk.queue := by
      simp [Store.pending, waiting, identity]
    simp only [step, closed, WorkQueue.pushAll, List.foldl_nil, same]
    exact Prod.Lex.right _ (by simp [waiting])

/-- Takes steps until the queue is empty. -/
def run (visitor : Visitor State) (store : Store) (walk : Walk State) : Walk State :=
  match _waiting : walk.queue.waiting with
  | [] => walk
  | value :: rest => run visitor store (walk.step visitor store value rest)
termination_by (store.pending walk.queue, walk.queue.waiting.length)
decreasing_by exact walk.step_decreases visitor store value rest _waiting

end Walk

/-- The objects whose members were inspected, and the values ever put on the queue. -/
structure WalkStats where
  objectsVisited : Nat
  valuesEnqueued : Nat
deriving DecidableEq

/-- Walks everything reachable from a root, and tells the visitor when nothing is left. -/
def Visitor.walk {State : Type} (visitor : Visitor State) (store : Store) (root : Value)
    (state : State) : WalkStats × State :=
  let walk := (Walk.start root state).run visitor store
  let ((), state) := visitor.complete walk.state
  (⟨walk.entered, walk.queue.enqueued⟩, state)

end GraphRules
