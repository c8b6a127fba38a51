import GraphRules.Walk.Basic

/-! What a queue takes in: everything but null and the nodes that it knows, in order. -/

namespace GraphRules

/-- Only a node has an identity, and it is the handle itself. -/
@[simp] theorem Value.identity_eq_some {value : Value} {node : Node} :
    value.identity = some node ↔ value = .node node := by
  -- Of all forms of values, only the handles on nodes have an identity at all.
  cases value <;> simp [Value.identity]

namespace WorkQueue

/-- Whether a value that is offered to a queue is put on it. -/
def takes (queue : WorkQueue) (value : Value) : Bool :=
  !value.isNull && !(queue.seen.any fun node => value.identity == some node)

/-- The values that a queue takes in when values are offered to it in order. -/
def admits (queue : WorkQueue) : List Value → List Value
  | [] => []
  | value :: rest =>
    if queue.takes value then value :: (queue.push value).admits rest
    else (queue.push value).admits rest

/-- A value is turned down when it is null or a node that the queue knows. -/
theorem takes_eq_false {queue : WorkQueue} {value : Value} :
    queue.takes value = false ↔ value.isNull = true ∨ ∃ node ∈ queue.seen, value = .node node := by
  -- The two halves of the test fail for the two reasons.
  cases null : value.isNull <;> simp [takes, null]

/-- A node that is taken in was not known. -/
theorem not_mem_seen_of_takes {queue : WorkQueue} {node : Node}
    (taken : queue.takes (.node node) = true) : node ∉ queue.seen := by
  intro known
  -- A known node would have been turned down.
  have refused : queue.takes (.node node) = false := takes_eq_false.mpr (.inr ⟨node, known, rfl⟩)
  simp [refused] at taken

/-- A value that is turned down leaves the queue as it is. -/
theorem push_of_refused {queue : WorkQueue} {value : Value} (refused : queue.takes value = false) :
    queue.push value = queue := by
  -- The queue asks for the same two reasons when the value is pushed.
  rcases takes_eq_false.mp refused with null | ⟨node, known, rfl⟩
  · simp [push, null]
  · simp [push, Value.isNull, Value.identity, known]

/-- A value that is taken in stands last and is known from then on. -/
theorem push_of_taken {queue : WorkQueue} {value : Value} (taken : queue.takes value = true) :
    queue.push value =
      ⟨queue.waiting ++ [value], value.identity.toList ++ queue.seen, queue.enqueued + 1⟩ := by
  have present : value.isNull = false := by
    cases null : value.isNull with
    | false => rfl
    | true => simp [takes, null] at taken
  cases identity : value.identity with
  | none =>
    -- A value without an identity leaves no trace among the known nodes.
    simp [push, present, identity]
  | some node =>
    -- A node that is taken in passes the test of the push, since it was not known.
    obtain rfl : value = .node node := Value.identity_eq_some.mp identity
    simp [push, present, identity, not_mem_seen_of_takes taken]

/-- Offering values puts the admitted ones at the end and makes their nodes known. -/
theorem pushAll_eq (queue : WorkQueue) (values : List Value) :
    queue.pushAll values =
      ⟨queue.waiting ++ queue.admits values,
        ((queue.admits values).filterMap Value.identity).reverse ++ queue.seen,
        queue.enqueued + (queue.admits values).length⟩ := by
  -- The induction goes over the values offered, with the queue as the first of them leaves it.
  induction values generalizing queue with
  | nil => simp [pushAll, admits]
  | cons value rest pushed =>
    have next : queue.pushAll (value :: rest) = (queue.push value).pushAll rest := rfl
    rw [next, pushed]
    cases taken : queue.takes value with
    | false => simp [admits, taken, push_of_refused taken]
    | true =>
      rw [admits, if_pos taken, push_of_taken taken]
      -- The admitted value stands before the others and was counted before them.
      cases identity : value.identity <;> simp [identity] <;> omega

/-- A known node is known after more values are offered. -/
theorem mem_seen_push {queue : WorkQueue} {value : Value} {node : Node}
    (known : node ∈ queue.seen) : node ∈ (queue.push value).seen := by
  cases taken : queue.takes value with
  -- A refused value changes nothing.
  | false => rwa [push_of_refused taken]
  -- An admitted one adds itself in front of the known nodes.
  | true => simp [push_of_taken taken, known]

/-- Only values that are offered are taken in. -/
theorem mem_of_mem_admits {queue : WorkQueue} {values : List Value} {value : Value}
    (admitted : value ∈ queue.admits values) : value ∈ values := by
  induction values generalizing queue with
  | nil => simp [admits] at admitted
  | cons first rest found =>
    -- Whether or not the first value is admitted, the others are admitted from the rest.
    cases taken : queue.takes first with
    | false =>
      rw [admits, if_neg (by simp [taken])] at admitted
      exact List.mem_cons_of_mem _ (found admitted)
    | true =>
      rw [admits, if_pos taken] at admitted
      rcases List.mem_cons.mp admitted with rfl | later
      · simp
      · exact List.mem_cons_of_mem _ (found later)

/-- No value is lost: what is offered is null, taken in, or a node that is known already. -/
theorem mem_admits_or_seen (queue : WorkQueue) {values : List Value} {value : Value}
    (offered : value ∈ values) :
    value.isNull = true ∨ value ∈ queue.admits values ∨
      ∃ node ∈ queue.seen, value = .node node := by
  induction values generalizing queue with
  | nil => simp at offered
  | cons first rest found =>
    -- The first value is turned down, or the rest is offered to a queue that knows it.
    cases taken : queue.takes first with
    | false =>
      rw [admits, if_neg (by simp [taken]), push_of_refused taken]
      rcases List.mem_cons.mp offered with rfl | later
      · -- The value was turned down for one of the two other reasons.
        exact (takes_eq_false.mp taken).imp_right .inr
      · exact found queue later
    | true =>
      rw [admits, if_pos taken]
      rcases List.mem_cons.mp offered with rfl | later
      · exact .inr (.inl (by simp))
      · rcases found (queue.push first) later with null | admitted | ⟨node, known, rfl⟩
        · exact .inl null
        · exact .inr (.inl (List.mem_cons_of_mem _ admitted))
        · -- A node that became known just now is the value that was just taken in.
          simp only [push_of_taken taken, List.mem_append, Option.mem_toList,
            Value.identity_eq_some] at known
          rcases known with rfl | known
          · exact .inr (.inl (by simp))
          · exact .inr (.inr ⟨node, known, rfl⟩)

/-- The nodes that are taken in were not known, and each is taken in once. -/
theorem admits_distinct (queue : WorkQueue) (values : List Value) :
    ((queue.admits values).filterMap Value.identity).Nodup ∧
      ∀ node ∈ (queue.admits values).filterMap Value.identity, node ∉ queue.seen := by
  induction values generalizing queue with
  | nil => simp [admits]
  | cons value rest distinct =>
    obtain ⟨once, fresh⟩ := distinct (queue.push value)
    -- What the queue knows now, it also knows when the rest is offered.
    have unknown : ∀ node ∈ ((queue.push value).admits rest).filterMap Value.identity,
        node ∉ queue.seen :=
      fun node listed known => fresh node listed (mem_seen_push known)
    cases taken : queue.takes value with
    | false =>
      rw [admits, if_neg (by simp [taken])]
      exact ⟨once, unknown⟩
    | true =>
      rw [admits, if_pos taken]
      cases identity : value.identity with
      | none =>
        -- A value that is no node adds no identity to the list.
        rw [List.filterMap_cons, identity]
        exact ⟨once, unknown⟩
      | some node =>
        obtain rfl : value = .node node := Value.identity_eq_some.mp identity
        simp only [List.filterMap_cons, identity, List.nodup_cons, List.mem_cons]
        refine ⟨⟨fun again => ?_, once⟩, ?_⟩
        · -- From now on the node is known, so it is not taken in a second time.
          exact fresh node again (by simp [push_of_taken taken, Value.identity])
        · rintro other (rfl | later)
          · exact not_mem_seen_of_takes taken
          · exact unknown other later

end WorkQueue

end GraphRules
