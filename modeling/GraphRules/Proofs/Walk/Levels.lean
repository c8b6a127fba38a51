import GraphRules.Proofs.Walk.Coverage

/-! The order of a walk whose visitor follows a policy, with two levels in its queue. -/

namespace GraphRules

namespace Policy

/-- So many open edges lead from one value to another. -/
inductive LeadsIn (policy : Policy) (store : Store) (source : Value) : Nat → Value → Prop
  | here : LeadsIn policy store source 0 source
  | onwards {edges : Nat} {middle target : Value}
      (before : LeadsIn policy store source edges middle)
      (edge : policy.Leads store middle target) : LeadsIn policy store source (edges + 1) target

/-- The distance of a value from another is the least number of open edges that lead to it. -/
structure Distance (policy : Policy) (store : Store) (source target : Value) (edges : Nat) :
    Prop where
  led : policy.LeadsIn store source edges target
  least : ∀ other, policy.LeadsIn store source other target → edges ≤ other

end Policy

namespace Walk

/-- A value may wait at a level to which it is led, if it is no node that stands nearer. -/
structure Waits (policy : Policy) (store : Store) (root : Value) (level : Nat) (value : Value) :
    Prop where
  led : policy.LeadsIn store root level value
  least : ∀ node, value = .node node → ∀ other, policy.LeadsIn store root other value →
    level ≤ other

/-- A queue of two levels, in which all nodes up to the nearer level are known. -/
structure Layered (policy : Policy) (store : Store) (root : Value) (level : Nat)
    (near far : List Value) (seen : List Node) : Prop where
  nearer : ∀ value ∈ near, Waits policy store root level value
  further : ∀ value ∈ far, Waits policy store root (level + 1) value
  known : ∀ edges node, edges ≤ level → policy.LeadsIn store root edges (.node node) → node ∈ seen
  -- Nodes that are known and wait no longer lead to known nodes only.
  closed : ∀ node ∈ seen, .node node ∈ near ++ far ∨
    ∀ inner, policy.Leads store (.node node) (.node inner) → inner ∈ seen

variable {State : Type} {visitor : Visitor State} {policy : Policy} {store : Store} {root : Value}
  {level : Nat} {near far : List Value}

/-- A node that waits at a level stands at that distance. -/
theorem Waits.distance {node : Node} (waits : Waits policy store root level (.node node)) :
    policy.Distance store root (.node node) level :=
  ⟨waits.led, waits.least node rfl⟩

/-- A node that was not known when a level led to it stands exactly one edge further away. -/
theorem Layered.waits_behind {seen : List Node} {source target : Value}
    (layered : Layered policy store root level near far seen)
    (led : policy.LeadsIn store root level source) (edge : policy.Leads store source target)
    (fresh : ∀ node, target = .node node → node ∉ seen) :
    Waits policy store root (level + 1) target where
  -- All nodes up to the level are known, so a fresh one stands no nearer.
  led := led.onwards edge
  least := by
    rintro node rfl other shorter
    by_contra within
    exact fresh node rfl (layered.known other node (by omega) shorter)

/-- Once nothing waits at the nearer level, the further one takes its place. -/
theorem Layered.shift {seen : List Node} (layered : Layered policy store root level [] far seen) :
    Layered policy store root (level + 1) far [] seen where
  nearer := layered.further
  further _ listed := absurd listed List.not_mem_nil
  known edges node within led := by
    -- A node one edge further away is led to by one at the nearer level.
    by_cases before : edges ≤ level
    · exact layered.known edges node before led
    · obtain rfl : edges = level + 1 := by omega
      cases led with
      | @onwards _ middle _ shorter edge =>
        obtain ⟨source, rfl⟩ := edge.strides.source_node
        have known := layered.known level source (Nat.le_refl level) shorter
        rcases layered.closed source known with waits | leads
        · -- A node that waits at the further level is not led to by fewer edges.
          have least := (layered.further _ waits).distance.least level shorter
          omega
        · exact leads node edge
  closed node known := by
    rw [List.append_nil]
    exact layered.closed node known

/-- The value taken off next waits at the nearer level, or else at the further one. -/
theorem Layered.front {seen : List Node} {value : Value} {rest : List Value}
    (layered : Layered policy store root level near far seen)
    (split : near ++ far = value :: rest) :
    ∃ current before after, level ≤ current ∧ before ++ after = rest ∧
      Layered policy store root current (value :: before) after seen := by
  -- The first value waits at the nearer level, or if there is none, at the further one.
  cases near with
  | nil =>
    obtain rfl : far = value :: rest := split
    exact ⟨level + 1, rest, [], Nat.le_succ level, List.append_nil rest, layered.shift⟩
  | cons first others =>
    obtain ⟨rfl, rfl⟩ := List.cons.inj split
    exact ⟨level, others, far, Nat.le_refl level, rfl, layered⟩

/-- One turn takes a value off the nearer level and puts what it admits behind the further one. -/
theorem Layered.turn (follows : visitor.Follows policy) {walk : Walk State} {value : Value}
    {before after : List Value}
    (layered : Layered policy store root level (value :: before) after walk.queue.seen) :
    Layered policy store root level before
      (after ++ walk.admitted visitor store value (before ++ after))
      (walk.step visitor store value (before ++ after)).queue.seen where
  -- All but the first value wait at the nearer level as before.
  nearer other listed := layered.nearer other (List.mem_cons_of_mem value listed)
  further other listed := by
    rcases List.mem_append.mp listed with waited | now
    · exact layered.further other waited
    · -- What is admitted was led to from the nearer level, and its node was not known.
      have edge := follows.mem_examine.mp (WorkQueue.mem_of_mem_admits now)
      obtain ⟨_, fresh⟩ := (walk.remaining (before ++ after)).admits_distinct
        (visitor.examine store value walk.state).1.next
      refine layered.waits_behind (layered.nearer value List.mem_cons_self).led edge ?_
      rintro node rfl
      exact fresh node (List.mem_filterMap.mpr ⟨.node node, now, rfl⟩)
  known edges node within led := mem_step_seen.mpr (.inr (layered.known edges node within led))
  closed node known := by
    rcases mem_step_seen.mp known with now | earlier
    · exact .inl (by simp [now])
    -- A node known before waits, or leads to known nodes only.
    · rcases layered.closed node earlier with waits | leads
      · rcases List.mem_cons.mp waits with taken | later
        · -- All that the value taken off leads to is known now, if it was not before.
          refine .inr fun inner edge => mem_step_seen.mpr ?_
          have led : .node inner ∈ (visitor.examine store value walk.state).1.next :=
            follows.mem_examine.mpr (taken ▸ edge)
          rcases (walk.remaining (before ++ after)).mem_admits_or_seen led with
            null | now | ⟨_, old, same⟩
          · simp [Value.isNull] at null
          · exact .inl now
          · exact .inr (Value.node.inj same ▸ old)
        · exact .inl (by simpa [or_assoc] using List.mem_append_left _ later)
      · exact .inr fun inner edge => mem_step_seen.mpr (.inr (leads inner edge))

/-- At the start the root waits, at distance zero. -/
theorem layered_start (policy : Policy) (store : Store) (root : Value) (state : State) :
    Layered policy store root 0 (start root state).queue.waiting []
    (start root state).queue.seen where
  -- Only the root waits, led to by no edges.
  nearer value waiting := by
    obtain rfl := eq_root_of_waiting waiting
    exact ⟨.here, fun _ _ other _ => Nat.zero_le other⟩
  further _ listed := absurd listed List.not_mem_nil
  known edges node within led := by
    obtain rfl : edges = 0 := Nat.le_zero.mp within
    cases led with
    | here =>
      -- A root that is a node is neither null nor known before it is put on the queue.
      have offered : Value.node node ∈ [Value.node node] := List.mem_singleton_self _
      refine mem_start_seen.mpr ?_
      rcases WorkQueue.empty.mem_admits_or_seen offered with null | waits | ⟨_, known, _⟩
      · simp [Value.isNull] at null
      · exact waits
      · simp [WorkQueue.empty] at known
  closed node known := by
    rw [List.append_nil, start_waiting]
    exact .inl (mem_start_seen.mp known)

/-- From a queue of two levels on, objects are entered at distances that never fall. -/
theorem distances_entered (follows : visitor.Follows policy) (walk : Walk State)
    (waiting : walk.queue.waiting = near ++ far)
    (layered : Layered policy store root level near far walk.queue.seen) :
    ∃ distances : List Nat,
      List.Forall₂ (fun object edges => policy.Distance store root (.node (.object object)) edges)
        ((walk.visits visitor store).filterMap enteredObject?) distances ∧
      (level :: distances).Pairwise (· ≤ ·) := by
  induction walk using turns visitor store generalizing level near far with
  | finished walk empty =>
    -- Nothing is left to enter.
    rw [visits_finished empty]
    exact ⟨[], .nil, List.pairwise_singleton _ level⟩
  | turned walk value rest turning later =>
    -- The level of the first value is found, and the induction goes on from there.
    obtain ⟨current, before, after, reached, rfl, layered⟩ :=
      layered.front (waiting.symm.trans turning)
    obtain ⟨distances, stand, ascend⟩ := later (by rw [step_waiting, List.append_assoc])
      (layered.turn follows)
    -- All that is entered later stands at the current level or further away.
    obtain ⟨bounded, ordered⟩ := List.pairwise_cons.mp ascend
    have beyond : ∀ edges ∈ distances, level ≤ edges := fun edges listed =>
      Nat.le_trans reached (bounded edges listed)
    rw [visits_turned turning]
    cases entered : enteredObject? (value, (visitor.examine store value walk.state).1) with
    | none =>
      rw [List.filterMap_cons_none entered]
      exact ⟨distances, stand, List.pairwise_cons.mpr ⟨beyond, ordered⟩⟩
    | some object =>
      rw [List.filterMap_cons_some entered]
      obtain ⟨_, rfl⟩ := enteredObject?_eq_some.mp entered
      -- An object that is entered now stands at the current level.
      have stands := (layered.nearer _ List.mem_cons_self).distance
      refine ⟨current :: distances, .cons stands stand, List.pairwise_cons.mpr ⟨?_, ascend⟩⟩
      exact List.forall_mem_cons.mpr ⟨reached, beyond⟩

end Walk

namespace Visitor

variable {State : Type} {visitor : Visitor State} {policy : Policy}

/-- A walk whose visitor follows a policy enters objects in the order of their distance. -/
theorem walk_breadth_first (follows : visitor.Follows policy) (store : Store) (root : Value)
    (state : State) :
    let entered := (visitor.journal store root state).2.filterMap WalkEvent.entered?
    ∃ distances : List Nat,
      List.Forall₂ (fun object edges => policy.Distance store root (.node (.object object)) edges)
        entered distances ∧
      distances.Pairwise (· ≤ ·) := by
  obtain ⟨events, journaled, told⟩ := (visitor.transcript store).journal root state
  rw [journaled]
  dsimp only
  -- The closing entry is about no object.
  rw [filterMap_closed WalkEvent.entered? rfl, told.entered]
  obtain ⟨distances, stand, ascend⟩ := Walk.distances_entered follows (Walk.start root state)
    (List.append_nil _).symm (Walk.layered_start policy store root state)
  exact ⟨distances, stand, (List.pairwise_cons.mp ascend).2⟩

end Visitor

/-! ### A fork with branches of different length -/

namespace Fork

def root : Object := ⟨⟨0⟩, .objectType "Root", by decide⟩
def near : Object := ⟨⟨1⟩, .objectType "Near", by decide⟩
def far : Object := ⟨⟨2⟩, .objectType "Far", by decide⟩
def lineKind : Kind := .sequence
def line : Collection := ⟨⟨3⟩, lineKind, by decide⟩

/-- The near object is the second member of the root, and the far one is in its first member. -/
def store : Store where
  cells := #[
    some (.members
      ⟨[("line", .node (.collection line)), ("near", .node (.object near))], by decide⟩),
    some (.members .empty),
    some (.members ⟨[("back", .node (.object root))], by decide⟩),
    some (.items [.node (.object far)])]
  running := ⟨0⟩

end Fork

/-- The near object is entered before the far one, although it was queued after the sequence. -/
theorem walk_breadth_first_fork :
    let entered := (Visitor.acceptAll.journal Fork.store (.node (.object Fork.root))
      ()).2.filterMap WalkEvent.entered?
    Visitor.acceptAll.Follows .acceptAll ∧ entered = [Fork.root, Fork.near, Fork.far] ∧
      ∃ distances : List Nat,
        List.Forall₂ (fun object edges =>
          Policy.acceptAll.Distance Fork.store (.node (.object Fork.root))
            (.node (.object object)) edges)
          entered distances ∧
        distances.Pairwise (· ≤ ·) := by
  intro entered
  have follows := Visitor.acceptAll_follows
  -- The root, the sequence, the near object and the far one are taken off the queue, and then it is
  -- empty.
  have turns : (Walk.start (.node (.object Fork.root)) ((), [])).run Visitor.acceptAll.withJournal
      Fork.store = _ :=
    (Walk.run_turned rfl).trans <| (Walk.run_turned rfl).trans <| (Walk.run_turned rfl).trans <|
      (Walk.run_turned rfl).trans <| Walk.run_finished rfl
  have order : entered = [Fork.root, Fork.near, Fork.far] := by
    unfold entered Visitor.journal Visitor.walk
    rw [turns]
    rfl
  exact ⟨follows, order,
    Visitor.walk_breadth_first follows Fork.store (.node (.object Fork.root)) ()⟩

end GraphRules
