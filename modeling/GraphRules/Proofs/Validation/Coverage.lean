import GraphRules.Proofs.Validation.Cascade

/-! One walk of a cascade from its start, which enters what its root reaches and nothing known. -/

namespace GraphRules

namespace RuleBook

variable (book : RuleBook) (store : Store) (path : Path)

/-- A walk of a cascade notes every object that it enters, and reports its violations, in order. -/
theorem run_state (walk : Walk Inspection) :
    (walk.run (book.cascade store path) store).state =
      ⟨walk.state.checked ++ book.entered store path walk,
        walk.state.violations ++
          (book.entered store path walk).flatMap (book.objectViolations store path)⟩ := by
  -- The induction follows the loop; each turn adds what it enters itself.
  induction walk using Walk.turns (book.cascade store path) store with
  | finished walk empty => simp [Walk.run_finished empty, entered_finished book store path empty]
  | turned walk value rest waiting later =>
    obtain ⟨now, split, state, _⟩ := book.entered_turned store path waiting
    rw [Walk.run_turned waiting, later, split, state]
    simp

/-- A walk enters exactly the objects taken off its queue that were not looked into before. -/
theorem mem_entered {walk : Walk Inspection} {object : Object} :
    object ∈ book.entered store path walk ↔
      .node (.object object) ∈ walk.taken (book.cascade store path) store ∧
        object ∉ walk.state.checked := by
  induction walk using Walk.turns (book.cascade store path) store with
  | finished walk empty =>
    simp [entered_finished book store path empty, Walk.taken, Walk.visits_finished empty]
  | turned walk value rest waiting later =>
    obtain ⟨now, split, state, isNow⟩ := book.entered_turned store path waiting
    have taken : walk.taken (book.cascade store path) store = value ::
        (walk.step (book.cascade store path) store value rest).taken (book.cascade store path)
          store := by
      simp [Walk.taken, Walk.visits_turned waiting]
    rw [split, List.mem_append, later, state, taken, List.mem_cons, isNow]
    -- An object entered in this turn is passed over in all later ones.
    simp only [List.mem_append, isNow]
    constructor
    -- Entered now or later, the object is taken off the queue and was not looked into before.
    · rintro (⟨rfl, fresh⟩ | ⟨listed, fresh⟩)
      · exact ⟨.inl rfl, fresh⟩
      · exact ⟨.inr listed, fun known => fresh (.inl known)⟩
    · rintro ⟨same | listed, fresh⟩
      · exact .inl ⟨same.symm, fresh⟩
      · by_cases same : value = .node (.object object)
        · exact .inl ⟨same, fresh⟩
        · exact .inr ⟨listed, fun known => known.elim fresh fun here => same here.1⟩

/-- A walk opens every value on its queue, but for the objects looked into before. -/
theorem opened_of_mem_taken {walk : Walk Inspection} {value : Value}
    (taken : value ∈ walk.taken (book.cascade store path) store) :
    (∃ object ∈ walk.state.checked, value = .node (.object object)) ∨
      ∃ outcome, (value, outcome) ∈ walk.visits (book.cascade store path) store ∧
        store.Opened value outcome := by
  induction walk using Walk.turns (book.cascade store path) store with
  | finished walk empty => simp [Walk.taken, Walk.visits_finished empty] at taken
  | turned walk first rest waiting later =>
    obtain ⟨entered, _, state, isEntered⟩ := book.entered_turned store path waiting
    have visited : walk.visits (book.cascade store path) store = _ := Walk.visits_turned waiting
    -- The first value is opened now unless it is an object that was looked into before.
    have now := book.opened_examine store path first walk.state
    simp only [Walk.taken, visited, List.map_cons, List.mem_cons] at taken
    rw [visited]
    rcases taken with rfl | again
    · exact now.imp_right fun opened => ⟨_, List.mem_cons_self, opened⟩
    · rcases later again with ⟨object, known, rfl⟩ | ⟨outcome, listed, opened⟩
      · -- It was looked into before the walk, or just now, when it was opened.
        rw [state, List.mem_append, isEntered] at known
        rcases known with known | ⟨rfl, fresh⟩
        · exact .inl ⟨object, known, rfl⟩
        · exact now.imp_right fun opened => ⟨_, List.mem_cons_self, opened⟩
      · exact .inr ⟨outcome, List.mem_cons_of_mem _ listed, opened⟩

/-! ### From the start -/

variable {book store path} {root : Value} {inspection : Inspection}

/-- A walk enters no object twice. -/
theorem entered_distinct (book : RuleBook) (store : Store) (path : Path) (root : Value)
    (inspection : Inspection) : (book.entered store path (.start root inspection)).Nodup :=
  -- The entered objects are among those taken off the queue, and these are distinct.
  (Walk.entered_sublist _).nodup (Walk.objects_distinct _ store root inspection)

/-- What the root reaches is walked, or null, or behind something known, or a map of such. -/
theorem found_of_reaches (book : RuleBook) (path : Path) (inspection : Inspection) {value : Value}
    (reached : store.Reaches root value) :
    let taken := (Walk.start root inspection).taken (book.cascade store path) store
    value.isNull = true ∨ value ∈ taken ∨
      (∃ object ∈ inspection.checked, store.Reaches (.node (.object object)) value) ∨
        ∃ map : Map, value = .node (.map map) ∧
          ∀ side, store.Leads value side → side.isNull = true ∨ side ∈ taken := by
  intro taken
  -- The induction goes over the edges from the root, the last one split off.
  induction reached with
  | refl =>
    -- The root is put on the queue at the start, unless it is null.
    cases null : root.isNull with
    | true => exact .inl rfl
    | false => exact .inr (.inl (Walk.root_mem_taken inspection null))
  | @tail first second _ edge kept =>
    rcases kept with null | listed | ⟨object, known, behind⟩ | ⟨map, rfl, sides⟩
    · -- No edge starts at null.
      obtain ⟨node, rfl⟩ := edge.source_node
      simp [Value.isNull] at null
    · rcases book.opened_of_mem_taken store path listed with ⟨object, known, rfl⟩ |
        ⟨outcome, visited, opened⟩
      · -- An object that was looked into before is declined, and all behind it was found then.
        exact .inr (.inr (.inl ⟨object, known, (Store.Reaches.refl _).tail edge⟩))
      · -- What was opened leads to what is walked, over a map at most.
        rcases opened second edge with null | led | ⟨map, rfl, sides⟩
        · exact .inl null
        · exact (Walk.mem_taken_start_of_mem_next visited led).imp_right .inl
        · exact .inr (.inr (.inr ⟨map, rfl, fun side edge =>
            Walk.mem_taken_start_of_mem_next visited (sides side edge)⟩))
    · exact .inr (.inr (.inl ⟨object, known, behind.tail edge⟩))
    · exact (sides second edge).imp_right .inl

/-- With the known objects closed, a walk enters exactly the others that its root reaches. -/
theorem mem_entered_start (closed : store.Closed inspection.checked) {object : Object} :
    object ∈ book.entered store path (.start root inspection) ↔
      store.Reaches root (.node (.object object)) ∧ object ∉ inspection.checked := by
  rw [mem_entered]
  refine and_congr_left fun fresh => ⟨fun listed => Walk.reaches_of_mem_taken listed, ?_⟩
  intro reached
  -- A fresh object is not behind one looked into before, so it must have been taken off.
  rcases book.found_of_reaches path inspection reached with
    null | listed | ⟨other, known, behind⟩ | ⟨map, same, _⟩
  · simp [Value.isNull] at null
  · exact listed
  · exact absurd (closed other known object behind) fresh
  · simp at same

/-- After a walk, the objects looked into are closed under reachability again. -/
theorem closed_append_entered (closed : store.Closed inspection.checked) :
    store.Closed (inspection.checked ++ book.entered store path (.start root inspection)) := by
  intro object listed other reached
  rw [List.mem_append, mem_entered_start closed]
  by_cases known : other ∈ inspection.checked
  · exact .inl known
  · -- An object that leads to a fresh one was not looked into before, so the walk entered it.
    rcases List.mem_append.mp listed with before | now
    · exact absurd (closed object before other reached) known
    · exact .inr ⟨((mem_entered_start closed).mp now).1.trans reached, known⟩

end RuleBook

end GraphRules
