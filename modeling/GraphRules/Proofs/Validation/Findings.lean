import GraphRules.Proofs.Extraction.Leaves
import GraphRules.Proofs.Validation.Coverage

/-! What a whole validation finds, each object at the first leaf that covers it. -/

namespace GraphRules

namespace Validator

variable (validator : Validator) (store : Store)

/-- A leaf covers the objects that its value reaches, if its node needs introspection. -/
def Covers (leaf : Leaf) (object : Object) : Prop :=
  validator.settings.cascade = true ∧ leaf.descriptor.needsIntrospection = true ∧
    store.Reaches leaf.value (.node (.object object))

/-- The objects that a validation looks into when it comes to a leaf. -/
def foundAt (inspection : Inspection) (leaf : Leaf) : List Object :=
  let inspection := inspection.report (validator.book.leafViolations store leaf)
  if validator.startsWalk leaf inspection then
    validator.book.entered store leaf.path (.start leaf.value inspection)
  else []

/-- The violations that a leaf adds to a report when the given objects are found there. -/
def violationsAt (leaf : Leaf) (objects : List Object) : List Violation :=
  validator.book.leafViolations store leaf ++
    objects.flatMap (validator.book.objectViolations store leaf.path)

/-- The leaves in order, each with the objects found there. -/
def findings : Inspection → List Leaf → List (Leaf × List Object)
  | _, [] => []
  | inspection, leaf :: rest =>
    (leaf, validator.foundAt store inspection leaf) ::
      findings (validator.inspectLeaf store inspection leaf) rest

/-- A leaf adds its own violations and those of its new objects, which then count as known. -/
theorem inspectLeaf_eq (inspection : Inspection) (leaf : Leaf) :
    validator.inspectLeaf store inspection leaf =
      ⟨inspection.checked ++ validator.foundAt store inspection leaf,
        inspection.violations ++
          validator.violationsAt store leaf (validator.foundAt store inspection leaf)⟩ := by
  -- The state of a walk is that of its run, since nothing is done once it is complete.
  have walked : ∀ start : Inspection,
      ((validator.book.cascade store leaf.path).walk store leaf.value start).2 =
        ((Walk.start leaf.value start).run (validator.book.cascade store leaf.path) store).state :=
    fun _ => rfl
  unfold inspectLeaf foundAt violationsAt
  dsimp only
  split
  · -- The walk starts from what the rules on the leaf's own node have reported.
    rw [walked, RuleBook.run_state]
    simp [Inspection.report, Walk.start]
  · -- Without a walk nothing is found, and only these violations are added.
    simp [Inspection.report]

variable {store} {inspection : Inspection} {leaf : Leaf} {object : Object}

/-- Where no walk starts, all that the value covers was looked into before. -/
theorem mem_checked_of_covers (closed : store.Closed inspection.checked)
    (idle : validator.startsWalk leaf inspection = false)
    (covers : validator.Covers store leaf object) : object ∈ inspection.checked := by
  obtain ⟨cascading, introspected, reached⟩ := covers
  cases identity : leaf.value.identity with
  | none =>
    -- A value that is no node reaches only itself, and so no object.
    have same := reached.eq_of_scalar identity
    simp [← same, Value.identity] at identity
  | some node =>
    -- The walk was left out because the node was looked into, with all that it reaches.
    have known : ∃ other ∈ inspection.checked, Node.object other = node := by
      simpa [startsWalk, cascading, introspected, identity] using idle
    obtain ⟨other, listed, rfl⟩ := known
    rw [Value.identity_eq_some.mp identity] at reached
    exact closed other listed object reached

/-- At a leaf, exactly the covered objects that were not looked into before are found. -/
theorem mem_foundAt (closed : store.Closed inspection.checked) :
    object ∈ validator.foundAt store inspection leaf ↔
      validator.Covers store leaf object ∧ object ∉ inspection.checked := by
  unfold foundAt
  dsimp only
  have closedToo : store.Closed
      (inspection.report (validator.book.leafViolations store leaf)).checked := closed
  split
  · next starts =>
    -- A walk starts only for the sake of what the leaf covers.
    rw [RuleBook.mem_entered_start closedToo]
    simp only [startsWalk, Bool.and_eq_true] at starts
    simp [Covers, starts.1.1, starts.1.2, Inspection.report]
  · next idle =>
    -- Without a walk there was nothing left to find.
    simp only [List.not_mem_nil, false_iff, not_and, not_not]
    exact validator.mem_checked_of_covers closed (Bool.eq_false_iff.mpr idle)

/-- After each leaf, the objects looked into are closed under reachability again. -/
theorem closed_inspectLeaf (closed : store.Closed inspection.checked) (leaf : Leaf) :
    store.Closed (validator.inspectLeaf store inspection leaf).checked := by
  rw [inspectLeaf_eq, foundAt]
  dsimp only
  split
  · -- A walk leaves them closed.
    have closedToo : store.Closed
        (inspection.report (validator.book.leafViolations store leaf)).checked := closed
    exact RuleBook.closed_append_entered closedToo
  · -- Without a walk they stay as they were.
    rwa [List.append_nil]

/-- No object is found twice at one leaf. -/
theorem foundAt_distinct (store : Store) (inspection : Inspection) (leaf : Leaf) :
    (validator.foundAt store inspection leaf).Nodup := by
  -- One walk enters no object twice.
  unfold foundAt
  dsimp only
  split
  · exact validator.book.entered_distinct store leaf.path leaf.value _
  · exact List.nodup_nil

/-! ### All leaves -/

/-- At the start nothing was looked into, which is closed under reachability. -/
theorem closed_start (store : Store) : store.Closed Inspection.start.checked := by
  -- Nothing was looked into.
  intro object listed
  simp [Inspection.start] at listed

/-- There is one finding for each leaf. -/
theorem findings_leaves (store : Store) (inspection : Inspection) (leaves : List Leaf) :
    (validator.findings store inspection leaves).map (·.1) = leaves := by
  -- The induction is on the leaves, each of which has its own finding.
  induction leaves generalizing inspection with
  | nil => rfl
  | cons leaf rest later => rw [findings, List.map_cons, later]

/-- The outcome of a validation are its findings, in order. -/
theorem foldl_inspectLeaf (store : Store) (inspection : Inspection) (leaves : List Leaf) :
    leaves.foldl (validator.inspectLeaf store) inspection =
      ⟨inspection.checked ++ (validator.findings store inspection leaves).flatMap (·.2),
        inspection.violations ++ (validator.findings store inspection leaves).flatMap fun finding =>
          validator.violationsAt store finding.1 finding.2⟩ := by
  induction leaves generalizing inspection with
  | nil => simp [findings]
  | cons leaf rest later =>
    -- What the first leaf adds stands before what the others add.
    rw [List.foldl_cons, later, findings, List.flatMap_cons, List.flatMap_cons,
      ← List.append_assoc, ← List.append_assoc]
    simp only [inspectLeaf_eq]

/-- Exactly the objects are found that some leaf covers and that were not looked into before. -/
theorem mem_findings (closed : store.Closed inspection.checked) (leaves : List Leaf) :
    object ∈ (validator.findings store inspection leaves).flatMap (·.2) ↔
      (∃ leaf ∈ leaves, validator.Covers store leaf object) ∧ object ∉ inspection.checked := by
  induction leaves generalizing inspection with
  -- The induction is on the leaves, and what is looked into stays closed at each.
  | nil => simp [findings]
  | cons leaf rest later =>
    have foundLater := later (validator.closed_inspectLeaf closed leaf)
    rw [findings, List.flatMap_cons, List.mem_append, foundLater, inspectLeaf_eq,
      List.mem_append, validator.mem_foundAt closed]
    -- A covered object is found at this leaf or has been looked into before.
    simp only [List.mem_cons, exists_eq_or_imp]
    constructor
    · rintro (⟨here, fresh⟩ | ⟨there, fresh⟩)
      · exact ⟨.inl here, fresh⟩
      · exact ⟨.inr there, fun known => fresh (.inl known)⟩
    · rintro ⟨here | there, fresh⟩
      · exact .inl ⟨here, fresh⟩
      · by_cases here : validator.Covers store leaf object
        · exact .inl ⟨here, fresh⟩
        · exact .inr ⟨there, fun known => known.elim fresh fun found => here found.1⟩

/-- No object is found twice, nor one that was looked into before. -/
theorem findings_distinct (closed : store.Closed inspection.checked)
    (distinct : inspection.checked.Nodup) (leaves : List Leaf) :
    (inspection.checked ++ (validator.findings store inspection leaves).flatMap (·.2)).Nodup := by
  induction leaves generalizing inspection with
  | nil => simpa [findings] using distinct
  | cons leaf rest later =>
    rw [findings, List.flatMap_cons, ← List.append_assoc]
    have once : (inspection.checked ++ validator.foundAt store inspection leaf).Nodup := by
      refine List.nodup_append.mpr ⟨distinct, validator.foundAt_distinct store inspection leaf, ?_⟩
      -- What is found at the leaf was not looked into before.
      rintro object known other found rfl
      exact ((validator.mem_foundAt closed).mp found).2 known
    have onwards := validator.closed_inspectLeaf closed leaf
    simpa only [inspectLeaf_eq] using later onwards (by rwa [inspectLeaf_eq])

/-- An object is found at the first leaf that covers it, unless it was looked into before. -/
theorem mem_finding (closed : store.Closed inspection.checked) {leaves : List Leaf}
    {before after : List (Leaf × List Object)} {objects : List Object}
    (split : validator.findings store inspection leaves = before ++ (leaf, objects) :: after) :
    object ∈ objects ↔
      (validator.Covers store leaf object ∧ object ∉ inspection.checked) ∧
        ∀ earlier ∈ before, ¬validator.Covers store earlier.1 object := by
  -- The induction goes over the leaves before the one at hand.
  induction before generalizing inspection leaves with
  | nil =>
    cases leaves with
    | nil => simp [findings] at split
    | cons first rest =>
      simp only [findings, List.nil_append, List.cons.injEq, Prod.mk.injEq] at split
      -- The leaf at hand is the first of all.
      obtain ⟨⟨rfl, rfl⟩, _⟩ := split
      simp [validator.mem_foundAt closed]
  | cons finding before later =>
    cases leaves with
    | nil => simp [findings] at split
    | cons first rest =>
      simp only [findings, List.cons_append, List.cons.injEq] at split
      obtain ⟨rfl, split⟩ := split
      rw [later (validator.closed_inspectLeaf closed first) split, inspectLeaf_eq, List.mem_append,
        validator.mem_foundAt closed, List.forall_mem_cons]
      -- The first leaf takes all that it covers away from the later ones.
      constructor
      · rintro ⟨⟨here, fresh⟩, others⟩
        have unknown : object ∉ inspection.checked := fun known => fresh (.inl known)
        exact ⟨⟨here, unknown⟩, fun taken => fresh (.inr ⟨taken, unknown⟩), others⟩
      · rintro ⟨⟨here, fresh⟩, free, others⟩
        exact ⟨⟨here, fun known => known.elim fresh fun taken => free taken.1⟩, others⟩

/-- What is found at a leaf is covered by that leaf. -/
theorem covers_of_mem_findings {leaves : List Leaf} {finding : Leaf × List Object}
    (listed : finding ∈ validator.findings store .start leaves) {object : Object}
    (found : object ∈ finding.2) : validator.Covers store finding.1 object := by
  -- The leaves before it are split off, and then the finding is told by its place.
  obtain ⟨before, after, split⟩ := List.append_of_mem listed
  exact ((validator.mem_finding (closed_start store) split).mp found).1.1

end Validator

end GraphRules
