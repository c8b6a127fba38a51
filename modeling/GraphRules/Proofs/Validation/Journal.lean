import GraphRules.Proofs.Validation.Findings

/-! The questions that the walks of one validation ask, over all its leaves. -/

namespace GraphRules

namespace Validator

variable (validator : Validator) (store : Store)

/-- Checks one leaf and writes down what its walk asks, the last entry first. -/
def journaledLeaf (state : Inspection × List WalkEvent) (leaf : Leaf) :
    Inspection × List WalkEvent :=
  let inspection := state.1.report (validator.book.leafViolations store leaf)
  if validator.startsWalk leaf inspection then
    ((validator.book.cascade store leaf.path).withJournal.walk store leaf.value
      (inspection, state.2)).2
  else (inspection, state.2)

/-- A validation of extracted leaves with a journal of its walks, in the order of the entries. -/
def journal (leaves : List Leaf) : Inspection × List WalkEvent :=
  let (inspection, events) := leaves.foldl (validator.journaledLeaf store) (.start, [])
  (inspection, events.reverse)

/-- Entries that tell which objects were entered, and that ask for exactly their members. -/
structure Tells (objects : List Object) (events : List WalkEvent) : Prop where
  entered : events.filterMap WalkEvent.entered? = objects
  inspected : events.filterMap WalkEvent.inspected? = objects.flatMap store.memberViews

/-- Entries of one leaf and then of others. -/
theorem Tells.append {store : Store} {first second : List Object} {earlier later : List WalkEvent}
    (one : Tells store first earlier) (two : Tells store second later) :
    Tells store (first ++ second) (earlier ++ later) where
  entered := by rw [List.filterMap_append, one.entered, two.entered]
  inspected := by
    -- The members of all objects are those of the first and then those of the others.
    rw [List.filterMap_append, one.inspected, two.inspected, List.flatMap_append]

/-- A journal leaves the outcome at a leaf as it is, and tells the objects found there. -/
theorem journaledLeaf_eq (inspection : Inspection) (journal : List WalkEvent) (leaf : Leaf) :
    ∃ events, validator.journaledLeaf store (inspection, journal) leaf =
        (validator.inspectLeaf store inspection leaf, events.reverse ++ journal) ∧
      Tells store (validator.foundAt store inspection leaf) events := by
  unfold journaledLeaf inspectLeaf foundAt
  dsimp only
  split
  · -- The journal of the walk tells the objects that the walk enters.
    obtain ⟨events, ran, told⟩ := ((validator.book.cascade store leaf.path).transcript store).walk
      leaf.value (inspection.report (validator.book.leafViolations store leaf)) journal
    -- The entry that closes the walk is about no object.
    refine ⟨events ++ [WalkEvent.complete], by simp [ran], ?_, ?_⟩
    · rw [Visitor.filterMap_closed WalkEvent.entered? rfl, told.entered]
      rfl
    · rw [Visitor.filterMap_closed WalkEvent.inspected? rfl, told.inspected]
      rfl
  · -- Without a walk nothing is asked and nothing found.
    exact ⟨[], rfl, rfl, rfl⟩

/-- Over several leaves, the journal tells all that is found there. -/
theorem foldl_journaledLeaf (leaves : List Leaf) (inspection : Inspection)
    (journal : List WalkEvent) :
    ∃ events, leaves.foldl (validator.journaledLeaf store) (inspection, journal) =
        (leaves.foldl (validator.inspectLeaf store) inspection, events.reverse ++ journal) ∧
      Tells store ((validator.findings store inspection leaves).flatMap (·.2)) events := by
  induction leaves generalizing inspection journal with
  | nil => exact ⟨[], rfl, rfl, rfl⟩
  | cons leaf rest later =>
    obtain ⟨earlier, checked, told⟩ := validator.journaledLeaf_eq store inspection journal leaf
    obtain ⟨following, ran, toldRest⟩ := later (validator.inspectLeaf store inspection leaf)
      (earlier.reverse ++ journal)
    -- The walk of the first leaf is over before that of the next one starts.
    refine ⟨earlier ++ following, ?_, ?_⟩
    · rw [List.foldl_cons, checked, ran, List.foldl_cons, List.reverse_append, List.append_assoc]
    · rw [findings, List.flatMap_cons]
      exact told.append toldRest

/-- Where an object was found, every rule on its members is checked. -/
theorem mem_violationsAt {leaf : Leaf} {objects : List Object} {member : Member}
    (found : member ∈ objects.flatMap store.memberViews) {rule : Rule}
    (filed : rule ∈ validator.book.memberRules member.owner.kind member.name)
    {violation : Violation} (fails : rule.check store member.value = some violation) :
    violation.atMember leaf.path member ∈ validator.violationsAt store leaf objects := by
  obtain ⟨object, listed, inside⟩ := List.mem_flatMap.mp found
  -- The violations of the object come behind those of the leaf itself.
  refine List.mem_append_right _ (List.mem_flatMap.mpr ⟨object, listed, ?_⟩)
  refine List.mem_flatMap.mpr ⟨member, inside, List.mem_filterMap.mpr ⟨rule, filed, ?_⟩⟩
  rw [fails, Option.map_some]

/-- One validation looks into the objects that some leaf covers, and enters each once. -/
theorem validate_enters_once (descriptor : Descriptor) (value : Value) (registry : Registry) :
    let leaves := ((validator.scope store).extract descriptor value registry).1.leaves
    let report := (validator.validate store descriptor value registry).1
    let (inspection, events) := validator.journal store leaves
    let entered := events.filterMap WalkEvent.entered?
    (∀ object, object ∈ entered ↔ ∃ leaf ∈ leaves, validator.Covers store leaf object) ∧
      entered.Nodup ∧
      -- The members asked about are those of the objects entered.
      events.filterMap WalkEvent.inspected? = entered.flatMap store.memberViews ∧
      -- Every rule on such a member is checked, and reported if it fails.
      (∀ member ∈ events.filterMap WalkEvent.inspected?, ∃ leaf ∈ leaves,
        validator.Covers store leaf member.owner ∧
        ∀ rule ∈ validator.book.memberRules member.owner.kind member.name, ∀ violation,
          rule.check store member.value = some violation →
            violation.atMember leaf.path member ∈ report.violations) ∧
      report.objectsCascaded = entered.length ∧
      -- The journal is one of the validation itself.
      inspection.checked = entered ∧ inspection.violations = report.violations := by
  intro leaves report
  -- The journal starts empty and ends with the entries of the last walk.
  obtain ⟨events, ran, told⟩ := validator.foldl_journaledLeaf store leaves .start []
  have journaled : validator.journal store leaves =
      (leaves.foldl (validator.inspectLeaf store) .start, events) := by
    simp [journal, ran]
  rw [journaled]
  dsimp only
  rw [told.entered, told.inspected]
  -- The objects looked into in the end are all that were found on the way.
  have checked : (leaves.foldl (validator.inspectLeaf store) .start).checked =
      (validator.findings store .start leaves).flatMap (·.2) := by
    simp [foldl_inspectLeaf, Inspection.start]
  have violations : report.violations = (validator.findings store .start leaves).flatMap
      fun finding => validator.violationsAt store finding.1 finding.2 := by
    simp [report, validate, leaves, foldl_inspectLeaf, Inspection.start]
  refine ⟨fun object => ?_, ?_, rfl, fun member inspected => ?_, ?_, checked, rfl⟩
  · -- At the start nothing was looked into, so every covered object is found.
    rw [validator.mem_findings (closed_start store) leaves]
    simp [Inspection.start]
  · exact validator.findings_distinct (closed_start store) List.nodup_nil leaves
  · -- The object was found at some leaf, and its members are checked there.
    rw [List.flatMap_assoc] at inspected
    obtain ⟨finding, listed, found⟩ := List.mem_flatMap.mp inspected
    obtain ⟨object, here, inside⟩ := List.mem_flatMap.mp found
    obtain ⟨entry, _, rfl⟩ := List.mem_map.mp inside
    refine ⟨finding.1, ?_, validator.covers_of_mem_findings listed here, ?_⟩
    · rw [← validator.findings_leaves store .start leaves]
      exact List.mem_map_of_mem listed
    · intro rule filed violation fails
      rw [violations]
      exact List.mem_flatMap.mpr
        ⟨finding, listed, validator.mem_violationsAt store found filed fails⟩
  · -- The report counts the objects looked into.
    have counted : report.objectsCascaded =
        (leaves.foldl (validator.inspectLeaf store) .start).checked.length := rfl
    rw [counted, checked]

end Validator

end GraphRules
