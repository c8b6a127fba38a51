import GraphRules.Proofs.Validation.Findings

/-! Rules do not steer a cascade, whose decisions rest on the objects looked into so far. -/

namespace GraphRules

namespace RuleBook

variable (book other : RuleBook) (store : Store) (path place : Path)

/-- What a value leads to is the same under any rules, unless it is an object. -/
theorem expand_steered {value : Value} (plain : value.object? = none)
    (inspection twin : Inspection) :
    ((book.cascade store path).expand store value inspection).1 =
      ((other.cascade store place).expand store value twin).1 := by
  -- Only for an object does the visitor have a say.
  cases value with
  | node handle =>
    cases handle with
    | object object => simp [Value.object?] at plain
    | _ => rfl
  | _ => rfl

/-- Examining a value leads on in the same way, and looks into the same object, under any rules. -/
theorem examine_steered (value : Value) {inspection twin : Inspection}
    (same : inspection.checked = twin.checked) :
    ((book.cascade store path).examine store value inspection).1 =
        ((other.cascade store place).examine store value twin).1 ∧
      ((book.cascade store path).examine store value inspection).2.checked =
        ((other.cascade store place).examine store value twin).2.checked := by
  cases shape : value.object? with
  | some object =>
    obtain rfl := Value.object?_eq_some.mp shape
    rw [cascade_examine_object, cascade_examine_object, ← same]
    -- The object is declined or entered by both visitors.
    split
    · exact ⟨rfl, same⟩
    · exact ⟨rfl, rfl⟩
  | none =>
    -- No other value changes what was checked.
    have first := (book.cascade_examine_other store path shape inspection).1
    have second := (other.cascade_examine_other store place shape twin).1
    refine ⟨?_, by rw [first, second, same]⟩
    rw [Visitor.examine_apply, Visitor.examine_apply]
    split
    · rfl
    · -- Both visitors ask the same of the kind.
      have asked : (book.cascade store path).acceptKind value.kind inspection =
          (value.kind.isContainer || value.kind.isAssignableTo .object, inspection) := rfl
      have askedToo : (other.cascade store place).acceptKind value.kind twin =
          (value.kind.isContainer || value.kind.isAssignableTo .object, twin) := rfl
      rw [asked, askedToo]
      dsimp only
      split
      · exact book.expand_steered other store path place shape inspection twin
      · rfl

/-- Walks with the same queue and the same known objects enter the same objects in order. -/
theorem entered_steered {walk twin : Walk Inspection} (queued : walk.queue = twin.queue)
    (same : walk.state.checked = twin.state.checked) :
    book.entered store path walk = other.entered store place twin := by
  -- The two loops run in lock step, since each turn leaves the same queue.
  induction walk using Walk.turns (book.cascade store path) store generalizing twin with
  | finished walk empty =>
    have emptyToo : twin.queue.waiting = [] := queued ▸ empty
    rw [book.entered_finished store path empty, other.entered_finished store place emptyToo]
  | turned walk value rest waiting later =>
    have waitingToo : twin.queue.waiting = value :: rest := queued ▸ waiting
    obtain ⟨outcome, checked⟩ := book.examine_steered other store path place value same
    -- The outcomes are the same, so the same values are put on the queue.
    have onwards : (walk.step (book.cascade store path) store value rest).queue =
        (twin.step (other.cascade store place) store value rest).queue := by
      simp only [Walk.step, outcome, queued]
    have following := later onwards checked
    unfold entered at following ⊢
    rw [Walk.visits_turned waiting, Walk.visits_turned waitingToo, List.filterMap_cons,
      List.filterMap_cons, outcome, following]

end RuleBook

namespace Validator

variable {validator twin : Validator} (store : Store)

/-- Validators with the same settings find the same objects where the same are known. -/
theorem foundAt_steered (settings : validator.settings = twin.settings)
    {inspection other : Inspection} (same : inspection.checked = other.checked) (leaf : Leaf) :
    validator.foundAt store inspection leaf = twin.foundAt store other leaf := by
  have reported : (inspection.report (validator.book.leafViolations store leaf)).checked =
      (other.report (twin.book.leafViolations store leaf)).checked := same
  have starts : validator.startsWalk leaf
        (inspection.report (validator.book.leafViolations store leaf)) =
      twin.startsWalk leaf (other.report (twin.book.leafViolations store leaf)) := by
    unfold startsWalk
    rw [settings, reported]
  unfold foundAt
  dsimp only
  rw [starts]
  split
  · -- Both walks start with the value of the leaf on the queue.
    exact validator.book.entered_steered twin.book store leaf.path leaf.path rfl same
  · rfl

/-- Validators with the same settings have the same findings, whatever their rules. -/
theorem findings_steered (settings : validator.settings = twin.settings)
    {inspection other : Inspection} (same : inspection.checked = other.checked)
    (leaves : List Leaf) :
    validator.findings store inspection leaves = twin.findings store other leaves := by
  -- The induction is on the leaves; what is found at one is the same, and so is what is known then.
  induction leaves generalizing inspection other with
  | nil => rfl
  | cons leaf rest later =>
    have found := foundAt_steered store settings same leaf
    have onwards : (validator.inspectLeaf store inspection leaf).checked =
        (twin.inspectLeaf store other leaf).checked := by
      rw [inspectLeaf_eq, inspectLeaf_eq, same, found]
    rw [findings, findings, found, later onwards]

end Validator

end GraphRules
