import GraphRules.Proofs.RuleBook.Filing
import GraphRules.Proofs.Validation.Attribution
import GraphRules.Proofs.Validation.Steering

/-! One more rule on a member, which adds its own failures and changes nothing else. -/

namespace GraphRules

/-- A list is made of two others, each of which keeps its order. -/
inductive Mixed {Entry : Type} : (whole kept added : List Entry) → Prop
  | nil : Mixed [] [] []
  | keep {whole kept added : List Entry} (entry : Entry) (rest : Mixed whole kept added) :
    Mixed (entry :: whole) (entry :: kept) added
  | add {whole kept added : List Entry} (entry : Entry) (rest : Mixed whole kept added) :
    Mixed (entry :: whole) kept (entry :: added)

namespace Mixed

variable {Entry : Type}

/-- A list to which nothing is added. -/
theorem unadded (entries : List Entry) : Mixed entries entries [] := by
  -- The induction is on the entries, which are all kept.
  induction entries with
  | nil => exact .nil
  | cons entry rest mixed => exact .keep entry mixed

/-- A list of which everything is added. -/
theorem allAdded (entries : List Entry) : Mixed entries [] entries := by
  -- The induction is on the entries, which are all added.
  induction entries with
  | nil => exact .nil
  | cons entry rest mixed => exact .add entry mixed

/-- Mixed lists one after the other. -/
theorem append {whole kept added whole' kept' added' : List Entry} (first : Mixed whole kept added)
    (second : Mixed whole' kept' added') :
    Mixed (whole ++ whole') (kept ++ kept') (added ++ added') := by
  -- The induction is on the first mixture, behind which the second goes on.
  induction first with
  | nil => exact second
  | keep entry _ mixed => exact .keep entry mixed
  | add entry _ mixed => exact .add entry mixed

/-- Entries put in at one place. -/
theorem insert (before added after : List Entry) :
    Mixed (before ++ added ++ after) (before ++ after) added := by
  -- What is added stands between what is kept on either side.
  have mixed := ((unadded before).append (allAdded added)).append (unadded after)
  simpa only [List.append_nil, List.nil_append] using mixed

/-- Mixed lists for each of several inputs. -/
theorem flatMap {Input : Type} {whole kept added : Input → List Entry} (inputs : List Input)
    (mixed : ∀ input ∈ inputs, Mixed (whole input) (kept input) (added input)) :
    Mixed (inputs.flatMap whole) (inputs.flatMap kept) (inputs.flatMap added) := by
  -- The induction is on the inputs, whose mixtures follow each other.
  induction inputs with
  | nil => exact .nil
  | cons input rest later =>
    have first := mixed input List.mem_cons_self
    have others := later fun other listed => mixed other (List.mem_cons_of_mem input listed)
    exact first.append others

/-- What is kept stands in the whole in the same order. -/
theorem sublist {whole kept added : List Entry} (mixed : Mixed whole kept added) :
    kept.Sublist whole := by
  -- The induction is on the mixture, from which what was added is left out.
  induction mixed with
  | nil => exact .slnil
  | keep entry _ shorter => exact shorter.cons_cons entry
  | add entry _ shorter => exact shorter.cons entry

end Mixed

namespace Validator

variable (validator : Validator) (store : Store)

/-- The same validator with one more rule on a member of objects of a kind. -/
def constrainMember (filed : MemberRule) : Validator where
  book := validator.book.constrainMember filed.kind filed.member filed.rule
  settings := validator.settings
  usable := validator.usable

/-- The failures of a rule on the members of an object that it was filed on, below a leaf. -/
def memberFailures (filed : MemberRule) (leaf : Leaf) (object : Object) : List Violation :=
  (store.members object).flatMap fun member =>
    -- The rule applies only to objects that fit its kind.
    if object.kind.isAssignableTo filed.kind = true ∧ filed.member = member.1 then
      ((filed.rule.check store member.2).map fun violation =>
        violation.withPath (leaf.memberPrefix ++ (object.kind.name ++ "." ++ member.1))).toList
    else []

/-- What is found at the leaves: each covered object once, at the first leaf that covers it. -/
structure Finds (leaves : List Leaf) (findings : List (Leaf × List Object)) : Prop where
  leafwise : findings.map (·.1) = leaves
  distinct : (findings.flatMap (·.2)).Nodup
  covered : ∀ object, object ∈ findings.flatMap (·.2) ↔
    ∃ leaf ∈ leaves, validator.Covers store leaf object
  first : ∀ before leaf objects after, findings = before ++ (leaf, objects) :: after →
    ∀ object ∈ objects, validator.Covers store leaf object ∧
      ∀ earlier ∈ before, ¬validator.Covers store earlier.1 object

/-- This is what the findings of a validation are. -/
theorem finds_findings (leaves : List Leaf) :
    validator.Finds store leaves (validator.findings store .start leaves) where
  leafwise := validator.findings_leaves store .start leaves
  distinct := validator.findings_distinct (closed_start store) List.nodup_nil leaves
  covered := by
    intro object
    -- At the start nothing was looked into, so every covered object is found.
    rw [validator.mem_findings (closed_start store) leaves]
    exact and_iff_left List.not_mem_nil
  first := by
    intro before leaf objects after split object found
    obtain ⟨⟨covers, _⟩, alone⟩ := (validator.mem_finding (closed_start store) split).mp found
    exact ⟨covers, alone⟩

/-- One more rule mixes its failures with the violations of an object. -/
theorem cascadeViolations_constrainMember (filed : MemberRule) (leaf : Leaf) (object : Object) :
    Mixed ((validator.constrainMember filed).cascadeViolations store leaf object)
      (validator.cascadeViolations store leaf object) (memberFailures store filed leaf object) := by
  refine Mixed.flatMap _ fun member _ => ?_
  obtain ⟨before, after, old, new⟩ := validator.book.memberRules_constrainMember filed.kind
    filed.member filed.rule object.kind member.1
  have book : (validator.constrainMember filed).book =
      validator.book.constrainMember filed.kind filed.member filed.rule := rfl
  rw [book, old, new, List.filterMap_append, List.filterMap_append, List.filterMap_append]
  -- Checking the rules of a member takes in the new rule only where it applies.
  have added : ∀ check : Rule → Option Violation,
      (if object.kind.isAssignableTo filed.kind = true ∧ filed.member = member.1 then [filed.rule]
        else []).filterMap check =
      if object.kind.isAssignableTo filed.kind = true ∧ filed.member = member.1
        then (check filed.rule).toList else [] := by
    intro check
    split
    · rw [List.filterMap_cons]
      cases check filed.rule <;> rfl
    · rfl
  rw [added]
  -- The failure of the new rule stands where the rule stands among the others.
  exact Mixed.insert _ _ _

/-- With one more rule on a member, a validation finds the same objects and more violations. -/
theorem validate_constrainMember (filed : MemberRule) (descriptor : Descriptor) (value : Value)
    (registry : Registry) :
    let leaves := ((validator.scope store).extract descriptor value registry).1.leaves
    let old := (validator.validate store descriptor value registry).1
    let new := ((validator.constrainMember filed).validate store descriptor value registry).1
    (new.leaves = old.leaves ∧ new.suppressed = old.suppressed ∧
      new.objectsCascaded = old.objectsCascaded) ∧
    old.violations.Sublist new.violations ∧
    -- The new ones are the failures of the rule on the objects found, in the order of finding.
    ∃ findings, validator.Finds store leaves findings ∧
      old.objectsCascaded = (findings.flatMap (·.2)).length ∧
      Mixed new.violations old.violations (findings.flatMap fun finding =>
        finding.2.flatMap (memberFailures store filed finding.1)) := by
  intro leaves old new
  have settings : (validator.constrainMember filed).settings = validator.settings := rfl
  -- Both validations extract the same leaves, and find the same objects at each.
  have found : (validator.constrainMember filed).findings store .start leaves =
      validator.findings store .start leaves := findings_steered store settings rfl leaves
  have before := validator.validate_eq store descriptor value registry
  have after := (validator.constrainMember filed).validate_eq store descriptor value registry
  have scope : (validator.constrainMember filed).scope store = validator.scope store := rfl
  simp only [scope] at before after
  rw [found] at after
  -- Leaf by leaf, the old failures and the new ones are mixed, each in their order.
  have mixed : Mixed new.violations old.violations
      ((validator.findings store .start leaves).flatMap fun finding =>
        finding.2.flatMap (memberFailures store filed finding.1)) := by
    rw [show new = _ from after, show old = _ from before]
    refine Mixed.flatMap _ fun finding _ => ?_
    -- The rules on the node of a leaf are the same, and those on members differ object by object.
    have declared := Mixed.unadded (validator.book.leafViolations store finding.1)
    have cascaded := Mixed.flatMap finding.2 fun object _ =>
      validator.cascadeViolations_constrainMember store filed finding.1 object
    exact declared.append cascaded
  refine ⟨?_, mixed.sublist, _, validator.finds_findings store leaves, ?_, mixed⟩
  · rw [show new = _ from after, show old = _ from before]
    exact ⟨rfl, rfl, rfl⟩
  · exact congrArg Report.objectsCascaded before

end Validator

end GraphRules
