import GraphRules.Proofs.Validation.Attribution
import Mathlib.Data.List.Flatten

/-! Declared rules and the cascade side by side, of which the first do without the second. -/

namespace GraphRules

namespace Validator

variable (validator : Validator) (store : Store)

/-- The same validator, except that it looks into no objects. -/
def withoutCascade (validator : Validator) : Validator where
  book := validator.book
  settings := { validator.settings with cascade := false }
  usable := validator.usable

/-- The violations of the rules on the node of a leaf, in the order of filing. -/
def declaredViolations (leaf : Leaf) : List Violation :=
  (validator.book.rulesFor leaf.descriptor).filterMap fun rule =>
    (rule.check store leaf.value).map fun violation =>
      -- At the root a violation stays as the rule made it.
      if leaf.isRoot then violation else violation.withPath leaf.path.text

/-- The first pass reports the violations of declared rules at the place of the leaf. -/
theorem leafViolations_eq {leaf : Leaf} (root : leaf.isRoot = leaf.path.isRoot) :
    validator.book.leafViolations store leaf = validator.declaredViolations store leaf := by
  unfold RuleBook.leafViolations declaredViolations Violation.atLeaf
  -- Whether a leaf is the root is told by its origin or by its path.
  rw [root]

/-- The findings of a validation without cascade are the leaves alone. -/
theorem findings_of_no_cascade (off : validator.settings.cascade = false) (inspection : Inspection)
    (leaves : List Leaf) :
    validator.findings store inspection leaves = leaves.map fun leaf => (leaf, []) := by
  -- No walk starts at any leaf, whatever was looked into before.
  have idle : ∀ leaf before, validator.foundAt store before leaf = [] := by
    intro leaf before
    simp [foundAt, startsWalk, off]
  induction leaves generalizing inspection with
  | nil => rfl
  | cons leaf rest later => rw [findings, idle, later, List.map_cons]

/-- The violations of a validation, with those of the first pass told rule by rule. -/
theorem violations_validate (descriptor : Descriptor) (value : Value) (registry : Registry) :
    let leaves := ((validator.scope store).extract descriptor value registry).1.leaves
    (validator.validate store descriptor value registry).1.violations =
      (validator.findings store .start leaves).flatMap fun finding =>
        validator.declaredViolations store finding.1 ++
          finding.2.flatMap (validator.cascadeViolations store finding.1) := by
  -- The findings are leaf by leaf, and each of these leaves was extracted.
  intro leaves
  have owned := validator.findings_leaves store .start leaves
  rw [validate_eq]
  refine List.flatMap_congr fun finding listed => ?_
  have extracted : finding.1 ∈ leaves := owned ▸ List.mem_map_of_mem listed
  rw [leafViolations_eq validator store (isRoot_of_mem_extract extracted)]

/-- The report of a validation without cascade. -/
theorem validate_of_no_cascade (off : validator.settings.cascade = false) (descriptor : Descriptor)
    (value : Value) (registry : Registry) :
    let extraction := ((validator.scope store).extract descriptor value registry).1
    (validator.validate store descriptor value registry).1 =
      ⟨extraction.leaves.flatMap (validator.declaredViolations store), extraction.errors,
        extraction.leaves.length, 0⟩ := by
  intro extraction
  have told : extraction.leaves.flatMap (validator.book.leafViolations store) =
      extraction.leaves.flatMap (validator.declaredViolations store) :=
    List.flatMap_congr fun leaf extracted =>
      leafViolations_eq validator store (isRoot_of_mem_extract extracted)
  rw [validate_eq, validator.findings_of_no_cascade store off, ← told]
  -- At every leaf there is nothing after the violations of its own node.
  simp [List.flatMap_map, extraction]

/-- The rules declared on the nodes of leaves are checked alike with and without the cascade. -/
theorem validate_declared_pass (descriptor : Descriptor) (value : Value) (registry : Registry) :
    let leaves := ((validator.scope store).extract descriptor value registry).1.leaves
    let report := (validator.validate store descriptor value registry).1
    let declared := (validator.withoutCascade.validate store descriptor value registry).1
    ∃ findings : List (Leaf × List Object),
      findings.map (·.1) = leaves ∧
      -- Leaf by leaf their violations come first, in filing order, and then those of the cascade.
      (report.violations = findings.flatMap fun finding =>
        validator.declaredViolations store finding.1 ++
          finding.2.flatMap (validator.cascadeViolations store finding.1)) ∧
      (∀ finding ∈ findings, ∀ object ∈ finding.2, validator.Covers store finding.1 object) ∧
      -- Without the cascade they are all, from the same leaves, and no object is looked into.
      declared = ⟨leaves.flatMap (validator.declaredViolations store), report.suppressed,
        report.leaves, 0⟩ ∧
      declared.violations.Sublist report.violations := by
  intro leaves report declared
  let findings := validator.findings store .start leaves
  have owned : findings.map (·.1) = leaves := validator.findings_leaves store .start leaves
  have reported : report.violations = _ :=
    validator.violations_validate store descriptor value registry
  -- Both validators extract the same leaves, and the second has no cascade.
  have alone : declared = ⟨leaves.flatMap (validator.declaredViolations store), report.suppressed,
      report.leaves, 0⟩ :=
    validator.withoutCascade.validate_of_no_cascade store rfl descriptor value registry
  refine ⟨findings, owned, reported, fun finding listed object found =>
    validator.covers_of_mem_findings listed found, alone, ?_⟩
  -- At each leaf, the violations of the cascade come in addition.
  rw [alone, reported, ← owned, List.flatMap_map]
  exact List.Sublist.flatMap_right findings fun finding _ => List.sublist_append_left _ _

end Validator

end GraphRules
