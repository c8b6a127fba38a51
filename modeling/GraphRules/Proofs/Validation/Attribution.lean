import GraphRules.Proofs.Validation.Findings

/-! Where the violations of a cascade are reported: once, at the first leaf that covers them. -/

namespace GraphRules

/-- What stands before a member in the paths of its violations, which is nothing at the root. -/
def Leaf.memberPrefix (leaf : Leaf) : String :=
  if leaf.isRoot then "" else leaf.path.text ++ "."

namespace Validator

variable (validator : Validator) (store : Store)

/-- The violations of an object below a leaf, member by member and rule by rule. -/
def cascadeViolations (leaf : Leaf) (object : Object) : List Violation :=
  (store.members object).flatMap fun member =>
    (validator.book.memberRules object.kind member.1).filterMap fun rule =>
      (rule.check store member.2).map fun violation =>
        violation.withPath (leaf.memberPrefix ++ (object.kind.name ++ "." ++ member.1))

/-- The place of a member below a leaf, spelled out. -/
theorem atMember_eq {leaf : Leaf} (root : leaf.isRoot = leaf.path.isRoot) (object : Object)
    (name : String) (value : Value) (violation : Violation) :
    violation.atMember leaf.path ⟨object, name, value⟩ =
      violation.withPath (leaf.memberPrefix ++ (object.kind.name ++ "." ++ name)) := by
  -- The text of a member is the kind of its owner and its name.
  have text : (⟨object, name, value⟩ : Member).text = object.kind.name ++ "." ++ name := by
    simp [Member.text, toString]
  unfold Violation.atMember Leaf.memberPrefix
  rw [root]
  split
  · -- Below the root, the member stands alone.
    rw [text, String.empty_append]
  · -- Elsewhere the path of the leaf stands before it.
    rfl

/-- The walks of a cascade report violations below the leaf that they start from. -/
theorem objectViolations_eq {leaf : Leaf} (root : leaf.isRoot = leaf.path.isRoot)
    (object : Object) :
    validator.book.objectViolations store leaf.path object =
      validator.cascadeViolations store leaf object := by
  unfold RuleBook.objectViolations cascadeViolations Store.memberViews
  rw [List.flatMap_map]
  -- Member by member, the same rules are checked on the same value.
  refine List.flatMap_congr fun member _ => ?_
  have placed := funext (atMember_eq root object member.1 member.2)
  simp only [RuleBook.memberViolations, placed]

/-- A leaf of an extraction is the root exactly when its path says so. -/
theorem isRoot_of_mem_extract {scope : Scope} {descriptor : Descriptor} {root : Value}
    {registry : Registry} {leaf : Leaf}
    (reported : leaf ∈ (scope.extract descriptor root registry).1.leaves) :
    leaf.isRoot = leaf.path.isRoot := by
  rw [Bool.eq_iff_iff, Leaf.isRoot, Option.isNone_iff_eq_none,
    Scope.origin_of_mem_extract reported]
  -- A path is that of the root when it has no segments.
  cases leaf.path
  simp [Path.isRoot, Path.root]

/-- The report of a validation, from its findings. -/
theorem validate_eq (descriptor : Descriptor) (value : Value) (registry : Registry) :
    let extraction := ((validator.scope store).extract descriptor value registry).1
    let findings := validator.findings store .start extraction.leaves
    (validator.validate store descriptor value registry).1 =
      { violations := findings.flatMap fun finding =>
          -- At each leaf the rules on its own node come first, and then those of the objects there.
          validator.book.leafViolations store finding.1 ++
            finding.2.flatMap (validator.cascadeViolations store finding.1)
        suppressed := extraction.errors
        leaves := extraction.leaves.length
        objectsCascaded := (findings.flatMap (·.2)).length } := by
  intro extraction findings
  have owned : findings.map (·.1) = extraction.leaves :=
    validator.findings_leaves store .start extraction.leaves
  have placed : (findings.flatMap fun finding => validator.violationsAt store finding.1 finding.2) =
      findings.flatMap fun finding => validator.book.leafViolations store finding.1 ++
        finding.2.flatMap (validator.cascadeViolations store finding.1) := by
    refine List.flatMap_congr fun finding listed => ?_
    have extracted : finding.1 ∈ extraction.leaves := owned ▸ List.mem_map_of_mem listed
    -- The paths that the walks write are those of the leaf.
    rw [violationsAt]
    congr 1
    exact List.flatMap_congr fun object _ =>
      validator.objectViolations_eq store (isRoot_of_mem_extract extracted) object
  -- The inspection starts with nothing looked into and nothing reported.
  have outcome := validator.foldl_inspectLeaf store .start extraction.leaves
  rw [placed] at outcome
  simp only [validate, extraction, findings] at outcome ⊢
  rw [outcome]
  simp [Inspection.start]

/-- The violations are, leaf by leaf, those on its own node and those of the objects found there. -/
theorem validate_attributes (descriptor : Descriptor) (value : Value) (registry : Registry) :
    let leaves := ((validator.scope store).extract descriptor value registry).1.leaves
    let report := (validator.validate store descriptor value registry).1
    ∃ findings : List (Leaf × List Object),
      findings.map (·.1) = leaves ∧
      (report.violations = findings.flatMap fun finding =>
        validator.book.leafViolations store finding.1 ++
          finding.2.flatMap (validator.cascadeViolations store finding.1)) ∧
      -- No object is found twice, and no member of it checked twice.
      ((findings.flatMap (·.2)).Nodup ∧ ∀ object, ((store.members object).map (·.1)).Nodup) ∧
      -- Exactly the objects that some leaf covers are found.
      (∀ object, object ∈ findings.flatMap (·.2) ↔
        ∃ leaf ∈ leaves, validator.Covers store leaf object) ∧
      -- They are found at the first leaf that covers them.
      ∀ before leaf objects after, findings = before ++ (leaf, objects) :: after →
        ∀ object, object ∈ objects ↔
          validator.Covers store leaf object ∧
            ∀ earlier ∈ before, ¬validator.Covers store earlier.1 object := by
  intro leaves report
  -- At the start nothing was looked into, so every covered object is found.
  have fresh : ∀ object : Object, object ∉ Inspection.start.checked := fun _ => List.not_mem_nil
  have owned := validator.findings_leaves store .start leaves
  refine ⟨validator.findings store .start leaves, owned, ?_, ⟨?_, ?_⟩, ?_, ?_⟩
  · exact congrArg Report.violations (validator.validate_eq store descriptor value registry)
  · -- No object is found at two leaves, nor twice at one.
    exact validator.findings_distinct (closed_start store) List.nodup_nil leaves
  · -- Tables of members are built so that no name stands in them twice.
    exact fun object => (store.memberTable object).distinct
  · intro object
    rw [validator.mem_findings (closed_start store) leaves]
    exact and_iff_left (fresh object)
  · intro before leaf objects after split object
    rw [validator.mem_finding (closed_start store) split]
    exact and_congr_left' (and_iff_left (fresh object))

end Validator

end GraphRules
