import GraphRules.Report
import GraphRules.RuleBook
import GraphRules.Walk.Basic

/-! Validation: values against the rules on nodes, and objects against those on members. -/

namespace GraphRules

/-- A rule book with settings that were found usable. -/
structure Validator where
  book : RuleBook
  settings : ValidatorSettings
  usable : settings.complaint? = none

namespace Validator

/-- A validator, unless its settings are unusable. -/
def make (book : RuleBook) (settings : ValidatorSettings) : Except SettingsError Validator :=
  match usable : settings.complaint? with
  | some error => .error error
  | none => .ok ⟨book, settings, usable⟩

/-- The validator with the settings where nothing is said. -/
def standard (book : RuleBook) : Validator := ⟨book, .standard, rfl⟩

end Validator

/-- The violation of a declared rule at the place of a leaf, or as it was made at the root. -/
def Violation.atLeaf (path : Path) (violation : Violation) : Violation :=
  if path.isRoot then violation else violation.withPath path.text

/-- The violation of a member rule at the place of the member below a leaf. -/
def Violation.atMember (path : Path) (member : Member) (violation : Violation) : Violation :=
  violation.withPath (if path.isRoot then member.text else s!"{path}.{member}")

/-- What a validation has come to: the objects looked into so far, in order, and the violations. -/
structure Inspection where
  checked : List Object
  violations : List Violation

namespace Inspection

/-- An inspection that has looked at nothing. -/
def start : Inspection := ⟨[], []⟩

/-- The inspection with more violations. -/
def report (inspection : Inspection) (violations : List Violation) : Inspection :=
  { inspection with violations := inspection.violations ++ violations }

end Inspection

namespace RuleBook

/-- The violations of the rules on the node of a leaf. -/
def leafViolations (book : RuleBook) (store : Store) (leaf : Leaf) : List Violation :=
  (book.rulesFor leaf.descriptor).filterMap fun rule =>
    (rule.check store leaf.value).map (Violation.atLeaf leaf.path)

/-- The violations of the rules on a member. -/
def memberViolations (book : RuleBook) (store : Store) (path : Path) (member : Member) :
    List Violation :=
  (book.memberRules member.owner.kind member.name).filterMap fun rule =>
    (rule.check store member.value).map (Violation.atMember path member)

/-- The visitor that checks the members of every object it has not checked before. -/
def cascade (book : RuleBook) (store : Store) (path : Path) : Visitor Inspection where
  acceptKind kind := pure (kind.isContainer || kind.isAssignableTo .object)
  -- An object is noted as soon as it is entered, so no later walk enters it again.
  enterObject object := fun inspection =>
    if object ∈ inspection.checked then (false, inspection)
    else (true, { inspection with checked := inspection.checked ++ [object] })
  acceptMember member := fun inspection =>
    (true, inspection.report (book.memberViolations store path member))

end RuleBook

namespace Validator

/-- Whether a walk starts at a leaf, at a node that was not looked into before. -/
def startsWalk (validator : Validator) (leaf : Leaf) (inspection : Inspection) : Bool :=
  validator.settings.cascade && leaf.descriptor.needsIntrospection &&
    match leaf.value.identity with
    -- Only objects are ever noted, so a container that was walked before is walked again.
    | some node => decide (node ∉ inspection.checked.map .object)
    | none => false

/-- Checks one leaf and then what can be reached from it. -/
def inspectLeaf (validator : Validator) (store : Store) (inspection : Inspection) (leaf : Leaf) :
    Inspection :=
  let inspection := inspection.report (validator.book.leafViolations store leaf)
  if validator.startsWalk leaf inspection then
    ((validator.book.cascade store leaf.path).walk store leaf.value inspection).2
  else inspection

/-- The scope of the extractions that a validator makes. -/
def scope (validator : Validator) (store : Store) : Scope :=
  ⟨store, validator.settings.extraction.maxDepth⟩

/-- Validates a value as an instance of the type that a descriptor describes. -/
def validate (validator : Validator) (store : Store) (descriptor : Descriptor) (value : Value)
    (registry : Registry) : Report × Registry :=
  let (extraction, registry) := (validator.scope store).extract descriptor value registry
  let inspection := extraction.leaves.foldl (validator.inspectLeaf store) .start
  (⟨inspection.violations, extraction.errors, extraction.leaves.length,
    inspection.checked.length⟩, registry)

end Validator

end GraphRules
