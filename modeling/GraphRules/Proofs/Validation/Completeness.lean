import GraphRules.Proofs.Extraction.Outcome
import GraphRules.Rule.Text
import GraphRules.Validator

/-! What a complete report leaves open: a branch that no extractor serves is in no report. -/

namespace GraphRules

/-- A validation suppresses the errors of its extraction and nothing else. -/
theorem Validator.isComplete_validate (validator : Validator) (store : Store)
    (descriptor : Descriptor) (value : Value) (registry : Registry) :
    (validator.validate store descriptor value registry).1.isComplete = true ↔
      ((validator.scope store).extract descriptor value registry).1.errors = [] := by
  -- The report keeps the errors as they are, and is asked whether there are any.
  simp only [validate, Report.isComplete]
  exact List.isEmpty_iff

/-- A report calls itself complete when every branch is above the limit and none fails. -/
theorem Validator.validate_complete (validator : Validator) (store : Store)
    (descriptor : Descriptor) (value : Value) (registry : Registry) :
    let limit := (validator.scope store).limit
    let extraction := ((validator.scope store).extract descriptor value registry).1
    let report := (validator.validate store descriptor value registry).1
    let Stands := Branch.Stands store registry.answer descriptor value
    (report.isComplete = true ↔ ∀ branch, Stands branch →
      branch.links.length < limit ∧ branch.failure? store registry.answer value = none) ∧
    -- Every branch was walked if in addition no slot was unserved, which the report leaves out.
    (report.isComplete = true ∧ extraction.unresolved = [] ↔
      ∀ branch, Stands branch → branch.Walked store registry.answer limit value) ∧
    -- The unserved slots are those of the branches that no extractor serves.
    ∀ key, key ∈ extraction.unresolved ↔ ∃ branch, Stands branch ∧
      branch.links.length < limit ∧ branch.server? registry.answer value = none ∧
        branch.key value = key := by
  -- The report keeps the errors of the extraction, and these are known branch by branch.
  intro limit extraction report Stands
  have complete : report.isComplete = true ↔ ∀ branch, Stands branch →
      branch.links.length < limit ∧ branch.failure? store registry.answer value = none :=
    (validator.isComplete_validate store descriptor value registry).trans
      Scope.extract_errors_eq_nil
  have unserved : ∀ key, key ∈ extraction.unresolved ↔ ∃ branch, Stands branch ∧
      branch.links.length < limit ∧ branch.server? registry.answer value = none ∧
        branch.key value = key := fun key => Scope.mem_extract_unresolved
  refine ⟨complete, ?_, unserved⟩
  constructor
  · rintro ⟨clean, none⟩ branch stands
    obtain ⟨shallow, unfailing⟩ := complete.mp clean branch stands
    refine ⟨shallow, fun unmet => ?_, unfailing⟩
    -- A branch that nothing serves would be among the unserved slots.
    have listed := (unserved _).mpr ⟨branch, stands, shallow, unmet, rfl⟩
    simp [none] at listed
  · intro walked
    -- An unserved slot would be a branch that was not walked.
    refine ⟨complete.mpr fun branch stands =>
      ⟨(walked branch stands).shallow, (walked branch stands).unfailing⟩, ?_⟩
    refine List.eq_nil_iff_forall_not_mem.mpr fun key listed => ?_
    obtain ⟨branch, stands, _, unmet, _⟩ := (unserved key).mp listed
    exact (walked branch stands).served unmet

/-! ### A bag that nobody can open -/

namespace Bag

def kind : Kind := .objectType "Bag"

/-- The texts in a bag must not be blank. -/
def texts : Descriptor × RuleBook := RuleBook.empty.constrain (.simple ⟨0⟩ .text) .notBlank

def descriptor : Descriptor := .parameterized ⟨1⟩ kind [texts.1]

def bag : Object := ⟨⟨0⟩, kind, by decide⟩

/-- The bag holds a blank text. -/
def store : Store where
  cells := #[some (.members ⟨[("label", .text " ")], by decide⟩)]
  running := ⟨0⟩

end Bag

/-- Nothing opens a bag, so its text is never checked, and the report is complete all the same. -/
theorem bag_report_complete :
    let validator := Validator.standard Bag.texts.2
    let value := Value.node (.object Bag.bag)
    let report := (validator.validate Bag.store Bag.descriptor value .withDefaults).1
    let extraction := ((validator.scope Bag.store).extract Bag.descriptor value .withDefaults).1
    report.isComplete = true ∧ report.leaves = 0 ∧ extraction.unresolved = [⟨Bag.kind, 0⟩] := by
  -- Nothing serves the one slot of the bag, and nothing fails.
  decide

end GraphRules
