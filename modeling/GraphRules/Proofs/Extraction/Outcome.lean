import GraphRules.Proofs.Extraction.Branch
import GraphRules.Proofs.Extraction.Collect

/-! The errors and the unserved slots of an extraction, from its branches. -/

namespace GraphRules

namespace Scope

variable (scope : Scope) (answer : Kind → Nat → Option Extractor)

/-- A relevant node adds a leaf and nothing else. -/
@[simp] theorem errors_ownLeaf (descriptor : Descriptor) (value : Value) (position : Position) :
    (ownLeaf descriptor value position).errors = [] := by
  -- A node adds a leaf or nothing.
  unfold ownLeaf
  split <;> rfl

@[simp] theorem unresolved_ownLeaf (descriptor : Descriptor) (value : Value) (position : Position) :
    (ownLeaf descriptor value position).unresolved = [] := by
  -- A node adds a leaf or nothing.
  unfold ownLeaf
  split <;> rfl

/-- An extractor that fails leaves its failure as an error. -/
theorem errors_failures (container : Value) (slot : Nat) (position : Position)
    (failure : Option ExtractorFailure) :
    (failures container slot position failure).errors =
      failure.toList.map (.extractor container.kind slot position.path) := by
  -- There is a failure, which leaves one error, or there is none.
  cases failure <;> rfl

/-- The slot of an extractor that fails is not unserved. -/
theorem unresolved_failures (container : Value) (slot : Nat) (position : Position)
    (failure : Option ExtractorFailure) :
    (failures container slot position failure).unresolved = [] := by
  -- A failure is an error, and leaves no slot unserved.
  cases failure <;> rfl

/-- What is extracted from a slot that may not be skipped, in order. -/
theorem branch_eq (inside : Descriptor → Value → Position → Extraction) (container : Value)
    (position : Position) {slot : Descriptor × Nat} (wanted : slot.1.isSkippable = false) :
    let here : Branch := ⟨[], slot.2, slot.1⟩
    scope.branch answer inside container position slot =
      (if (here.server? answer container).isNone then .ofUnresolved ⟨container.kind, slot.2⟩
        else .none) ++
      (failures container slot.2 position (here.failure? scope.store answer container) ++
        .join ((reports scope.store answer container slot).map fun reported =>
          inside slot.1 reported.value (position.inside container slot.2 reported))) := by
  intro here
  have root : here.container container = container := rfl
  rw [branch, reports, Branch.failure?, Branch.server?, root, if_neg (by simp [wanted])]
  -- Without an extractor, nothing fails and nothing is reported.
  cases slot.1.extractor.or (answer container.kind slot.2) <;> rfl

/-- The errors at a slot that may not be skipped: a failure, and then those behind it. -/
theorem errors_branch (inside : Descriptor → Value → Position → Extraction) (container : Value)
    (position : Position) {slot : Descriptor × Nat} (wanted : slot.1.isSkippable = false) :
    (scope.branch answer inside container position slot).errors =
      ((⟨[], slot.2, slot.1⟩ : Branch).failure? scope.store answer container).toList.map
          (.extractor container.kind slot.2 position.path) ++
        (reports scope.store answer container slot).flatMap fun reported =>
          (inside slot.1 reported.value (position.inside container slot.2 reported)).errors := by
  rw [scope.branch_eq answer inside container position wanted, Extraction.errors_append,
    Extraction.errors_append, errors_failures, Extraction.errors_join, List.flatMap_map]
  -- That nothing serves the slot is no error.
  split <;> rfl

/-- The unserved slots at a slot that may not be skipped: the slot itself, and those behind it. -/
theorem unresolved_branch (inside : Descriptor → Value → Position → Extraction) (container : Value)
    (position : Position) {slot : Descriptor × Nat} (wanted : slot.1.isSkippable = false) :
    (scope.branch answer inside container position slot).unresolved =
      (if ((⟨[], slot.2, slot.1⟩ : Branch).server? answer container).isNone
        then [⟨container.kind, slot.2⟩] else []) ++
        (reports scope.store answer container slot).flatMap fun reported =>
          (inside slot.1 reported.value
            (position.inside container slot.2 reported)).unresolved := by
  rw [scope.branch_eq answer inside container position wanted, Extraction.unresolved_append,
    Extraction.unresolved_append, unresolved_failures, List.nil_append,
    Extraction.unresolved_join, List.flatMap_map]
  -- A failure leaves no slot unserved.
  split <;> rfl

/-- The unserved slots are those of the branches above the limit that nothing serves, in order. -/
theorem unresolved_collect (room : Nat) (descriptor : Descriptor) (value : Value)
    (position : Position) :
    (scope.collect answer room descriptor value position).unresolved =
      ((branches scope.store answer room descriptor value).filter fun branch =>
        (branch.server? answer value).isNone).map (Branch.key value) := by
  induction room generalizing descriptor value position with
  | zero =>
    -- At the limit nothing is looked up.
    rw [collect, branches, Extraction.unresolved_append, unresolved_ownLeaf]
    split <;> rfl
  | succ room below =>
    rw [collect_succ, Extraction.unresolved_append, unresolved_ownLeaf, List.nil_append, branches]
    split
    · rfl
    · rw [Extraction.unresolved_join, List.flatMap_map, List.filter_flatMap, List.map_flatMap]
      refine List.flatMap_congr fun slot _ => ?_
      split
      · next skipped => simp [branch, skipped, Extraction.none]
      · next wanted =>
        rw [scope.unresolved_branch answer _ value position (by simpa using wanted)]
        -- Behind each link, the branches are those that the induction tells of.
        have behind : (((linksThrough scope.store answer value slot).flatMap fun link =>
              (branches scope.store answer room link.inner link.reported.value).map
                (Branch.behind link)).filter fun branch =>
              (branch.server? answer value).isNone).map (Branch.key value) =
            (reports scope.store answer value slot).flatMap fun reported =>
              (scope.collect answer room slot.1 reported.value
                (position.inside value slot.2 reported)).unresolved := by
          simp only [List.filter_flatMap, List.map_flatMap, List.filter_map, List.map_map,
            Function.comp_def, Branch.server?_behind, Branch.key_behind, below]
          exact flatMap_linksThrough (fun _ inner reported =>
            ((branches scope.store answer room inner reported.value).filter fun branch =>
              (branch.server? answer reported.value).isNone).map
                (Branch.key reported.value)) value slot
        -- The branch at the slot itself is listed first.
        rw [← behind, List.filter_cons]
        split <;> rfl

/-- One level is free of errors when no extractor fails and all behind it is free of them. -/
theorem errors_collect_succ_eq_nil (room : Nat) (descriptor : Descriptor) (value : Value)
    (position : Position) :
    (scope.collect answer (room + 1) descriptor value position).errors = [] ↔
      (value.isNull = false → ∀ inner slot, descriptor.slots[slot]? = some inner →
        inner.isSkippable = false →
          (⟨[], slot, inner⟩ : Branch).failure? scope.store answer value = none ∧
            ∀ reported ∈ reports scope.store answer value (inner, slot),
              (scope.collect answer room inner reported.value
                (position.inside value slot reported)).errors = []) := by
  -- Null is not opened, and otherwise the slots are gone through one by one.
  rw [collect_succ, Extraction.errors_append, errors_ownLeaf, List.nil_append]
  cases value.isNull with
  | true => simp [Extraction.none]
  | false =>
    rw [if_neg Bool.false_ne_true, Extraction.errors_join, List.flatMap_map,
      List.flatMap_eq_nil_iff, Prod.forall, forall_prop_of_true rfl]
    refine forall₂_congr fun inner slot => ?_
    rw [List.mem_zipIdx_iff_getElem?]
    refine imp_congr_right fun _ => ?_
    cases wanted : inner.isSkippable with
    -- A slot that may be skipped adds nothing and is not spoken of.
    | true => simp [branch, wanted, Extraction.none]
    | false =>
      rw [scope.errors_branch answer _ value position wanted]
      simp [List.flatMap_eq_nil_iff]

/-- Nothing goes wrong when every branch stands above the limit and none fails. -/
theorem errors_collect_eq_nil (room : Nat) (descriptor : Descriptor) (value : Value)
    (position : Position) :
    (scope.collect answer room descriptor value position).errors = [] ↔
      ∀ branch : Branch, branch.Stands scope.store answer descriptor value →
        branch.links.length < room ∧ branch.failure? scope.store answer value = none := by
  induction room generalizing descriptor value position with
  | zero =>
    rw [collect, Extraction.errors_append, errors_ownLeaf, List.nil_append]
    -- At the limit, a value that has to be opened is an error, and has a branch.
    split
    · next closed =>
      refine iff_of_true rfl fun branch stands => ?_
      -- A branch would need a value to open, and there is none.
      simp [stands.present_root, stands.requiresDescent] at closed
    · next opened =>
      obtain ⟨present, wanted⟩ : value.isNull = false ∧ descriptor.requiresDescent = true := by
        simpa using opened
      obtain ⟨branch, stands⟩ := Branch.exists_stands present wanted
      exact iff_of_false (List.cons_ne_nil _ _) fun all => absurd (all branch stands).1 (by omega)
  | succ room below =>
    rw [errors_collect_succ_eq_nil]
    constructor
    -- A branch stands at a slot here, or behind what is reported of one.
    · intro slotwise branch stands
      have clean := slotwise stands.present_root
      cases branch using Branch.here_or_behind with
      | here slot inner =>
        exact ⟨Nat.succ_pos room, (clean inner slot stands.slotted stands.wanted).1⟩
      | behind first rest =>
        obtain ⟨departs, onwards⟩ := Branch.stands_behind.mp stands
        have reported : first.reported ∈
            reports scope.store answer value (first.inner, first.slot) :=
          mem_reports.mpr ⟨first, mem_linksThrough.mpr ⟨rfl, rfl, departs.reports⟩, rfl⟩
        obtain ⟨shallow, unfailing⟩ := (below _ _ _).mp
          ((clean first.inner first.slot departs.slotted onwards.not_skippable).2 _ reported) rest
            onwards
        exact ⟨Nat.succ_lt_succ shallow, by rwa [Branch.failure?_behind]⟩
    · intro all present inner slot slotted wanted
      refine ⟨(all _ (Branch.stands_here.mpr ⟨present, slotted, wanted⟩)).2,
        fun reported among => ?_⟩
      -- What stands below a reported value stands behind the link that leads to it.
      obtain ⟨link, through, rfl⟩ := mem_reports.mp among
      obtain ⟨rfl, rfl, reports⟩ := mem_linksThrough.mp through
      refine (below _ _ _).mpr fun branch stands => ?_
      obtain ⟨shallow, unfailing⟩ := all (.behind link branch)
        (Branch.stands_behind.mpr ⟨⟨present, slotted, reports⟩, stands⟩)
      rw [Branch.failure?_behind] at unfailing
      exact ⟨Nat.lt_of_succ_lt_succ shallow, unfailing⟩

/-- An extraction has no errors if every branch stands above the limit and none fails. -/
theorem extract_errors_eq_nil {scope : Scope} {descriptor : Descriptor} {root : Value}
    {registry : Registry} :
    (scope.extract descriptor root registry).1.errors = [] ↔
      ∀ branch : Branch, branch.Stands scope.store registry.answer descriptor root →
        branch.links.length < scope.limit ∧
          branch.failure? scope.store registry.answer root = none := by
  -- An extraction is a collection from the root, for which this is known.
  rw [extract_eq_collect, errors_collect_eq_nil]

/-- The unserved slots are the keys of the branches above the limit that nothing serves. -/
theorem mem_extract_unresolved {scope : Scope} {descriptor : Descriptor} {root : Value}
    {registry : Registry} {key : ExtractorKey} :
    key ∈ (scope.extract descriptor root registry).1.unresolved ↔
      ∃ branch : Branch, branch.Stands scope.store registry.answer descriptor root ∧
        branch.links.length < scope.limit ∧
          branch.server? registry.answer root = none ∧ branch.key root = key := by
  -- The branches are listed, and those without a server are told by their keys.
  rw [extract_eq_collect, unresolved_collect]
  simp only [List.mem_map, List.mem_filter, mem_branches, Option.isNone_iff_eq_none, and_assoc]

end Scope

end GraphRules
