import GraphRules.Proofs.Basic
import GraphRules.Proofs.Extraction.Outcome
import Mathlib.Data.List.Nodup

/-! The two sorts of errors of an extraction: of failing extractors, and of the depth limit. -/

namespace GraphRules

/-- Whether an error tells that the depth limit was met. -/
def ExtractionError.isDepthLimit : ExtractionError → Bool
  | .extractor _ _ _ _ => false
  | .depthExceeded _ _ => true

namespace Branch

variable (store : Store) (answer : Kind → Nat → Option Extractor)

/-- The path of the value whose slot it is. -/
def path (branch : Branch) : Path := ⟨branch.links.map Link.segment⟩

/-- What is reported when the extractor of a branch fails, with the kind, slot and path. -/
def error (root : Value) (branch : Branch) (failure : ExtractorFailure) : ExtractionError :=
  .extractor (branch.container root).kind branch.slot branch.path failure

/-- The error that a branch leaves below a value at a path, if its extractor fails. -/
def errorFrom? (path : Path) (root : Value) (branch : Branch) : Option ExtractionError :=
  (branch.failure? store answer root).map
    (.extractor (branch.container root).kind branch.slot ⟨path.segments ++ branch.path.segments⟩)

/-- From the root, the links of a branch are all that tells where its container stands. -/
theorem errorFrom?_root (root : Value) (branch : Branch) :
    branch.errorFrom? store answer .root root =
      (branch.failure? store answer root).map (branch.error root) := by
  -- The path of the root has no steps of its own.
  simp only [errorFrom?, Path.root, List.nil_append]
  rfl

/-- Behind a link, the path goes on from where the link leads. -/
theorem errorFrom?_behind (path : Path) (first : Link) (root : Value) (branch : Branch) :
    (behind first branch).errorFrom? store answer path root =
      branch.errorFrom? store answer (path.child first.reported.name first.reported.index)
        first.reported.value := by
  -- The first link moves from the branch to the path, and what fails stays the same.
  have onwards : path.segments ++ (behind first branch).path.segments =
      (path.child first.reported.name first.reported.index).segments ++ branch.path.segments := by
    simp [Branch.path, behind, Path.child, Link.segment]
  rw [errorFrom?, errorFrom?, failure?_behind, container_behind, onwards]
  rfl

/-- An error that a branch leaves is no matter of the depth limit. -/
theorem isDepthLimit_errorFrom? {path : Path} {root : Value} {branch : Branch}
    {error : ExtractionError} (left : branch.errorFrom? store answer path root = some error) :
    error.isDepthLimit = false := by
  -- An error is left only for a failure, and is one of an extractor.
  obtain ⟨failure, _, rfl⟩ := Option.map_eq_some_iff.mp left
  rfl

/-- An error stands as deep as the container of its branch. -/
theorem depth_error (root : Value) (branch : Branch) (failure : ExtractorFailure) :
    (branch.error root failure).path.depth = branch.links.length := by
  -- The path of the error has a step for every link.
  simp [error, ExtractionError.path, path, Path.depth]

/-- The slot that a branch goes through first. -/
def firstSlot (branch : Branch) : Nat := (branch.links.head?.map Link.slot).getD branch.slot

/-- A branch is the same before a link as behind it. -/
theorem behind_injective (first : Link) : Function.Injective (behind first) := by
  -- The first link is known, and the other parts are those of the branch behind it.
  intro left right same
  obtain ⟨links, slot, inner⟩ := left
  obtain ⟨others, place, node⟩ := right
  simp only [behind, Branch.mk.injEq, List.cons.injEq, true_and] at same
  obtain ⟨rfl, rfl, rfl⟩ := same
  rfl

end Branch

namespace Scope

variable (scope : Scope) (answer : Kind → Nat → Option Extractor)

/-- The errors of one level above the limit: slot by slot a failure, and then those behind it. -/
theorem errors_collect_succ (room : Nat) (descriptor : Descriptor) (value : Value)
    (position : Position) :
    (scope.collect answer (room + 1) descriptor value position).errors =
      if value.isNull then []
      else descriptor.slots.zipIdx.flatMap fun slot =>
        if slot.1.isSkippable then []
        else ((⟨[], slot.2, slot.1⟩ : Branch).errorFrom? scope.store answer position.path
          value).toList ++
          (reports scope.store answer value slot).flatMap fun reported =>
            (scope.collect answer room slot.1 reported.value
              (position.inside value slot.2 reported)).errors := by
  rw [collect_succ, Extraction.errors_append, errors_ownLeaf, List.nil_append]
  split
  · rfl
  · rw [Extraction.errors_join, List.flatMap_map]
    refine List.flatMap_congr fun slot _ => ?_
    cases wanted : slot.1.isSkippable with
    -- A slot that is skipped adds nothing on either side.
    | true => simp [branch, wanted, Extraction.none]
    | false =>
      rw [scope.errors_branch answer _ value position wanted, if_neg Bool.false_ne_true]
      congr 1
      -- The branch stands at the value itself, where no link was followed yet.
      have here : (⟨[], slot.2, slot.1⟩ : Branch).path.segments = [] := rfl
      rw [Branch.errorFrom?, here, List.append_nil, Option.toList_map]
      rfl

/-- The failures of an extraction are those on the branches above the limit, in order. -/
theorem failures_collect (room : Nat) (descriptor : Descriptor) (value : Value)
    (position : Position) :
    ((scope.collect answer room descriptor value position).errors.filter (!·.isDepthLimit)) =
      (branches scope.store answer room descriptor value).filterMap
        (Branch.errorFrom? scope.store answer position.path value) := by
  induction room generalizing descriptor value position with
  | zero =>
    -- At the limit no extractor is called.
    rw [collect, branches, Extraction.errors_append, errors_ownLeaf, List.nil_append]
    split <;> rfl
  | succ room below =>
    rw [errors_collect_succ, branches]
    split
    · rfl
    · rw [List.filter_flatMap, List.filterMap_flatMap]
      refine List.flatMap_congr fun slot _ => ?_
      split
      · rfl
      · rw [List.filter_append, List.filter_flatMap]
        -- Behind each link, the failures are those that the induction tells of.
        have behind : ((linksThrough scope.store answer value slot).flatMap fun link =>
              (branches scope.store answer room link.inner link.reported.value).map
                (Branch.behind link)).filterMap
              (Branch.errorFrom? scope.store answer position.path value) =
            (reports scope.store answer value slot).flatMap fun reported =>
              (scope.collect answer room slot.1 reported.value
                (position.inside value slot.2 reported)).errors.filter (!·.isDepthLimit) := by
          simp only [List.filterMap_flatMap, List.filterMap_map, Function.comp_def,
            Branch.errorFrom?_behind, below]
          exact flatMap_linksThrough (fun _ inner reported =>
            (branches scope.store answer room inner reported.value).filterMap
              (Branch.errorFrom? scope.store answer
                (position.path.child reported.name reported.index) reported.value)) value slot
        rw [← behind, List.filterMap_cons]
        cases left : (⟨[], slot.2, slot.1⟩ : Branch).errorFrom? scope.store answer position.path
          value with
        | none => rfl
        | some error =>
          -- The failure of the extractor at hand is no matter of the depth limit.
          have sort := Branch.isDepthLimit_errorFrom? scope.store answer left
          simp [sort]

/-- Apart from those of the depth limit, the errors are the failures on the branches above it. -/
theorem extract_failures_eq (descriptor : Descriptor) (root : Value) (registry : Registry) :
    (scope.extract descriptor root registry).1.errors.filter (!·.isDepthLimit) =
      (branches scope.store registry.answer scope.limit descriptor root).filterMap fun branch =>
        (branch.failure? scope.store registry.answer root).map (branch.error root) := by
  -- Level by level this is known, and at the root no steps go before.
  rw [extract_eq_collect, failures_collect]
  exact List.filterMap_congr fun branch _ => branch.errorFrom?_root scope.store registry.answer root

/-! ### Calls that fail -/

/-- The branches at one slot of a container, given those behind what is reported of it. -/
def branchesThrough (store : Store) (answer : Kind → Nat → Option Extractor)
    (deeper : Descriptor → Value → List Branch) (value : Value) (slot : Descriptor × Nat) :
    List Branch :=
  if slot.1.isSkippable then []
  else ⟨[], slot.2, slot.1⟩ ::
    (linksThrough store answer value slot).flatMap fun link =>
      (deeper link.inner link.reported.value).map (Branch.behind link)

/-- The branches above a limit are listed slot by slot. -/
theorem branches_succ (store : Store) (answer : Kind → Nat → Option Extractor) (room : Nat)
    (descriptor : Descriptor) (value : Value) :
    branches store answer (room + 1) descriptor value =
      if value.isNull then []
      else descriptor.slots.zipIdx.flatMap
        (branchesThrough store answer (branches store answer room) value) := rfl

variable {store : Store} {answer : Kind → Nat → Option Extractor}
  {deeper : Descriptor → Value → List Branch} {value : Value} {slot : Descriptor × Nat}

/-- A branch at a slot is the slot itself or stands behind a link through it. -/
theorem eq_or_behind_of_mem_branchesThrough {branch : Branch}
    (listed : branch ∈ branchesThrough store answer deeper value slot) :
    branch = ⟨[], slot.2, slot.1⟩ ∨
      ∃ link ∈ linksThrough store answer value slot, ∃ rest, branch = .behind link rest := by
  -- A slot that is not skipped has its own branch first, and then those behind its links.
  rw [branchesThrough] at listed
  split at listed
  · simp at listed
  · rcases List.mem_cons.mp listed with here | later
    · exact .inl here
    · obtain ⟨link, through, mapped⟩ := List.mem_flatMap.mp later
      obtain ⟨rest, _, same⟩ := List.mem_map.mp mapped
      exact .inr ⟨link, through, rest, same.symm⟩

/-- A branch at a slot goes through that slot first. -/
theorem firstSlot_of_mem_branchesThrough {branch : Branch}
    (listed : branch ∈ branchesThrough store answer deeper value slot) :
    branch.firstSlot = slot.2 := by
  -- Either the branch stands at the slot itself, or its first link goes through it.
  rcases eq_or_behind_of_mem_branchesThrough listed with rfl | ⟨link, through, rest, rfl⟩
  · rfl
  · obtain ⟨_, same, _⟩ := mem_linksThrough.mp through
    exact same

/-- No branch at a slot is listed twice, if none is behind what is reported. -/
theorem branchesThrough_distinct (distinct : ∀ descriptor value, (deeper descriptor value).Nodup)
    (value : Value) (slot : Descriptor × Nat) :
    (branchesThrough store answer deeper value slot).Nodup := by
  rw [branchesThrough]
  split
  · exact List.nodup_nil
  · refine List.nodup_cons.mpr ⟨?_, List.nodup_flatMap.mpr ⟨fun link _ => ?_, ?_⟩⟩
    · -- The slot itself is the only branch without a link.
      intro listed
      obtain ⟨link, _, mapped⟩ := List.mem_flatMap.mp listed
      obtain ⟨rest, _, same⟩ := List.mem_map.mp mapped
      have links := congrArg Branch.links same
      simp [Branch.behind] at links
    · exact (distinct link.inner link.reported.value).map (Branch.behind_injective link)
    · -- Links through one slot start at different places of the report.
      refine List.pairwise_map.mpr ((Lists.pairwise_zipIdx _).imp fun ascending => ?_)
      intro branch one two
      obtain ⟨first, _, rfl⟩ := List.mem_map.mp one
      obtain ⟨second, _, same⟩ := List.mem_map.mp two
      have links := congrArg Branch.links same
      simp only [Branch.behind, List.cons.injEq, Link.mk.injEq] at links
      omega

/-- No branch is listed twice. -/
theorem branches_distinct (store : Store) (answer : Kind → Nat → Option Extractor) (room : Nat)
    (descriptor : Descriptor) (value : Value) :
    (branches store answer room descriptor value).Nodup := by
  induction room generalizing descriptor value with
  | zero => exact List.nodup_nil
  | succ room distinct =>
    rw [branches_succ]
    split
    · exact List.nodup_nil
    · refine List.nodup_flatMap.mpr ⟨fun slot _ => branchesThrough_distinct distinct value slot, ?_⟩
      -- From one slot to a later one, the first slot of the branches ascends.
      refine (Lists.pairwise_zipIdx _).imp fun ascending => ?_
      intro branch one two
      have here := firstSlot_of_mem_branchesThrough one
      have there := firstSlot_of_mem_branchesThrough two
      omega

/-- The errors are one for each call that fails, apart from those of the depth limit. -/
theorem exists_failing_calls (scope : Scope) (descriptor : Descriptor) (root : Value)
    (registry : Registry) :
    ∃ calls : List (Branch × ExtractorFailure), calls.Nodup ∧
      (∀ branch failure, (branch, failure) ∈ calls ↔
        branch.Stands scope.store registry.answer descriptor root ∧
          branch.links.length < scope.limit ∧
            branch.failure? scope.store registry.answer root = some failure) ∧
      (scope.extract descriptor root registry).1.errors.filter (!·.isDepthLimit) =
        calls.map fun call => call.1.error root call.2 := by
  -- The calls are read off the branches above the limit, which are distinct.
  let all := branches scope.store registry.answer scope.limit descriptor root
  let call? (branch : Branch) : Option (Branch × ExtractorFailure) :=
    (branch.failure? scope.store registry.answer root).map (branch, ·)
  have distinct : all.Nodup := branches_distinct _ _ _ _ _
  refine ⟨all.filterMap call?, ?_, ?_, ?_⟩
  · -- A call tells the branch that it is made for.
    refine distinct.filterMap fun first second call one two => ?_
    obtain ⟨_, _, rfl⟩ := Option.map_eq_some_iff.mp one
    obtain ⟨_, _, same⟩ := Option.map_eq_some_iff.mp two
    exact (congrArg Prod.fst same).symm
  · intro branch failure
    rw [List.mem_filterMap]
    constructor
    · rintro ⟨other, listed, made⟩
      obtain ⟨found, failed, same⟩ := Option.map_eq_some_iff.mp made
      obtain ⟨rfl, rfl⟩ := Prod.mk.inj same
      obtain ⟨stands, shallow⟩ := mem_branches.mp listed
      exact ⟨stands, shallow, failed⟩
    · rintro ⟨stands, shallow, failed⟩
      refine ⟨branch, mem_branches.mpr ⟨stands, shallow⟩, ?_⟩
      simp only [call?, failed, Option.map_some]
  · rw [extract_failures_eq, List.map_filterMap]
    refine List.filterMap_congr fun branch _ => ?_
    -- The error is made of the branch and the failure.
    rw [Option.map_map]
    rfl

end Scope

end GraphRules
