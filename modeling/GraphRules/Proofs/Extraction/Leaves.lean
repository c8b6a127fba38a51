import GraphRules.Proofs.Extraction.Chain
import GraphRules.Proofs.Extraction.Collect

/-! The leaves of an extraction: one for every chain to a relevant node within the limit. -/

namespace GraphRules

namespace Position

/-- The position that a chain leads to from a value at a position. -/
def along (position : Position) (value : Value) : List Link → Position
  | [] => position
  | first :: rest =>
    (position.inside value first.slot first.reported).along first.reported.value rest

/-- The position at the end of a chain, from the links as a whole. -/
theorem along_eq (position : Position) (value : Value) (links : List Link) :
    position.along value links =
      { origin := (links.getLast?.map fun last =>
          (⟨Chain.endValue value links.dropLast, last.slot⟩ : Origin)).or position.origin
        path := ⟨position.path.segments ++ links.map Link.segment⟩
        route := position.route ++ links.map (·.slot) } := by
  induction links generalizing position value with
  | nil => simp [along]
  | cons first rest later =>
    rw [along, later]
    -- A single link departs from the value at hand, any other last link from a value further on.
    cases rest with
    | nil => simp [inside, Path.child, Link.segment, Chain.endValue]
    | cons second others =>
      simp [inside, Path.child, Link.segment, List.getLast?_cons]

end Position

namespace Chain

/-- The leaf at the end of a chain from a value at a position. -/
def leafFrom (descriptor : Descriptor) (value : Value) (position : Position)
    (links : List Link) : Leaf :=
  ⟨endNode descriptor links, endValue value links, position.along value links⟩

/-- From the root, a chain is all that tells where its leaf stands. -/
theorem leafFrom_root (descriptor : Descriptor) (root : Value) (links : List Link) :
    leafFrom descriptor root .root links = leaf descriptor root links := by
  -- The root has no steps before it and was taken from nothing.
  simp [leafFrom, leaf, Position.along_eq, Position.root, Path.root]

/-- A leaf was taken from no container exactly when its path is that of the root. -/
theorem origin_leaf (descriptor : Descriptor) (root : Value) (links : List Link) :
    (leaf descriptor root links).position.origin = none ↔
      (leaf descriptor root links).path = .root := by
  -- Both say that the chain has no links.
  simp [leaf, Leaf.path, Path.root]

end Chain

namespace Scope

variable (scope : Scope) (answer : Kind → Nat → Option Extractor)

/-- The ends of chains that an extraction reports. -/
def ends (room : Nat) (descriptor : Descriptor) (value : Value) (position : Position) : List Leaf :=
  ((chains scope.store answer room descriptor value).filter fun links =>
      (Chain.endNode descriptor links).isRelevant).map (Chain.leafFrom descriptor value position)

/-- The end of the chain that stops at once. -/
theorem leaves_ownLeaf (descriptor : Descriptor) (value : Value) (position : Position) :
    (ownLeaf descriptor value position).leaves =
      ([[]].filter fun links => (Chain.endNode descriptor links).isRelevant).map
        (Chain.leafFrom descriptor value position) := by
  -- The chain without links ends at the node itself.
  unfold ownLeaf
  cases relevant : descriptor.isRelevant <;>
    simp [relevant, Chain.endNode, Chain.leafFrom, Chain.endValue, Position.along, Extraction.none,
      Extraction.ofLeaf]

/-- A node that may be skipped has no ends. -/
theorem ends_of_skippable {descriptor : Descriptor} (skipped : descriptor.isSkippable = true)
    (room : Nat) (value : Value) (position : Position) :
    scope.ends answer room descriptor value position = [] := by
  -- A chain to a relevant node would start at a node that may not be skipped.
  refine List.map_eq_nil_iff.mpr (List.filter_eq_nil_iff.mpr fun links listed relevant => ?_)
  have wanted := (mem_chains.mp listed).1.not_skippable relevant
  simp [skipped] at wanted

/-- The ends below a node are the ends behind its links. -/
theorem ends_succ (room : Nat) (descriptor : Descriptor) (value : Value) (position : Position) :
    scope.ends answer (room + 1) descriptor value position =
      (ownLeaf descriptor value position).leaves ++
        (links scope.store answer descriptor value).flatMap fun link =>
          scope.ends answer room link.inner link.reported.value
            (position.inside value link.slot link.reported) := by
  rw [leaves_ownLeaf, ends, chains, ← List.singleton_append, List.filter_append, List.map_append]
  congr 1
  -- Behind each link, the chains go on from where the link ends.
  rw [List.filter_flatMap, List.map_flatMap]
  refine List.flatMap_congr fun link _ => ?_
  simp only [ends, List.filter_map, List.map_map, Function.comp_def, Chain.endNode_cons]
  exact List.map_congr_left fun rest _ => by simp [Chain.leafFrom, Position.along]

/-- An extractor that fails loses no leaf. -/
theorem leaves_failures (container : Value) (slot : Nat) (position : Position)
    (failure : Option ExtractorFailure) :
    (failures container slot position failure).leaves = [] := by
  -- A failure is an error and nothing else.
  cases failure <;> rfl

/-- What is extracted from a slot are the ends behind the links through it. -/
theorem leaves_branch {inside : Descriptor → Value → Position → Extraction} {room : Nat}
    (ended : ∀ descriptor value position,
      (inside descriptor value position).leaves = scope.ends answer room descriptor value position)
    (container : Value) (position : Position) (slot : Descriptor × Nat) :
    (scope.branch answer inside container position slot).leaves =
      (linksThrough scope.store answer container slot).flatMap fun link =>
        scope.ends answer room link.inner link.reported.value
          (position.inside container link.slot link.reported) := by
  rw [flatMap_linksThrough fun slot inner reported => scope.ends answer room inner reported.value
    (position.inside container slot reported), branch]
  split
  · next skipped =>
    -- A slot that is skipped has no ends behind its links.
    refine (List.flatMap_eq_nil_iff.mpr fun reported listed => ?_).symm
    exact ends_of_skippable scope answer skipped room _ _
  · rw [reports]
    cases slot.1.extractor.or (answer container.kind slot.2) with
    | some extractor => simp [leaves_failures, Extraction.leaves_join, List.flatMap_map, ended]
    | none => simp [Extraction.ofUnresolved]

/-- The leaves of an extraction with fixed answers are the ends of chains. -/
theorem leaves_collect (room : Nat) (descriptor : Descriptor) (value : Value)
    (position : Position) :
    (scope.collect answer room descriptor value position).leaves =
      scope.ends answer room descriptor value position := by
  induction room generalizing descriptor value position with
  | zero =>
    -- Only the value itself can be a leaf, whether it had to be opened or not.
    rw [collect, Extraction.leaves_append, ends, chains, ← leaves_ownLeaf]
    split <;> simp [Extraction.none, Extraction.ofError]
  | succ room ended =>
    rw [collect_succ, Extraction.leaves_append, ends_succ, links]
    congr 1
    split
    · -- No link departs from null.
      rfl
    · -- Slot by slot, the branches are the ends behind the links.
      rw [Extraction.leaves_join, List.flatMap_map, List.flatMap_assoc]
      exact List.flatMap_congr fun slot _ => scope.leaves_branch answer ended value position slot

/-- The leaves of an extraction, from the list of all chains. -/
theorem extract_leaves_eq (descriptor : Descriptor) (root : Value) (registry : Registry) :
    (scope.extract descriptor root registry).1.leaves =
      ((chains scope.store registry.answer scope.limit descriptor root).filter fun links =>
        (Chain.endNode descriptor links).isRelevant).map (Chain.leaf descriptor root) := by
  -- The limit is how many levels may be opened from the root.
  rw [extract_eq_collect, leaves_collect, ends]
  exact List.map_congr_left fun links _ => Chain.leafFrom_root descriptor root links

/-- Within the depth limit, a value is reported exactly if its node is relevant. -/
theorem leaf_mem_extract {descriptor : Descriptor} {root : Value} {registry : Registry}
    {links : List Link} (chain : Chain scope.store registry.answer descriptor root links)
    (near : links.length ≤ scope.limit) :
    Chain.leaf descriptor root links ∈ (scope.extract descriptor root registry).1.leaves ↔
      (Chain.leaf descriptor root links).descriptor.isRelevant = true := by
  rw [extract_leaves_eq, List.mem_map]
  constructor
  · rintro ⟨other, listed, same⟩
    -- Another chain may end in the same leaf, but then at the same node.
    rw [← same]
    exact (List.mem_filter.mp listed).2
  · intro relevant
    exact ⟨links, List.mem_filter.mpr ⟨mem_chains.mpr ⟨chain, near⟩, relevant⟩, rfl⟩

/-- A leaf was taken from no container exactly when it stands at the root. -/
theorem origin_of_mem_extract {scope : Scope} {descriptor : Descriptor} {root : Value}
    {registry : Registry} {leaf : Leaf}
    (reported : leaf ∈ (scope.extract descriptor root registry).1.leaves) :
    leaf.position.origin = none ↔ leaf.path = .root := by
  -- The leaf is that of a chain, which has no links exactly at the root.
  rw [extract_leaves_eq] at reported
  obtain ⟨links, _, rfl⟩ := List.mem_map.mp reported
  exact Chain.origin_leaf descriptor root links

/-- Extraction reports one leaf for each chain to a relevant node, and no other. -/
theorem extract_one_leaf_each (descriptor : Descriptor) (root : Value) (registry : Registry) :
    let leaves := (scope.extract descriptor root registry).1.leaves
    ∃ found : List (List Link),
      (∀ links, links ∈ found ↔
        Chain scope.store registry.answer descriptor root links ∧ links.length ≤ scope.limit ∧
          (Chain.endNode descriptor links).isRelevant = true) ∧
      -- Depth first, so that no chain is listed twice.
      found.Pairwise Chain.Precedes ∧
      leaves = found.map (Chain.leaf descriptor root) ∧
      -- The container and its slot are missing exactly at the root.
      ∀ leaf ∈ leaves, leaf.position.origin = none ↔ leaf.path = .root := by
  -- Among all chains within the limit, those to relevant nodes are kept, in the same order.
  refine ⟨(chains scope.store registry.answer scope.limit descriptor root).filter fun links =>
    (Chain.endNode descriptor links).isRelevant, fun links => ?_, ?_, ?_, ?_⟩
  · rw [List.mem_filter, mem_chains, and_assoc]
  · exact (pairwise_chains scope.store registry.answer scope.limit descriptor root).filter _
  · exact scope.extract_leaves_eq descriptor root registry
  · exact fun leaf reported => origin_of_mem_extract reported

end Scope

end GraphRules
