import GraphRules.Proofs.Extraction.Depth

/-! The height of a descriptor bounds every extraction by it, on every value. -/

namespace GraphRules

/-- A chain and the height of its end fit into the height of its start, if the end matters. -/
theorem Chain.length_add_height_le {store : Store} {answer : Kind → Nat → Option Extractor}
    {descriptor : Descriptor} {value : Value} {links : List Link}
    (chain : Chain store answer descriptor value links)
    (wanted : (endNode descriptor links).isSkippable = false) :
    links.length + (endNode descriptor links).height ≤ descriptor.height := by
  induction chain with
  | stop descriptor value => exact Nat.le_of_eq (Nat.zero_add _)
  | link departs onwards deeper =>
    rw [endNode_cons] at wanted ⊢
    -- The slot of the first link may not be skipped, so it is less tall than the node.
    have lower := Descriptor.height_slot_lt departs.slotted (onwards.not_skippable_of_end wanted)
    have fits := deeper wanted
    rw [List.length_cons]
    omega

namespace Scope

variable {store : Store} {answer : Kind → Nat → Option Extractor}

/-- Where a limit is met, the descriptor is taller than what may be opened. -/
theorem room_lt_height {scope : Scope} {room bound : Nat} {descriptor : Descriptor} {value : Value}
    {position : Position} {path : Path}
    (met : .depthExceeded bound path ∈
      (scope.collect answer room descriptor value position).errors) :
    room < descriptor.height := by
  obtain ⟨_, links, chain, rfl, opened, _⟩ := exists_chain_of_mem_errors met
  -- The node that may not be opened any more has a height left.
  have fits := chain.length_add_height_le (Descriptor.not_skippable_iff.mpr (.inr opened))
  have left := Descriptor.height_pos opened
  omega

/-- An extraction with room for the height of the descriptor meets no limit. -/
theorem no_limit_of_height_le {scope : Scope} {room : Nat} {descriptor : Descriptor} {value : Value}
    {position : Position} (covers : descriptor.height ≤ room) :
    ∀ error ∈ (scope.collect answer room descriptor value position).errors,
      error.isDepthLimit = false := by
  -- An error of the limit would need more height than there is room.
  intro error listed
  cases error with
  | extractor => rfl
  | depthExceeded bound path => exact absurd (room_lt_height listed) (Nat.not_lt.mpr covers)

/-- No limit above the height of the descriptor makes a difference. -/
theorem extract_of_height_le {descriptor : Descriptor} {limit : Nat}
    (covers : descriptor.height ≤ limit) (root : Value) (registry : Registry) :
    (extract ⟨store, limit⟩ descriptor root registry).1 =
      (extract ⟨store, descriptor.height⟩ descriptor root registry).1 := by
  -- At the height nothing was cut off, so more room makes no difference.
  rw [extract_eq_collect, extract_eq_collect]
  have free :
      ∀ error ∈ (collect ⟨store, descriptor.height⟩ registry.answer descriptor.height descriptor
      root .root).errors, error.isDepthLimit = false := no_limit_of_height_le (Nat.le_refl _)
  have same := collect_of_no_limit limit (limit - descriptor.height) free
  rwa [Nat.add_sub_cancel' covers] at same

/-- The height of a descriptor bounds every extraction by it, on every value and at every limit. -/
theorem extract_within_height (store : Store) (descriptor : Descriptor) (root : Value)
    (registry : Registry) :
    let found (limit : Nat) := (extract ⟨store, limit⟩ descriptor root registry).1
    (∀ limit, ∀ leaf ∈ (found limit).leaves, leaf.path.depth ≤ descriptor.height) ∧
    (∀ limit, descriptor.height ≤ limit →
      ∀ bound path, .depthExceeded bound path ∉ (found limit).errors) ∧
    -- All limits that are no lower than the height give the same.
    (∀ limit other, descriptor.height ≤ limit → descriptor.height ≤ other →
      found limit = found other) ∧
    ∀ limit bound path, .depthExceeded bound path ∈ (found limit).errors →
      bound = limit ∧ limit < descriptor.height := by
  -- Every level that is opened goes down one level of the descriptor, whatever the value is.
  intro found
  have limited : ∀ limit bound path, .depthExceeded bound path ∈ (found limit).errors →
      bound = limit ∧ limit < descriptor.height := by
    intro limit bound path met
    simp only [found, extract_eq_collect] at met
    exact ⟨(depth_of_mem_errors met).1, room_lt_height met⟩
  refine ⟨fun limit leaf reported => ?_, fun limit covers bound path met => ?_,
    fun limit other covers coversToo => ?_, limited⟩
  · simp only [found, extract_leaves_eq, List.mem_map, List.mem_filter] at reported
    obtain ⟨links, ⟨listed, relevant⟩, rfl⟩ := reported
    obtain ⟨chain, _⟩ := mem_chains.mp listed
    -- A relevant node may not be skipped, so the chain to it fits into the height.
    have fits := chain.length_add_height_le (Descriptor.not_skippable_iff.mpr (.inl relevant))
    rw [Chain.depth_leaf]
    omega
  · exact absurd (limited limit bound path met).2 (Nat.not_lt.mpr covers)
  · exact (extract_of_height_le covers root registry).trans
      (extract_of_height_le coversToo root registry).symm

end Scope

/-- A knot has no end, but its descriptor has three levels, and is never opened a fourth time. -/
theorem extract_within_height_knot :
    let found (limit : Nat) :=
      (Scope.extract ⟨Knot.store, limit⟩ Knot.descriptor
        (.node (.collection Knot.knot)) .withDefaults).1
    Knot.descriptor.height = 3 ∧ (∀ limit, 3 ≤ limit → found limit = found 3) ∧
      (found 3).errors = [] ∧ (found 3).leaves.length = 6 ∧
      (found 2).errors.map ExtractionError.isDepthLimit = [true, true] := by
  intro found
  -- The height is computed, and every limit from there on agrees with it.
  have height : Knot.descriptor.height = 3 := by decide
  obtain ⟨_, _, agree, _⟩ := Scope.extract_within_height Knot.store Knot.descriptor
    (.node (.collection Knot.knot)) .withDefaults
  refine ⟨height, fun limit covers => ?_, by decide, by decide, by decide⟩
  exact agree limit 3 (height ▸ covers) (Nat.le_of_eq height)

end GraphRules
