import GraphRules.Descriptor

/-! What the marks of a descriptor say about its slots and about all nodes below. -/

namespace GraphRules

namespace Descriptor

/-- A node may not be skipped exactly when it is relevant or has to be opened. -/
theorem not_skippable_iff {descriptor : Descriptor} :
    descriptor.isSkippable = false ↔
      descriptor.isRelevant = true ∨ descriptor.requiresDescent = true := by
  -- Both sides say that not both marks are missing.
  rw [isSkippable]
  cases descriptor.isRelevant <;> simp

/-- Some tree of a list is wanted exactly when one of them may not be skipped. -/
theorem anyWanted_iff {descriptors : List Descriptor} :
    anyWanted descriptors = true ↔ ∃ descriptor ∈ descriptors, descriptor.isSkippable = false := by
  induction descriptors with
  | nil => simp [anyWanted]
  | cons first rest found =>
    -- The first tree is wanted for its root or for what is below.
    rw [anyWanted, Bool.or_eq_true, Bool.or_eq_true, found, ← not_skippable_iff]
    simp only [List.mem_cons, exists_eq_or_imp]

/-- A node has to be opened exactly when one of its slots may not be skipped. -/
theorem requiresDescent_iff {descriptor : Descriptor} :
    descriptor.requiresDescent = true ↔ ∃ inner ∈ descriptor.slots, inner.isSkippable = false := by
  -- A node asks no more of its slots than that one of them is wanted.
  obtain ⟨id, form, slots, introspection, rules, extractor⟩ := descriptor
  rw [requiresDescent]
  exact anyWanted_iff

/-- A node with a slot that may not be skipped has to be opened. -/
theorem requiresDescent_of_slot {descriptor inner : Descriptor} {slot : Nat}
    (slotted : descriptor.slots[slot]? = some inner) (wanted : inner.isSkippable = false) :
    descriptor.requiresDescent = true :=
  requiresDescent_iff.mpr ⟨inner, List.mem_of_getElem? slotted, wanted⟩

/-! ### All nodes below -/

/-- The nodes below a node, at any depth. -/
def descendants (descriptor : Descriptor) : List Descriptor := preorderAll descriptor.slots

/-- A tree is its node and the nodes below. -/
theorem preorder_eq (descriptor : Descriptor) :
    descriptor.preorder = descriptor :: descriptor.descendants := by
  -- Both lists are read off the fields of the node.
  obtain ⟨id, form, slots, introspection, rules, extractor⟩ := descriptor
  rw [preorder, descendants]

/-- The nodes of several trees are those of each of them. -/
theorem preorderAll_eq (descriptors : List Descriptor) :
    preorderAll descriptors = descriptors.flatMap preorder := by
  -- The listing of several trees is that of each, one after the other.
  induction descriptors with
  | nil => rfl
  | cons first rest listed => rw [preorderAll, listed, List.flatMap_cons]

/-- A node of several trees is a node of one of them. -/
theorem mem_preorderAll {descriptors : List Descriptor} {node : Descriptor} :
    node ∈ preorderAll descriptors ↔ ∃ descriptor ∈ descriptors, node ∈ descriptor.preorder := by
  rw [preorderAll_eq, List.mem_flatMap]

mutual

/-- The nodes below a node of a tree are nodes of the tree. -/
theorem preorder_subset : ∀ {tree node : Descriptor},
    node ∈ tree.preorder → node.preorder ⊆ tree.preorder
  | ⟨id, form, slots, introspection, rules, extractor⟩, node, listed => by
    rw [preorder, List.mem_cons] at listed
    -- A node other than the root is in one of the slots.
    rcases listed with rfl | deeper
    · exact List.Subset.refl _
    · rw [preorder]
      exact List.subset_cons_of_subset _ (preorder_subset_all deeper)

/-- The nodes below a node of several trees are nodes of the trees. -/
theorem preorder_subset_all : ∀ {trees : List Descriptor} {node : Descriptor},
    node ∈ preorderAll trees → node.preorder ⊆ preorderAll trees
  -- The induction is on the trees: the node is in the first of them or in a later one.
  | [], _, listed => absurd listed List.not_mem_nil
  | first :: rest, node, listed => by
    rw [preorderAll, List.mem_append] at listed
    rw [preorderAll]
    rcases listed with here | later
    · exact List.subset_append_of_subset_left _ (preorder_subset here)
    · exact List.subset_append_of_subset_right _ (preorder_subset_all later)

end

mutual

/-- A node has to be opened exactly when some node below is relevant, however deep. -/
theorem requiresDescent_iff_descendants : ∀ descriptor : Descriptor,
    descriptor.requiresDescent = true ↔ ∃ inner ∈ descriptor.descendants, inner.isRelevant = true
  -- For the slots this is known, and a node answers what its slots answer.
  | ⟨_, _, slots, _, _, _⟩ => by
    rw [requiresDescent, descendants]
    exact anyWanted_iff_relevant slots

/-- Some tree of a list is wanted exactly when some node of the trees is relevant. -/
theorem anyWanted_iff_relevant : ∀ descriptors : List Descriptor,
    anyWanted descriptors = true ↔ ∃ node ∈ preorderAll descriptors, node.isRelevant = true
  | [] => by simp [anyWanted, preorderAll]
  | first :: rest => by
    rw [anyWanted, Bool.or_eq_true, Bool.or_eq_true, requiresDescent_iff_descendants first,
      anyWanted_iff_relevant rest, preorderAll, preorder_eq]
    -- A relevant node is the first root, below it, or in one of the other trees.
    simp only [List.cons_append, List.mem_cons, List.mem_append, or_and_right, exists_or, or_assoc,
      exists_eq_left]

end

/-- A node may be skipped exactly when no node of its tree is relevant. -/
theorem isSkippable_iff (descriptor : Descriptor) :
    descriptor.isSkippable = true ↔ ∀ node ∈ descriptor.preorder, node.isRelevant = false := by
  -- The node itself is the first of its listing, and the marks of the others decide its descent.
  rw [← Bool.not_eq_false, not_skippable_iff, requiresDescent_iff_descendants, preorder_eq,
    List.forall_mem_cons]
  simp only [not_or, not_exists, not_and, Bool.not_eq_true]

/-! ### Height -/

mutual

/-- How many levels a node has to be opened, which is none if no node below is relevant. -/
def height : Descriptor → Nat
  | ⟨_, _, slots, _, _, _⟩ => if anyWanted slots then tallest slots + 1 else 0

/-- The largest height of the trees of a list that may not be skipped. -/
def tallest : List Descriptor → Nat
  | [] => 0
  | descriptor :: rest =>
    max (if descriptor.isSkippable then 0 else descriptor.height) (tallest rest)

end

/-- The height of a node, from the marks of its tree and from its slots. -/
theorem height_eq (descriptor : Descriptor) :
    descriptor.height =
      if descriptor.requiresDescent then tallest descriptor.slots + 1 else 0 := by
  obtain ⟨id, form, slots, introspection, rules, extractor⟩ := descriptor
  -- Both look at the same slots.
  rw [height, requiresDescent]

/-- No tree of a list that may not be skipped is taller than the tallest. -/
theorem height_le_tallest {descriptors : List Descriptor} {descriptor : Descriptor}
    (listed : descriptor ∈ descriptors) (wanted : descriptor.isSkippable = false) :
    descriptor.height ≤ tallest descriptors := by
  induction descriptors with
  | nil => simp at listed
  | cons first rest below =>
    rw [tallest]
    -- The first tree counts with its full height, since it may not be skipped.
    rcases List.mem_cons.mp listed with rfl | later
    · rw [wanted, if_neg Bool.false_ne_true]
      exact Nat.le_max_left _ _
    · exact Nat.le_trans (below later) (Nat.le_max_right _ _)

/-- A node is taller than each of its slots that may not be skipped. -/
theorem height_slot_lt {descriptor inner : Descriptor} {slot : Nat}
    (slotted : descriptor.slots[slot]? = some inner) (wanted : inner.isSkippable = false) :
    inner.height < descriptor.height := by
  -- The node is opened for this slot, and is one level taller than the tallest of its slots.
  have counted := height_le_tallest (List.mem_of_getElem? slotted) wanted
  rw [descriptor.height_eq, if_pos (requiresDescent_of_slot slotted wanted)]
  exact Nat.lt_succ_of_le counted

/-- A node that has to be opened has a height. -/
theorem height_pos {descriptor : Descriptor} (opened : descriptor.requiresDescent = true) :
    0 < descriptor.height := by
  -- A node that is opened is one level taller than its slots.
  rw [descriptor.height_eq, if_pos opened]
  exact Nat.succ_pos _

end Descriptor

end GraphRules
