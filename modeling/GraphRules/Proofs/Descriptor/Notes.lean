import GraphRules.Proofs.Descriptor.Descent
import GraphRules.RuleBook
import Mathlib.Logic.Basic

/-! Notes on nodes: whether one below is relevant is noted when a node is made, and stays right. -/

namespace GraphRules

namespace Descriptor

/-- A change to a node that was made before. -/
inductive Builder
  | cascaded
  | withDeclaredRules
  | withExtractor (extractor : Extractor)

/-- The node after a change. -/
def build (descriptor : Descriptor) : Builder → Descriptor
  | .cascaded => descriptor.cascaded
  | .withDeclaredRules => descriptor.withDeclaredRules
  | .withExtractor extractor => descriptor.withExtractor extractor

/-- A node keeps its identity when it is changed. -/
@[simp] theorem id_build (descriptor : Descriptor) (builder : Builder) :
    (descriptor.build builder).id = descriptor.id := by
  -- No change touches the identity.
  cases builder <;> rfl

/-- No change to a node reaches its slots. -/
@[simp] theorem slots_build (descriptor : Descriptor) (builder : Builder) :
    (descriptor.build builder).slots = descriptor.slots := by
  -- No change touches the slots.
  cases builder <;> rfl

/-- No change takes a mark off a node. -/
theorem isRelevant_build {descriptor : Descriptor} (relevant : descriptor.isRelevant = true)
    (builder : Builder) : (descriptor.build builder).isRelevant = true := by
  -- Two of the changes make a node relevant, and the third leaves both marks alone.
  cases builder with
  | cascaded => rfl
  | withDeclaredRules => exact Bool.or_true _
  | withExtractor extractor => exact relevant

/-- A changed node has the same nodes below. -/
theorem descendants_build (descriptor : Descriptor) (builder : Builder) :
    (descriptor.build builder).descendants = descriptor.descendants := by
  -- The nodes below are those of the slots, which stay.
  rw [descendants, descendants, slots_build]

/-- A changed node has to be opened as before. -/
theorem requiresDescent_build (descriptor : Descriptor) (builder : Builder) :
    (descriptor.build builder).requiresDescent = descriptor.requiresDescent := by
  -- Only the slots are asked, and they stay.
  rw [Bool.eq_iff_iff, requiresDescent_iff, requiresDescent_iff, slots_build]

/-- A node with a note whether it has to be opened. -/
structure Noted where
  id : DescriptorId
  form : Form
  slots : List Noted
  needsIntrospection : Bool
  hasDeclaredRules : Bool
  extractor : Option Extractor
  /-- The note. -/
  descends : Bool

namespace Noted

/-- Whether values reached at a node are reported. -/
def isRelevant (node : Noted) : Bool := node.needsIntrospection || node.hasDeclaredRules

/-- Whether a node may be skipped, by its note. -/
def isSkippable (node : Noted) : Bool := !node.isRelevant && !node.descends

/-- A node without marks, as all constructors make it, each of its own form. -/
def make (id : DescriptorId) (form : Form) (slots : List Noted) : Noted where
  id := id
  form := form
  slots := slots
  needsIntrospection := false
  hasDeclaredRules := false
  extractor := none
  -- The note is made here and nowhere else, and looks at the slots only.
  descends := slots.any fun slot => slot.isRelevant || slot.descends

/-- The node after a change, with the note that it had. -/
def build (node : Noted) : Builder → Noted
  | .cascaded => { node with needsIntrospection := true }
  | .withDeclaredRules => { node with hasDeclaredRules := true }
  | .withExtractor extractor => { node with extractor := some extractor }

/-- The nodes that can be built, each of slots that were built and changed before. -/
inductive Built : Noted → Prop
  | make (id : DescriptorId) (form : Form) {slots : List Noted}
      (built : ∀ slot ∈ slots, Built slot) :
    Built (make id form slots)
  -- A copy is the same node again, and has the same identity and note.
  | build {node : Noted} (built : Built node) (builder : Builder) : Built (node.build builder)

mutual

/-- The node without its note, nor those below. -/
def erase : Noted → Descriptor
  | ⟨id, form, slots, introspection, rules, extractor, _⟩ =>
    ⟨id, form, eraseAll slots, introspection, rules, extractor⟩

/-- Several nodes without their notes. -/
def eraseAll : List Noted → List Descriptor
  | [] => []
  | node :: rest => node.erase :: eraseAll rest

end

/-- Going through the nodes one by one is the usual map over a list. -/
theorem eraseAll_eq (nodes : List Noted) : eraseAll nodes = nodes.map erase := by
  -- The induction is on the nodes, as in the erasure of several.
  induction nodes with
  | nil => rfl
  | cons node rest erased => rw [eraseAll, erased, List.map_cons]

/-- A node is made in the same way with and without a note. -/
theorem erase_make (id : DescriptorId) (form : Form) (slots : List Noted) :
    (make id form slots).erase = .plain id form (slots.map erase) := by
  -- A new node has no marks, and only its slots are left to erase.
  rw [make, erase, eraseAll_eq, plain]

/-- A node is changed in the same way with and without a note. -/
theorem erase_build (node : Noted) (builder : Builder) :
    (node.build builder).erase = node.erase.build builder := by
  obtain ⟨id, form, slots, introspection, rules, extractor, descends⟩ := node
  -- A change sets one field beside the note, and the erasure keeps all these.
  cases builder <;> simp only [build, erase, Descriptor.build] <;> rfl

/-- The marks of a node are those that it has without its note. -/
theorem isRelevant_erase (node : Noted) : node.erase.isRelevant = node.isRelevant := by
  -- Erasing drops the note and keeps both marks.
  obtain ⟨id, form, slots, introspection, rules, extractor, descends⟩ := node
  rw [erase, Descriptor.isRelevant, isRelevant]

/-- A node with the right note may be skipped with and without it. -/
theorem isSkippable_erase {node : Noted} (noted : node.descends = node.erase.requiresDescent) :
    node.erase.isSkippable = node.isSkippable := by
  -- With an exact note both answers are made of the same two parts.
  rw [Descriptor.isSkippable, isRelevant_erase, ← noted, isSkippable]

/-- A node is made with the right note if its slots have the right notes. -/
theorem descends_make (id : DescriptorId) (form : Form) {slots : List Noted}
    (noted : ∀ slot ∈ slots, slot.descends = slot.erase.requiresDescent) :
    (make id form slots).descends = (make id form slots).erase.requiresDescent := by
  -- A slot is counted when it may not be skipped, and by its note that is told rightly.
  have counted : ∀ slot ∈ slots,
      ((slot.isRelevant || slot.descends) = true ↔ slot.erase.isSkippable = false) := by
    intro slot among
    rw [not_skippable_iff, isRelevant_erase, ← noted slot among, Bool.or_eq_true]
  rw [Bool.eq_iff_iff, requiresDescent_iff, erase_make]
  simp only [make, plain, List.any_eq_true, List.mem_map, exists_exists_and_eq_and]
  exact exists_congr fun slot => and_congr_right fun among => counted slot among

/-- A change leaves the note of a node as it was, and leaves it right. -/
theorem descends_build {node : Noted} (noted : node.descends = node.erase.requiresDescent)
    (builder : Builder) :
    (node.build builder).descends = node.descends ∧
      (node.build builder).descends = (node.build builder).erase.requiresDescent := by
  -- The note stays as it is, and what it is compared to depends on the slots alone.
  have kept : (node.build builder).descends = node.descends := by cases builder <;> rfl
  refine ⟨kept, ?_⟩
  rw [kept, noted, erase_build, requiresDescent_build]

/-- Every node that can be built has the right note. -/
theorem Built.descends_eq {node : Noted} (built : node.Built) :
    node.descends = node.erase.requiresDescent := by
  -- The induction goes over what was done to build the node; the slots were built before it.
  induction built with
  | make id form _ noted => exact descends_make id form noted
  | build _ builder noted => exact (descends_build noted builder).2

/-- The notes of all nodes that can be built say exactly what their trees say. -/
theorem Built.notes_exact {node : Noted} (built : node.Built) :
    -- A node is noted as one to be opened when some node below is relevant, however deep.
    (node.descends = true ↔ ∃ inner ∈ node.erase.descendants, inner.isRelevant = true) ∧
    (node.isSkippable = true ↔ ∀ inner ∈ node.erase.preorder, inner.isRelevant = false) ∧
    node.descends = node.erase.requiresDescent ∧ node.isSkippable = node.erase.isSkippable ∧
    -- No change to a node changes its note, nor what can be found out from the tree.
    (∀ builder, (node.build builder).descends = node.descends ∧
      (node.build builder).erase.requiresDescent = node.erase.requiresDescent) ∧
    -- Filing a rule on a node is such a change.
    ∀ (book : RuleBook) (rule : Rule),
      (book.constrain node.erase rule).1 = (node.build .withDeclaredRules).erase := by
  -- All rests on the note being what the tree answers, which holds since the node was made.
  have noted := built.descends_eq
  refine ⟨?_, ?_, noted, (isSkippable_erase noted).symm, fun builder => ⟨?_, ?_⟩,
    fun book rule => ?_⟩
  · rw [noted, requiresDescent_iff_descendants]
  · rw [← isSkippable_erase noted, isSkippable_iff]
  · exact (descends_build noted builder).1
  · rw [erase_build, requiresDescent_build]
  · exact (erase_build node .withDeclaredRules).symm

end Noted

end Descriptor

/-- The mark on the whole was set last, and its slots had their own before. -/
theorem notes_exact_offer :
    let price := (Descriptor.Noted.make ⟨0⟩ (.simple .decimal) []).build .withDeclaredRules
    let prices := Descriptor.Noted.make ⟨1⟩ (.parameterized .sequence) [price]
    let offer := (Descriptor.Noted.make ⟨2⟩ (.parameterized .optional) [prices]).build .cascaded
    offer.Built ∧ offer.descends = true ∧
      ∃ inner ∈ offer.erase.descendants, inner.isRelevant = true := by
  intro price prices offer
  -- Each node is made of the one before, and the outermost is marked when it is finished.
  have built : offer.Built := by
    refine .build (.make _ _ fun slot listed => ?_) _
    obtain rfl := List.mem_singleton.mp listed
    refine .make _ _ fun slot listed => ?_
    obtain rfl := List.mem_singleton.mp listed
    exact .build (.make _ _ fun slot listed => absurd listed List.not_mem_nil) _
  have noted : offer.descends = true := by decide
  exact ⟨built, noted, built.notes_exact.1.mp noted⟩

end GraphRules
