import GraphRules.Proofs.Extraction.Depth
import Mathlib.Data.List.Forall2

/-! Marks and what an extraction makes of them: more marks show more along the same chains. -/

namespace GraphRules

namespace Descriptor

/-- A descriptor differs from another only by marks that it lacks. -/
inductive MarkedWithin : Descriptor → Descriptor → Prop
  -- Which nodes are copies of each other does not matter, so the identities may differ.
  | node {few many : Descriptor} (form : few.form = many.form)
    (extractor : few.extractor = many.extractor)
    (introspection : few.needsIntrospection = true → many.needsIntrospection = true)
    (rules : few.hasDeclaredRules = true → many.hasDeclaredRules = true)
    (slots : List.Forall₂ MarkedWithin few.slots many.slots) : MarkedWithin few many

namespace MarkedWithin

variable {few many : Descriptor}

/-- The same extractor is pinned. -/
theorem extractor_eq (within : few.MarkedWithin many) : few.extractor = many.extractor := by
  -- Marks are all that may differ at a node.
  cases within with
  | node form extractor introspection rules slots => exact extractor

/-- Slot by slot, the nodes below differ only by marks. -/
theorem slots_within (within : few.MarkedWithin many) :
    List.Forall₂ MarkedWithin few.slots many.slots := by
  -- Slot by slot the nodes differ by marks alone.
  cases within with
  | node form extractor introspection rules slots => exact slots

/-- What is relevant stays relevant. -/
theorem relevant (within : few.MarkedWithin many) (marked : few.isRelevant = true) :
    many.isRelevant = true := by
  -- Each of the two marks that make a node relevant is kept.
  cases within with
  | node form extractor introspection rules slots =>
    rw [isRelevant, Bool.or_eq_true] at marked ⊢
    exact marked.imp introspection rules

mutual

/-- What has to be opened still has to be opened. -/
theorem opened : ∀ {few many : Descriptor}, few.MarkedWithin many → few.requiresDescent = true →
    many.requiresDescent = true
  -- The slot that is wanted under fewer marks is wanted under more.
  | ⟨_, _, slots, _, _, _⟩, ⟨_, _, others, _, _, _⟩, within, descends => by
    rw [requiresDescent] at descends ⊢
    exact anyWanted_of_slots within.slots_within descends

/-- Where one of several trees is wanted, one of the others is wanted too. -/
theorem anyWanted_of_slots :
    ∀ {fews manys : List Descriptor}, List.Forall₂ MarkedWithin fews manys →
    anyWanted fews = true → anyWanted manys = true
  | [], _, _, found => by simp [anyWanted] at found
  | first :: rest, _ :: _, .cons one others, found => by
    rw [anyWanted, Bool.or_eq_true, Bool.or_eq_true] at found ⊢
    -- A tree is wanted for its root or for what is below.
    exact found.imp (Or.imp one.relevant (opened one)) (anyWanted_of_slots others)

end

/-- What may not be skipped still may not be skipped. -/
theorem wanted (within : few.MarkedWithin many) (kept : few.isSkippable = false) :
    many.isSkippable = false := by
  -- Relevant nodes stay relevant, and opened ones stay opened.
  rw [not_skippable_iff] at kept ⊢
  exact kept.imp within.relevant within.opened

end MarkedWithin

/-- The node that a route of slots leads to. -/
def nodeAt? (descriptor : Descriptor) : (route : List Nat) → Option Descriptor
  | [] => some descriptor
  | slot :: rest => (descriptor.slots[slot]?).bind (nodeAt? · rest)

/-- Whether a route of slots leads to a relevant node. -/
def relevantAt (descriptor : Descriptor) (route : List Nat) : Bool :=
  (descriptor.nodeAt? route).any isRelevant

end Descriptor

open Descriptor (MarkedWithin)

/-- The slots on the way of a chain lead to the node at its end. -/
theorem Chain.nodeAt?_end {store : Store} {answer : Kind → Nat → Option Extractor}
    {descriptor : Descriptor} {value : Value} {links : List Link}
    (chain : Chain store answer descriptor value links) :
    descriptor.nodeAt? (links.map (·.slot)) = some (endNode descriptor links) := by
  -- The induction is on the chain, whose links go through the slots of the route.
  induction chain with
  | stop descriptor value => rfl
  | link departs onwards behind =>
    rw [List.map_cons, Descriptor.nodeAt?, departs.slotted, Option.bind_some, behind, endNode_cons]

/-! ### The same chains -/

/-- A link is another one, except that the node that it leads to may lack marks. -/
structure Link.MarkedWithin (few many : Link) : Prop where
  slot : few.slot = many.slot
  reported : few.reported = many.reported
  inner : few.inner.MarkedWithin many.inner

namespace Chain

variable {fewLinks manyLinks : List Link}

/-- Chains with the same steps lead to the same value. -/
theorem endValue_within (within : List.Forall₂ Link.MarkedWithin fewLinks manyLinks)
    (root : Value) :
    endValue root fewLinks = endValue root manyLinks := by
  -- The induction is on the links, which report the same.
  induction within generalizing root with
  | nil => rfl
  | cons one others same => rw [endValue_cons, endValue_cons, one.reported, same]

/-- And they lead to the same position. -/
theorem along_within (within : List.Forall₂ Link.MarkedWithin fewLinks manyLinks) (value : Value)
    (position : Position) : position.along value fewLinks = position.along value manyLinks := by
  -- The induction is on the links, which have the same slots and report the same.
  induction within generalizing value position with
  | nil => rfl
  | cons one others same =>
    rw [Position.along, Position.along, one.slot, one.reported, same]

/-- The nodes at the ends of the chains differ only by marks. -/
theorem endNode_within {few many : Descriptor} (above : few.MarkedWithin many)
    (within : List.Forall₂ Link.MarkedWithin fewLinks manyLinks) :
    (endNode few fewLinks).MarkedWithin (endNode many manyLinks) := by
  -- The induction is on the links; what they lead to differs by marks at every step.
  induction within generalizing few many with
  | nil => exact above
  | cons one others further => rw [endNode_cons, endNode_cons]; exact further one.inner

end Chain

/-- What a leaf tells, apart from the marks of its node: the value, and where it was found. -/
def Leaf.finding (leaf : Leaf) : Value × Position := (leaf.value, leaf.position)

namespace Scope

variable {store : Store} {answer : Kind → Nat → Option Extractor} {few many : Descriptor}
  {value : Value}

/-- Slots that differ only by marks stand at the same numbers. -/
theorem zipIdx_within {fews manys : List Descriptor} (within : List.Forall₂ MarkedWithin fews manys)
    (first : Nat) :
    List.Forall₂ (fun few many => few.1.MarkedWithin many.1 ∧ few.2 = many.2) (fews.zipIdx first)
      (manys.zipIdx first) := by
  -- The slots are numbered alike from any number on.
  induction within generalizing first with
  | nil => exact .nil
  | cons one others later => exact .cons ⟨one, rfl⟩ (later (first + 1))

/-- The same is reported of slots that differ only by marks. -/
theorem reports_within {few many : Descriptor × Nat} (within : few.1.MarkedWithin many.1)
    (same : few.2 = many.2) (container : Value) :
    reports store answer container few = reports store answer container many := by
  -- The extractor that is asked for a slot is pinned or found, in both cases the same.
  rw [reports, reports, within.extractor_eq, same]

/-- From nodes that differ only by marks, the same links depart. -/
theorem links_within (within : few.MarkedWithin many) (value : Value) :
    List.Forall₂ Link.MarkedWithin (links store answer few value)
    (links store answer many value) := by
  unfold links
  split
  · exact .nil
  · refine List.rel_flatMap (zipIdx_within within.slots_within 0) fun few many ⟨inner, same⟩ => ?_
    -- Both slots have the same report, entry by entry.
    rw [linksThrough, linksThrough, reports_within inner same]
    refine List.forall₂_map_left_iff.mpr (List.forall₂_map_right_iff.mpr ?_)
    exact List.forall₂_same.mpr fun reported _ => ⟨same, rfl, inner⟩

/-- From nodes that differ only by marks, the same chains start. -/
theorem chains_within (room : Nat) (within : few.MarkedWithin many) (value : Value) :
    List.Forall₂ (List.Forall₂ Link.MarkedWithin) (chains store answer room few value)
      (chains store answer room many value) := by
  induction room generalizing few many value with
  | zero => exact .cons .nil .nil
  | succ room further =>
    refine .cons .nil (List.rel_flatMap (links_within within value) fun first other link => ?_)
    -- Behind links to the same value, the chains are the same again.
    rw [link.reported]
    refine List.rel_map (fun rest others onwards => ?_) (further link.inner other.reported.value)
    exact .cons link onwards

/-- Along the same chain the less marked descriptor shows what is relevant to it. -/
theorem finding_within {fewLinks manyLinks : List Link} (within : few.MarkedWithin many)
    (chain : Chain store answer few value fewLinks)
    (same : List.Forall₂ Link.MarkedWithin fewLinks manyLinks) :
    (Chain.leaf few value fewLinks).finding = (Chain.leaf many value manyLinks).finding ∧
      ((Chain.endNode few fewLinks).isRelevant =
        (few.relevantAt (Chain.leaf many value manyLinks).position.route &&
          (Chain.endNode many manyLinks).isRelevant)) := by
  -- Value, path and route are read off the links, which agree.
  have found : (Chain.leaf few value fewLinks).finding =
      (Chain.leaf many value manyLinks).finding := by
    rw [← Chain.leafFrom_root, ← Chain.leafFrom_root]
    exact Prod.ext (Chain.endValue_within same value) (Chain.along_within same value .root)
  have route : fewLinks.map (·.slot) = (Chain.leaf many value manyLinks).position.route :=
    congrArg (fun finding => finding.2.route) found
  -- The route leads to the node at the end of the chain.
  have standing : few.relevantAt (fewLinks.map (·.slot)) =
      (Chain.endNode few fewLinks).isRelevant := by
    rw [Descriptor.relevantAt, chain.nodeAt?_end, Option.any_some]
  refine ⟨found, ?_⟩
  rw [← route, standing]
  -- What is relevant with few marks is relevant with many.
  cases relevant : (Chain.endNode few fewLinks).isRelevant with
  | false => rfl
  | true => exact ((Chain.endNode_within within same).relevant relevant).symm

/-- Of the leaves under many marks, those under few are the ones at positions relevant under few. -/
theorem findings_within (scope : Scope) (within : few.MarkedWithin many) (root : Value)
    (registry : Registry) :
    (scope.extract few root registry).1.leaves.map Leaf.finding =
      ((scope.extract many root registry).1.leaves.filter fun leaf =>
        few.relevantAt leaf.position.route).map Leaf.finding := by
  rw [extract_leaves_eq, extract_leaves_eq, List.filter_map, List.filter_filter, List.map_map,
    List.map_map, ← List.forall₂_eq_eq_eq]
  -- The chains are the same, and they are chains through the less marked descriptor.
  have same : List.Forall₂ (List.Forall₂ Link.MarkedWithin)
      (chains scope.store registry.answer scope.limit few root)
      (chains scope.store registry.answer scope.limit many root) :=
        chains_within scope.limit within root
  have paired := (List.forall₂_and_left _ _).mpr
    ⟨fun links listed => (mem_chains.mp listed).1, same⟩
  refine List.rel_map (fun links others ⟨chain, same⟩ => ?_)
    (List.rel_filter (fun links others ⟨chain, same⟩ => ?_) paired)
  · exact (finding_within within chain same).1
  · exact Bool.eq_iff_iff.mp (finding_within within chain same).2

/-- Every leaf stands at the node that its route of slots leads to. -/
theorem nodeAt?_of_mem_extract {scope : Scope} {descriptor : Descriptor} {root : Value}
    {registry : Registry} {leaf : Leaf}
    (reported : leaf ∈ (scope.extract descriptor root registry).1.leaves) :
    descriptor.nodeAt? leaf.position.route = some leaf.descriptor := by
  -- The leaf is that of a chain, and the route is read off its links.
  rw [extract_leaves_eq] at reported
  obtain ⟨links, listed, rfl⟩ := List.mem_map.mp reported
  exact (mem_chains.mp (List.mem_filter.mp listed).1).1.nodeAt?_end

end Scope

/-! ### What is not extracted -/

/-- What one extraction failed on or left unserved, another did too, in the same order. -/
structure Extraction.Within (first second : Extraction) : Prop where
  errors : first.errors.Sublist second.errors
  unresolved : first.unresolved.Sublist second.unresolved

namespace Extraction.Within

theorem refl (extraction : Extraction) : extraction.Within extraction := ⟨.refl _, .refl _⟩

/-- Nothing is within everything. -/
theorem none (extraction : Extraction) : Extraction.none.Within extraction :=
  ⟨List.nil_sublist _, List.nil_sublist _⟩

theorem append {first second third fourth : Extraction} (front : first.Within second)
    (back : third.Within fourth) : (first ++ third).Within (second ++ fourth) :=
  ⟨front.errors.append back.errors, front.unresolved.append back.unresolved⟩

theorem join {firsts seconds : List Extraction}
    (each : List.Forall₂ Extraction.Within firsts seconds) :
    (Extraction.join firsts).Within (Extraction.join seconds) := by
  -- The induction is on the extractions, compared one by one.
  induction each with
  | nil => exact refl _
  | cons one others later => exact one.append later

end Extraction.Within

namespace Scope

variable {answer : Kind → Nat → Option Extractor} {few many : Descriptor}

/-- A leaf is neither an error nor unserved. -/
theorem ownLeaf_within (value : Value) (position : Position) :
    (ownLeaf few value position).Within (ownLeaf many value position) where
  errors := by rw [errors_ownLeaf, errors_ownLeaf]
  unresolved := by rw [unresolved_ownLeaf, unresolved_ownLeaf]

/-- At a slot with fewer marks less is missed, if less is missed behind what is reported. -/
theorem branch_within (scope : Scope) {inside : Descriptor → Value → Position → Extraction}
    (deeper : ∀ {few many : Descriptor}, few.MarkedWithin many → ∀ value position,
      (inside few value position).Within (inside many value position))
    (container : Value) (position : Position) {few many : Descriptor × Nat}
    (within : few.1.MarkedWithin many.1) (same : few.2 = many.2) :
    (scope.branch answer inside container position few).Within
      (scope.branch answer inside container position many) := by
  unfold branch
  cases skipped : few.1.isSkippable with
  | true =>
    -- What is skipped misses nothing, whatever becomes of it under more marks.
    exact .none _
  | false =>
    -- A slot that is wanted is wanted under more marks too, and is asked in the same way.
    rw [within.wanted skipped, within.extractor_eq, same, if_neg Bool.false_ne_true,
      if_neg Bool.false_ne_true]
    split
    · refine .append (.refl _) (.join ?_)
      refine List.forall₂_map_left_iff.mpr (List.forall₂_map_right_iff.mpr ?_)
      exact List.forall₂_same.mpr fun reported _ => deeper within _ _
    · exact .refl _

/-- With fewer marks less is missed. -/
theorem collect_within (scope : Scope) (room : Nat) (within : few.MarkedWithin many) (value : Value)
    (position : Position) :
    (scope.collect answer room few value position).Within
      (scope.collect answer room many value position) := by
  induction room generalizing few many value position with
  | zero =>
    rw [collect, collect]
    refine .append (ownLeaf_within value position) ?_
    cases closed : value.isNull || !few.requiresDescent with
    | true => exact .none _
    | false =>
      -- A value that has to be opened under few marks is stopped at the limit under many too.
      obtain ⟨present, opened⟩ : value.isNull = false ∧ few.requiresDescent = true := by
        simpa using closed
      rw [present, within.opened opened]
      exact .refl _
  | succ room deeper =>
    -- Above the limit the slots are compared one by one.
    rw [collect_succ, collect_succ]
    refine .append (ownLeaf_within value position) ?_
    split
    · exact .refl _
    · refine .join (List.rel_map (fun few many paired => ?_) (zipIdx_within within.slots_within 0))
      exact scope.branch_within
        (fun inner value position => deeper inner value position) value position
        paired.1 paired.2

/-- Marking more nodes only adds results. -/
theorem extract_within_marks (scope : Scope) (within : few.MarkedWithin many) (root : Value)
    (registry : Registry) :
    let sparse := (scope.extract few root registry).1
    let dense := (scope.extract many root registry).1
    -- The same values, slots and paths at the own relevant positions, in the same order.
    sparse.leaves.map (fun leaf => (leaf.value, leaf.position)) =
      (dense.leaves.filter fun leaf => few.relevantAt leaf.position.route).map
        (fun leaf => (leaf.value, leaf.position)) ∧
    sparse.errors.Sublist dense.errors ∧ sparse.unresolved.Sublist dense.unresolved ∧
    -- The route of a leaf leads to the node that it stands at.
    (∀ leaf ∈ sparse.leaves, few.nodeAt? leaf.position.route = some leaf.descriptor) ∧
    ∀ leaf ∈ dense.leaves, many.nodeAt? leaf.position.route = some leaf.descriptor := by
  -- Both descriptors have the same chains, and opening more slots loses no error.
  intro sparse dense
  have missed : sparse.Within dense := by
    simp only [sparse, dense, extract_eq_collect]
    exact scope.collect_within scope.limit within root .root
  exact ⟨scope.findings_within within root registry, missed.errors, missed.unresolved,
    fun _ => nodeAt?_of_mem_extract, fun _ => nodeAt?_of_mem_extract⟩

end Scope

/-! ### The knot under few and many marks -/

namespace Knot

/-- Sequences of sequences of texts, of which only the texts have rules. -/
def fewMarks : Descriptor :=
  let lines := Descriptor.parameterized ⟨1⟩ kind [(Descriptor.simple ⟨0⟩ .text).withDeclaredRules]
  .parameterized ⟨3⟩ kind [lines, .simple ⟨2⟩ .text]

/-- The same with rules in the second slot too, and with introspection of all sequences. -/
def manyMarks : Descriptor :=
  let lines := Descriptor.parameterized ⟨5⟩ kind [(Descriptor.simple ⟨4⟩ .text).withDeclaredRules]
  (Descriptor.parameterized ⟨7⟩ kind
    [lines.cascaded, (Descriptor.simple ⟨6⟩ .text).withDeclaredRules]).cascaded

theorem fewMarks_within : fewMarks.MarkedWithin manyMarks := by
  -- The texts carry the same marks, and all other nodes fewer.
  have texts : ((Descriptor.simple ⟨0⟩ .text).withDeclaredRules).MarkedWithin
      (Descriptor.simple ⟨4⟩ .text).withDeclaredRules := .node rfl rfl nofun id .nil
  have others : (Descriptor.simple ⟨2⟩ .text).MarkedWithin
      (Descriptor.simple ⟨6⟩ .text).withDeclaredRules := .node rfl rfl nofun nofun .nil
  exact .node rfl rfl nofun nofun
    (.cons (.node rfl rfl nofun nofun (.cons texts .nil)) (.cons others .nil))

end Knot

/-- With more marks the knot shows itself and what it holds first, and an unserved slot. -/
theorem extract_within_marks_knot :
    let found (descriptor : Descriptor) :=
      (Scope.extract ⟨Knot.store, 2⟩ descriptor (.node (.collection Knot.knot)) .withDefaults).1
    let sparse := found Knot.fewMarks
    let dense := found Knot.manyMarks
    Knot.fewMarks.MarkedWithin Knot.manyMarks ∧
      sparse.leaves.map (fun leaf => (leaf.value, leaf.position)) =
        (dense.leaves.filter fun leaf => Knot.fewMarks.relevantAt leaf.position.route).map
          (fun leaf => (leaf.value, leaf.position)) ∧
      sparse.leaves.length = 2 ∧ dense.leaves.length = 5 ∧
      sparse.unresolved.Sublist dense.unresolved ∧
      sparse.unresolved = [⟨.text, 0⟩] ∧ dense.unresolved = [⟨.text, 0⟩, ⟨.sequence, 1⟩] := by
  intro found sparse dense
  -- What is claimed of the marks comes from the theorem, and the counts are evaluated.
  obtain ⟨leaves, _, unresolved, _, _⟩ := Scope.extract_within_marks ⟨Knot.store, 2⟩
    Knot.fewMarks_within (.node (.collection Knot.knot)) .withDefaults
  exact ⟨Knot.fewMarks_within, leaves, by decide, by decide, unresolved, by decide, by decide⟩

end GraphRules
