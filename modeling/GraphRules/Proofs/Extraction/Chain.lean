import GraphRules.Extraction
import GraphRules.Proofs.Basic
import GraphRules.Proofs.Descriptor.Descent
import Mathlib.Data.List.Basic

/-! Chains: the ways from a root through the slots of its descriptor, told without its marks. -/

namespace GraphRules

/-- One step of a chain: the slot that is opened, and what its extractor reports where. -/
structure Link where
  slot : Nat
  inner : Descriptor
  place : Nat
  reported : Reported

namespace Link

/-- The step of a path that a link adds. -/
def segment (link : Link) : PathSegment := ⟨link.reported.name, link.reported.index⟩

/-- Where a link stands among those that depart from the same value. -/
def rank (link : Link) : Nat × Nat := (link.slot, link.place)

/-- A link departs from a value at a node: the extractor of its slot reports what it says. -/
structure Departs (store : Store) (answer : Kind → Nat → Option Extractor) (descriptor : Descriptor)
    (value : Value) (link : Link) : Prop where
  present : value.isNull = false
  slotted : descriptor.slots[link.slot]? = some link.inner
  /-- The pinned extractor goes before the answer for the kind at hand. -/
  reports : ∃ extractor, link.inner.extractor.or (answer value.kind link.slot) = some extractor ∧
    (extractor.extract store value).reported[link.place]? = some link.reported

end Link

/-- Links that follow one another from a value at a node. -/
inductive Chain (store : Store) (answer : Kind → Nat → Option Extractor) :
    Descriptor → Value → List Link → Prop
  | stop (descriptor : Descriptor) (value : Value) : Chain store answer descriptor value []
  | link {descriptor : Descriptor} {value : Value} {first : Link} {rest : List Link}
      (departs : first.Departs store answer descriptor value)
      (onwards : Chain store answer first.inner first.reported.value rest) :
      Chain store answer descriptor value (first :: rest)

namespace Chain

/-- The descriptor node that a chain ends at. -/
def endNode (descriptor : Descriptor) (links : List Link) : Descriptor :=
  (links.getLast?.map (·.inner)).getD descriptor

/-- The value that a chain ends at. -/
def endValue (root : Value) (links : List Link) : Value :=
  (links.getLast?.map (·.reported.value)).getD root

/-- The leaf at the end of a chain. -/
def leaf (descriptor : Descriptor) (root : Value) (links : List Link) : Leaf where
  descriptor := endNode descriptor links
  value := endValue root links
  position :=
    -- The container is the value before the last link.
    { origin := links.getLast?.map fun last => ⟨endValue root links.dropLast, last.slot⟩
      path := ⟨links.map Link.segment⟩
      route := links.map (·.slot) }

/-- A chain goes before another depth first. -/
def Precedes (first second : List Link) : Prop :=
  -- The first links that differ decide, by slot and then by place, and extensions come later.
  List.Lex (Prod.Lex (· < ·) (· < ·)) (first.map Link.rank) (second.map Link.rank)

/-- A chain with a link ends where the rest of it ends. -/
@[simp] theorem endNode_cons (descriptor : Descriptor) (first : Link) (rest : List Link) :
    endNode descriptor (first :: rest) = endNode first.inner rest := by
  -- Without a rest, the chain ends at its one link.
  unfold endNode
  rw [List.getLast?_cons]
  cases rest.getLast? <;> rfl

/-- The value at the end is found in the same way. -/
@[simp] theorem endValue_cons (root : Value) (first : Link) (rest : List Link) :
    endValue root (first :: rest) = endValue first.reported.value rest := by
  -- The last link of the longer chain is that of the rest, if there is one.
  unfold endValue
  rw [List.getLast?_cons]
  cases rest.getLast? <;> rfl

end Chain

namespace Chain

variable {store : Store} {answer : Kind → Nat → Option Extractor} {descriptor : Descriptor}
  {value : Value} {links : List Link}

/-- No chain to a node that may not be skipped starts at a node that may. -/
theorem not_skippable_of_end (chain : Chain store answer descriptor value links)
    (wanted : (endNode descriptor links).isSkippable = false) : descriptor.isSkippable = false := by
  induction chain with
  | stop descriptor value =>
    -- The chain ends where it starts.
    exact wanted
  | link departs onwards behind =>
    -- The node behind the first link may not be skipped, so its slot is opened.
    rw [endNode_cons] at wanted
    have opened := Descriptor.requiresDescent_of_slot departs.slotted (behind wanted)
    exact Descriptor.not_skippable_iff.mpr (.inr opened)

/-- No chain to a relevant node starts at a node that may be skipped. -/
theorem not_skippable (chain : Chain store answer descriptor value links)
    (relevant : (endNode descriptor links).isRelevant = true) : descriptor.isSkippable = false :=
  chain.not_skippable_of_end (Descriptor.not_skippable_iff.mpr (.inl relevant))

/-- A chain ends at a node of the tree. -/
theorem endNode_mem_preorder (chain : Chain store answer descriptor value links) :
    endNode descriptor links ∈ descriptor.preorder := by
  induction chain with
  | stop descriptor value =>
    rw [Descriptor.preorder_eq]
    exact List.mem_cons_self
  | @link descriptor _ _ _ departs onwards inside =>
    -- The slot of the first link is below the node, and so is all of its tree.
    have slotted := List.mem_of_getElem? departs.slotted
    rw [endNode_cons, Descriptor.preorder_eq]
    exact List.mem_cons_of_mem _ (Descriptor.mem_preorderAll.mpr ⟨_, slotted, inside⟩)

end Chain

namespace Scope

variable (store : Store) (answer : Kind → Nat → Option Extractor)

/-- What is reported of a slot of a container. -/
def reports (container : Value) (slot : Descriptor × Nat) : List Reported :=
  match slot.1.extractor.or (answer container.kind slot.2) with
  | some extractor => (extractor.extract store container).reported
  | none => []

/-- The links through one slot of a container, in the order of the report. -/
def linksThrough (container : Value) (slot : Descriptor × Nat) : List Link :=
  (reports store answer container slot).zipIdx.map fun reported =>
    ⟨slot.2, slot.1, reported.2, reported.1⟩

/-- All links that depart from a value at a node, by slot and then by place. -/
def links (descriptor : Descriptor) (value : Value) : List Link :=
  if value.isNull then []
  else descriptor.slots.zipIdx.flatMap (linksThrough store answer value)

/-- All chains with so many links at most, depth first. -/
def chains : (room : Nat) → Descriptor → Value → List (List Link)
  | 0, _, _ => [[]]
  | room + 1, descriptor, value =>
    [] :: (links store answer descriptor value).flatMap fun link =>
      (chains room link.inner link.reported.value).map (link :: ·)

variable {store answer} {descriptor : Descriptor} {value : Value}

/-- The links of a slot are those that the report of its extractor gives rise to. -/
theorem mem_linksThrough {slot : Descriptor × Nat} {link : Link} :
    link ∈ linksThrough store answer value slot ↔
      link.inner = slot.1 ∧ link.slot = slot.2 ∧
        ∃ extractor, link.inner.extractor.or (answer value.kind link.slot) = some extractor ∧
          (extractor.extract store value).reported[link.place]? = some link.reported := by
  obtain ⟨slotOf, inner, place, reported⟩ := link
  obtain ⟨descriptor, index⟩ := slot
  simp only [linksThrough, reports, List.mem_map, Prod.exists, List.mem_zipIdx_iff_getElem?,
    Link.mk.injEq]
  constructor
  · rintro ⟨_, _, held, rfl, rfl, rfl, rfl⟩
    refine ⟨rfl, rfl, ?_⟩
    -- Without an extractor nothing is reported.
    split at held
    · next extractor served => exact ⟨extractor, served, held⟩
    · simp at held
  · rintro ⟨rfl, rfl, extractor, served, held⟩
    -- What the extractor of the slot reports is what is numbered.
    exact ⟨reported, place, by simpa only [served] using held, rfl, rfl, rfl, rfl⟩

/-- What is reported of a slot is what links through it lead to. -/
theorem mem_reports {slot : Descriptor × Nat} {reported : Reported} :
    reported ∈ reports store answer value slot ↔
      ∃ link ∈ linksThrough store answer value slot, link.reported = reported := by
  -- Numbering the reports loses none of them.
  conv => lhs; rw [← List.zipIdx_map_fst 0 (reports store answer value slot)]
  simp only [linksThrough, List.mem_map, exists_exists_and_eq_and]

/-- Links through a slot hold what is reported of it, in the same order. -/
theorem flatMap_linksThrough {Entry : Type} (entries : Nat → Descriptor → Reported → List Entry)
    (container : Value) (slot : Descriptor × Nat) :
    ((linksThrough store answer container slot).flatMap fun link =>
        entries link.slot link.inner link.reported) =
      (reports store answer container slot).flatMap (entries slot.2 slot.1) := by
  -- Every link through the slot stands for one reported value, with its place beside it.
  conv => rhs; rw [← List.zipIdx_map_fst 0 (reports store answer container slot), List.flatMap_map]
  rw [linksThrough, List.flatMap_map]

/-- Exactly the links that depart from a value are listed. -/
theorem mem_links {link : Link} :
    link ∈ links store answer descriptor value ↔ link.Departs store answer descriptor value := by
  unfold links
  cases present : value.isNull with
  | true =>
    -- No link departs from null.
    simp only [if_true, List.not_mem_nil, false_iff]
    exact fun departs => by simpa [present] using departs.present
  | false =>
    simp only [Bool.false_eq_true, if_false, List.mem_flatMap, Prod.exists, mem_linksThrough,
      List.mem_zipIdx_iff_getElem?]
    constructor
    -- A numbered slot is a slot of the descriptor, at its number.
    · rintro ⟨_, _, slotted, rfl, rfl, reports⟩
      exact ⟨present, slotted, reports⟩
    · rintro ⟨_, slotted, reports⟩
      exact ⟨link.inner, link.slot, slotted, rfl, rfl, reports⟩

/-- Exactly the chains of the length allowed are listed. -/
theorem mem_chains {room : Nat} {found : List Link} :
    found ∈ chains store answer room descriptor value ↔
      Chain store answer descriptor value found ∧ found.length ≤ room := by
  induction room generalizing descriptor value found with
  | zero =>
    -- Only the chain that stops at once has no links.
    simp only [chains, List.mem_singleton, Nat.le_zero, List.length_eq_zero_iff]
    refine ⟨?_, And.right⟩
    rintro rfl
    exact ⟨.stop descriptor value, rfl⟩
  | succ room listed =>
    -- A longer chain is a link that departs from the value, and a chain from where the link ends.
    simp only [chains, List.mem_cons, List.mem_flatMap, mem_links, List.mem_map, listed]
    constructor
    · rintro (rfl | ⟨first, departs, rest, ⟨onwards, bounded⟩, rfl⟩)
      · exact ⟨.stop descriptor value, Nat.zero_le _⟩
      · exact ⟨.link departs onwards, Nat.succ_le_succ bounded⟩
    · rintro ⟨chain, bounded⟩
      cases chain with
      | stop => exact .inl rfl
      | @link _ _ first rest departs onwards =>
        exact .inr ⟨first, departs, rest, ⟨onwards, Nat.le_of_succ_le_succ bounded⟩, rfl⟩

/-- Links are listed by slot and then by place. -/
theorem pairwise_links (store : Store) (answer : Kind → Nat → Option Extractor)
    (descriptor : Descriptor) (value : Value) :
    (links store answer descriptor value).Pairwise fun first second =>
      Prod.Lex (· < ·) (· < ·) first.rank second.rank := by
  unfold links
  split
  · exact .nil
  · refine List.pairwise_flatMap.mpr ⟨fun slot _ => ?_, ?_⟩
    · -- Within one slot the places ascend.
      refine List.pairwise_map.mpr ((Lists.pairwise_zipIdx _).imp fun ascending => ?_)
      exact Prod.Lex.right _ ascending
    · -- From one slot to a later one it is the slot that ascends.
      refine (Lists.pairwise_zipIdx _).imp fun ascending first one second two => ?_
      obtain ⟨_, here, _⟩ := mem_linksThrough.mp one
      obtain ⟨_, there, _⟩ := mem_linksThrough.mp two
      exact Prod.Lex.left _ _ (by rwa [here, there])

/-- Chains are listed depth first. -/
theorem pairwise_chains (store : Store) (answer : Kind → Nat → Option Extractor) (room : Nat)
    (descriptor : Descriptor) (value : Value) :
    (chains store answer room descriptor value).Pairwise Chain.Precedes := by
  induction room generalizing descriptor value with
  | zero => exact List.pairwise_singleton _ _
  | succ room ordered =>
    refine List.pairwise_cons.mpr ⟨fun later listed => ?_, List.pairwise_flatMap.mpr ⟨?_, ?_⟩⟩
    · -- A chain goes before all that go on from it.
      obtain ⟨link, _, mapped⟩ := List.mem_flatMap.mp listed
      obtain ⟨rest, _, rfl⟩ := List.mem_map.mp mapped
      exact .nil
    · -- Chains that begin with the same link are ordered by what follows.
      intro link _
      refine List.pairwise_map.mpr ((ordered link.inner link.reported.value).imp fun before => ?_)
      exact .cons before
    · -- Chains that begin with different links are ordered by these.
      refine (pairwise_links store answer descriptor value).imp
        fun before first one second two => ?_
      obtain ⟨_, _, rfl⟩ := List.mem_map.mp one
      obtain ⟨_, _, rfl⟩ := List.mem_map.mp two
      exact .rel before

end Scope

end GraphRules
