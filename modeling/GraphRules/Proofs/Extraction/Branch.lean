import GraphRules.Proofs.Extraction.Chain

/-! Branches: the slots through which an extraction goes on from the values that chains lead to. -/

namespace GraphRules

/-- A slot of the value at the end of a chain, and the descriptor there. -/
structure Branch where
  links : List Link
  slot : Nat
  inner : Descriptor

namespace Branch

variable (store : Store) (answer : Kind → Nat → Option Extractor)

/-- The value whose slot it is. -/
def container (root : Value) (branch : Branch) : Value := Chain.endValue root branch.links

/-- The key that an extractor for the branch is looked up by. -/
def key (root : Value) (branch : Branch) : ExtractorKey :=
  ⟨(branch.container root).kind, branch.slot⟩

/-- The extractor that serves the branch: the pinned one, or the answer for the kind at hand. -/
def server? (root : Value) (branch : Branch) : Option Extractor :=
  branch.inner.extractor.or (answer (branch.container root).kind branch.slot)

/-- The failure of the extractor that serves the branch. -/
def failure? (root : Value) (branch : Branch) : Option ExtractorFailure :=
  (branch.server? answer root).bind fun extractor =>
    (extractor.extract store (branch.container root)).failure

/-- A branch below a root: a chain leads to its container, and its slot may not be skipped. -/
structure Stands (descriptor : Descriptor) (root : Value) (branch : Branch) : Prop where
  reached : Chain store answer descriptor root branch.links
  present : (branch.container root).isNull = false
  slotted : (Chain.endNode descriptor branch.links).slots[branch.slot]? = some branch.inner
  wanted : branch.inner.isSkippable = false

/-- A branch that is walked: above the depth limit, served, and without a failure. -/
structure Walked (limit : Nat) (root : Value) (branch : Branch) : Prop where
  shallow : branch.links.length < limit
  served : branch.server? answer root ≠ none
  unfailing : branch.failure? store answer root = none

/-- The branch seen from one link before. -/
def behind (first : Link) (branch : Branch) : Branch :=
  { branch with links := first :: branch.links }

@[simp] theorem container_behind (first : Link) (branch : Branch) (root : Value) :
    (behind first branch).container root = branch.container first.reported.value :=
  Chain.endValue_cons root first branch.links

/-- The key depends on what the chain ends at only. -/
@[simp] theorem key_behind (first : Link) (branch : Branch) (root : Value) :
    (behind first branch).key root = branch.key first.reported.value := by
  -- The key is read off the container, which is the same behind the first link.
  simp only [key, container_behind]
  rfl

/-- So does the extractor. -/
@[simp] theorem server?_behind (first : Link) (branch : Branch) (root : Value) :
    (behind first branch).server? answer root = branch.server? answer first.reported.value := by
  -- The server is found for the container, which is the same behind the first link.
  simp only [server?, container_behind]
  rfl

/-- And so does its failure. -/
@[simp] theorem failure?_behind (first : Link) (branch : Branch) (root : Value) :
    (behind first branch).failure? store answer root =
      branch.failure? store answer first.reported.value := by
  -- Both the container and its server are the same behind the first link.
  simp only [failure?, container_behind, server?_behind]

variable {store answer} {descriptor : Descriptor} {root : Value}

/-- The branches of the root itself are its slots that may not be skipped. -/
theorem stands_here {slot : Nat} {inner : Descriptor} :
    Stands store answer descriptor root ⟨[], slot, inner⟩ ↔
      root.isNull = false ∧ descriptor.slots[slot]? = some inner ∧ inner.isSkippable = false :=
  -- The chain without links ends where it starts.
  ⟨fun stands => ⟨stands.present, stands.slotted, stands.wanted⟩,
    fun ⟨present, slotted, wanted⟩ => ⟨.stop descriptor root, present, slotted, wanted⟩⟩

/-- The branches behind a link are those that stand below the value that the link leads to. -/
theorem stands_behind {first : Link} {branch : Branch} :
    Stands store answer descriptor root (behind first branch) ↔
      first.Departs store answer descriptor root ∧
        Stands store answer first.inner first.reported.value branch := by
  -- The first link of the chain is split off, and container and slot stay at its end.
  constructor
  · rintro ⟨reached, present, slotted, wanted⟩
    rw [container_behind] at present
    rw [behind, Chain.endNode_cons] at slotted
    cases reached with
    | link departs onwards => exact ⟨departs, onwards, present, slotted, wanted⟩
  · rintro ⟨departs, reached, present, slotted, wanted⟩
    refine ⟨.link departs reached, ?_, ?_, wanted⟩
    · rwa [container_behind]
    · rwa [behind, Chain.endNode_cons]

/-- Every branch is one of the root itself or stands behind a link. -/
@[elab_as_elim]
theorem here_or_behind {motive : Branch → Prop}
    (here : ∀ slot inner, motive ⟨[], slot, inner⟩)
    (behind : ∀ first rest, motive rest → motive (behind first rest)) (branch : Branch) :
    motive branch := by
  -- The induction is on the links that lead to the container of the branch.
  obtain ⟨links, slot, inner⟩ := branch
  induction links with
  | nil => exact here slot inner
  | cons first rest shorter => exact behind first ⟨rest, slot, inner⟩ shorter

/-- No branch stands below null. -/
theorem Stands.present_root {branch : Branch}
    (stands : Stands store answer descriptor root branch) :
    root.isNull = false := by
  -- A link departs from no null, and neither does the branch itself.
  cases branch using here_or_behind with
  | here slot inner => exact stands.present
  | behind first rest => exact (stands_behind.mp stands).1.present

/-- Where a branch stands, the descriptor has to be opened. -/
theorem Stands.requiresDescent {branch : Branch}
    (stands : Stands store answer descriptor root branch) :
    descriptor.requiresDescent = true := by
  -- Each node on the way is opened for the sake of the one behind it.
  induction branch using here_or_behind generalizing descriptor root with
  | here slot inner => exact Descriptor.requiresDescent_of_slot stands.slotted stands.wanted
  | behind first rest opened =>
    obtain ⟨departs, onwards⟩ := stands_behind.mp stands
    have wanted := Descriptor.not_skippable_iff.mpr (.inr (opened onwards))
    exact Descriptor.requiresDescent_of_slot departs.slotted wanted

/-- And so it may not be skipped itself. -/
theorem Stands.not_skippable {branch : Branch}
    (stands : Stands store answer descriptor root branch) :
    descriptor.isSkippable = false := by
  exact Descriptor.not_skippable_iff.mpr (.inr stands.requiresDescent)

/-- Below a value that has to be opened, some branch stands. -/
theorem exists_stands (present : root.isNull = false) (opened : descriptor.requiresDescent = true) :
    ∃ branch, Stands store answer descriptor root branch := by
  -- A node is opened for one of its slots, and the branch of this slot stands at the root.
  obtain ⟨inner, listed, wanted⟩ := Descriptor.requiresDescent_iff.mp opened
  obtain ⟨slot, slotted⟩ := List.mem_iff_getElem?.mp listed
  exact ⟨⟨[], slot, inner⟩, stands_here.mpr ⟨present, slotted, wanted⟩⟩

end Branch

namespace Scope

variable (store : Store) (answer : Kind → Nat → Option Extractor)

/-- All branches that stand above a depth limit, depth first. -/
def branches : (room : Nat) → Descriptor → Value → List Branch
  | 0, _, _ => []
  | room + 1, descriptor, value =>
    if value.isNull then []
    else descriptor.slots.zipIdx.flatMap fun slot =>
      if slot.1.isSkippable then []
      else ⟨[], slot.2, slot.1⟩ ::
        (linksThrough store answer value slot).flatMap fun link =>
          (branches room link.inner link.reported.value).map (Branch.behind link)

variable {store answer} {descriptor : Descriptor} {value : Value}

/-- Exactly the branches that stand above the limit are listed. -/
theorem mem_branches {room : Nat} {branch : Branch} :
    branch ∈ branches store answer room descriptor value ↔
      branch.Stands store answer descriptor value ∧ branch.links.length < room := by
  -- The induction is on the room, and the links of a branch are taken off from the front.
  induction room generalizing descriptor value branch with
  | zero => simp [branches]
  | succ room listed =>
    rw [branches]
    split
    · next null =>
      -- Null has no branches.
      simp only [List.not_mem_nil, false_iff]
      rintro ⟨stands, _⟩
      simp [stands.present_root] at null
    · next present =>
      simp only [Bool.not_eq_true] at present
      simp only [List.mem_flatMap, Prod.exists, List.mem_zipIdx_iff_getElem?]
      constructor
      · rintro ⟨inner, slot, slotted, among⟩
        split at among
        · simp at among
        · next wanted =>
          simp only [Bool.not_eq_true] at wanted
          rcases List.mem_cons.mp among with rfl | later
          · exact ⟨Branch.stands_here.mpr ⟨present, slotted, wanted⟩, Nat.succ_pos room⟩
          · -- What is listed behind a link stands behind it.
            obtain ⟨link, through, mapped⟩ := List.mem_flatMap.mp later
            obtain ⟨rest, deeper, rfl⟩ := List.mem_map.mp mapped
            obtain ⟨stands, bounded⟩ := listed.mp deeper
            obtain ⟨rfl, rfl, reports⟩ := mem_linksThrough.mp through
            exact ⟨Branch.stands_behind.mpr ⟨⟨present, slotted, reports⟩, stands⟩,
              Nat.succ_lt_succ bounded⟩
      · rintro ⟨stands, bounded⟩
        cases branch using Branch.here_or_behind with
        | here slot inner =>
          refine ⟨inner, slot, stands.slotted, ?_⟩
          simp [stands.wanted]
        | behind first rest =>
          obtain ⟨departs, onwards⟩ := Branch.stands_behind.mp stands
          refine ⟨first.inner, first.slot, departs.slotted, ?_⟩
          -- The slot of the first link may not be skipped, since the branch stands behind it.
          rw [if_neg (by simp [onwards.not_skippable])]
          refine List.mem_cons_of_mem _ (List.mem_flatMap.mpr ⟨first, ?_, ?_⟩)
          · exact mem_linksThrough.mpr ⟨rfl, rfl, departs.reports⟩
          · exact List.mem_map_of_mem (listed.mpr ⟨onwards, Nat.lt_of_succ_lt_succ bounded⟩)

end Scope

end GraphRules
