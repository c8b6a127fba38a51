import GraphRules.Proofs.RuleBook.Workshop
import GraphRules.Proofs.Validation.Attribution
import GraphRules.Rule.Text
import Mathlib.Data.List.Flatten

/-! Filed rules and validations: rules are checked wherever their node is relevant. -/

namespace GraphRules

/-- A validation reports what violates the rules on the node of a leaf, for each of its leaves. -/
theorem Validator.leafViolations_sublist (validator : Validator) (store : Store)
    {descriptor : Descriptor} {value : Value} {registry : Registry} {leaf : Leaf}
    (reported : leaf ∈ ((validator.scope store).extract descriptor value registry).1.leaves) :
    (validator.book.leafViolations store leaf).Sublist
      (validator.validate store descriptor value registry).1.violations := by
  let leaves := ((validator.scope store).extract descriptor value registry).1.leaves
  have owned : (validator.findings store .start leaves).map (·.1) = leaves :=
    validator.findings_leaves store .start leaves
  -- There is a finding for the leaf, which begins with the violations of its rules.
  have found : leaf ∈ (validator.findings store .start leaves).map (·.1) := by rwa [owned]
  obtain ⟨finding, listed, rfl⟩ := List.mem_map.mp found
  rw [validator.validate_eq]
  have first := List.sublist_append_left (validator.book.leafViolations store finding.1)
    (finding.2.flatMap (validator.cascadeViolations store finding.1))
  exact first.trans (List.sublist_flatten_of_mem (List.mem_map_of_mem listed))

namespace Workshop

/-- Filed rules are enforced wherever their nodes occur, up to copies left without the mark. -/
theorem filed_rules_enforced (calls : List WorkshopCall) :
    let shop := afterCalls calls
    -- No node with rules is ever irrelevant if no rule is filed beside an irrelevant copy.
    ((∀ before, before <+: calls → (afterCalls before).Enforced) ↔
      ∀ before rule, before ++ [.file rule] <+: calls →
        ∀ copy ∈ (afterCalls before).otherCopies, copy.isRelevant = true) ∧
    ∀ tree ∈ shop.trees, ∀ (settings : ValidatorSettings) (usable : settings.complaint? = none)
      (store : Store) (registry : Registry) (root : Value) (links : List Link),
      Chain store registry.answer tree root links → links.length ≤ settings.extraction.maxDepth →
      let validator : Validator := ⟨shop.book, settings, usable⟩
      let leaves := ((validator.scope store).extract tree root registry).1.leaves
      let violations := (validator.validate store tree root registry).1.violations
      let leaf := Chain.leaf tree root links
      -- A value within the limit is a leaf exactly if its node is relevant.
      (leaf ∈ leaves ↔ leaf.descriptor.isRelevant = true) ∧
      -- At a leaf all rules on its node are checked.
      (leaf ∈ leaves → (shop.book.leafViolations store leaf).Sublist violations) ∧
      -- Then all rules are checked on every value that is reached.
      (shop.Enforced → shop.book.rulesFor leaf.descriptor ≠ [] → leaf ∈ leaves) := by
  intro shop
  refine ⟨enforced_throughout_iff calls, ?_⟩
  intro tree standing settings usable store registry root links chain near validator leaves
    violations leaf
  have reported : leaf ∈ leaves ↔ leaf.descriptor.isRelevant = true :=
    (validator.scope store).leaf_mem_extract chain near
  refine ⟨reported, fun listed => validator.leafViolations_sublist store listed, ?_⟩
  intro enforced ruled
  -- The node of the leaf is one of those at hand.
  have known : leaf.descriptor ∈ shop.nodes :=
    Descriptor.mem_preorderAll.mpr ⟨tree, standing, chain.endNode_mem_preorder⟩
  exact reported.mpr (enforced leaf.descriptor known ruled)

/-! ### Blank texts in a sequence -/

def blanksKind : Kind := .sequence

/-- A sequence that holds a blank text. -/
def blanks : Collection := ⟨⟨0⟩, blanksKind, by decide⟩

def blankStore : Store where
  cells := #[some (.items [.text " "])]
  running := ⟨0⟩

/-- A rule is filed on a node for texts, and then a sequence is made of the node. -/
def markedNode : List WorkshopCall :=
  [.make (.simple .text) 0, .file .notBlank, .make (.parameterized .sequence) 1]

/-- The node for texts, marked before it is copied. -/
def markedText : Descriptor := (Descriptor.simple ⟨0⟩ .text).withDeclaredRules

/-- The sequence made of the node, whose slot has the mark. -/
def markedTexts : Descriptor := .parameterized ⟨1⟩ .sequence [markedText]

/-- The rule is filed before the node is copied, so a blank text in the sequence is against it. -/
theorem filed_rules_enforced_blank :
    let shop := afterCalls markedNode
    shop.Enforced ∧ "not_blank" ∈ ((Validator.standard shop.book).validate blankStore markedTexts
      (.node (.collection blanks)) .withDefaults).1.violations.map Violation.code := by
  intro shop
  obtain ⟨throughout, reported⟩ := filed_rules_enforced markedNode
  have enforced : shop.Enforced := by
    refine throughout.mpr ?_ markedNode List.prefix_rfl
    rintro before rule ⟨after, split⟩ copy listed
    -- Only the second call files a rule, when no other copy is at hand.
    match before with
    | [first] =>
      obtain ⟨rfl, -⟩ := List.cons.inj split
      exact absurd listed List.not_mem_nil
    | [] | [_, _] | _ :: _ :: _ :: _ => simp [markedNode] at split
  -- The text is one link away from the sequence.
  let link : Link := ⟨0, markedText, 0, ⟨"<list element>", some 0, .text " "⟩⟩
  have departs : link.Departs blankStore Registry.withDefaults.answer markedTexts
      (.node (.collection blanks)) := ⟨rfl, rfl, .builtin .sequenceElement, rfl, rfl⟩
  have standing : markedTexts ∈ shop.trees := List.mem_cons_self
  obtain ⟨_, checked, reached⟩ := reported markedTexts standing .standard rfl blankStore
    .withDefaults (.node (.collection blanks)) [link] (.link departs (.stop _ _)) (by decide)
  have found := checked (reached enforced (List.cons_ne_nil _ _))
  refine ⟨enforced, List.mem_map.mpr ⟨_, found.subset List.mem_cons_self, rfl⟩⟩

/-! ### A copy without the mark -/

/-- A node is copied, a rule is filed on the copy, and a sequence is made of the node itself. -/
def unmarkedCopy : List WorkshopCall :=
  [.make (.simple .text) 0, .copy 0, .file .notBlank, .bring 1, .make (.parameterized .sequence) 1]

end Workshop

/-- A copy made before the rule was filed has the rule but not the mark, so nothing is checked. -/
theorem unmarked_copy_unchecked :
    let shop := Workshop.afterCalls Workshop.unmarkedCopy
    let report (tree : Descriptor) (value : Value) :=
      ((Validator.standard shop.book).validate Workshop.blankStore tree value .withDefaults).1
    ∃ sequence copy slot, shop.trees = [sequence, copy] ∧ sequence.slots = [slot] ∧
      slot.id = copy.id ∧
      (shop.book.rulesFor slot).map Rule.code = ["not_blank"] ∧ slot.isRelevant = false ∧
      ¬shop.Enforced ∧
      (report sequence (.node (.collection Workshop.blanks))).leaves = 0 ∧
      (report sequence (.node (.collection Workshop.blanks))).violations = [] ∧
      (report copy (.text " ")).violations.map Violation.code = ["not_blank"] := by
  refine ⟨_, _, _, rfl, rfl, rfl, by decide, by decide, ?_, by decide, by decide, by decide⟩
  intro enforced
  -- The slot is the second of all nodes at hand.
  have relevant := enforced _ (List.mem_cons_of_mem _ List.mem_cons_self) (List.cons_ne_nil _ _)
  exact absurd relevant (by decide)

end GraphRules
