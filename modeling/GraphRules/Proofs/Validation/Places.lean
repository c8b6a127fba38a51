import GraphRules.Proofs.Path.Text
import GraphRules.Proofs.Registry.Memory
import GraphRules.Proofs.Rule.Contract
import GraphRules.Proofs.Validation.Enforcement

/-! Places told by their texts, where none but built-in extractors lead to the leaves. -/

namespace GraphRules

/-! ### Names of steps -/

namespace Yield

/-- Values without an order go by the name that they are given. -/
theorem name_of_mem_plain {name : String} {values : List Value} {reported : Reported}
    (listed : reported ∈ (plain name values).reported) : reported.name = name := by
  -- Only the value differs from one to the next.
  obtain ⟨_, _, rfl⟩ := List.mem_map.mp listed
  rfl

/-- So do values in order. -/
theorem name_of_mem_indexed {name : String} {values : List Value} {reported : Reported}
    (listed : reported ∈ (indexed name values).reported) : reported.name = name := by
  -- The value differs, and so does the position.
  obtain ⟨_, _, rfl⟩ := List.mem_map.mp listed
  rfl

end Yield

namespace BuiltinExtractor

/-- Whatever a built-in extractor reports goes by the one name that it has for steps. -/
theorem name_of_mem_extract {extractor : BuiltinExtractor} {store : Store} {container : Value}
    {reported : Reported} (listed : reported ∈ (extractor.extract store container).reported) :
    reported.name = extractor.stepName := by
  unfold extract at listed
  cases opened : extractor.report? store container with
  | none =>
    -- On a container of another shape it fails with nothing reported.
    rw [opened] at listed
    cases listed
  | some yield =>
    rw [opened, Option.getD_some] at listed
    unfold report? at opened
    dsimp only at opened
    -- Every shape that is opened gives values under that name, in order or not.
    split at opened <;> cases opened <;>
      first | exact Yield.name_of_mem_plain listed | exact Yield.name_of_mem_indexed listed

/-- The names of steps are plain. -/
theorem plain_stepName (extractor : BuiltinExtractor) : PlainName extractor.stepName := by
  -- Ten extractors have eight names, each in angle brackets.
  cases extractor <;> exact ⟨by decide, by decide, by decide⟩

end BuiltinExtractor

/-- Every step of a path goes by a name that a built-in extractor has for steps. -/
def Path.Builtin (path : Path) : Prop :=
  ∀ segment ∈ path.segments, ∃ extractor : BuiltinExtractor, segment.name = extractor.stepName

/-- Such a path is plain. -/
theorem Path.Builtin.plain {path : Path} (builtin : path.Builtin) : path.Plain := by
  intro segment listed
  -- The names of the extractors are plain, and the path has no others.
  obtain ⟨extractor, named⟩ := builtin segment listed
  rw [named]
  exact extractor.plain_stepName

/-! ### Extraction by built-in extractors -/

/-- An extractor comes with the library. -/
def Extractor.IsBuiltin (extractor : Extractor) : Prop := ∃ builtin, extractor = .builtin builtin

/-- All extractors pinned in a tree come with the library. -/
def Descriptor.PinsBuiltin (descriptor : Descriptor) : Prop :=
  ∀ node ∈ descriptor.preorder, ∀ extractor, node.extractor = some extractor → extractor.IsBuiltin

/-- What holds of the extractors pinned in a tree holds of those pinned below a slot. -/
theorem Descriptor.PinsBuiltin.slot {descriptor inner : Descriptor} (pins : descriptor.PinsBuiltin)
    (slotted : inner ∈ descriptor.slots) : inner.PinsBuiltin := by
  intro node listed
  refine pins node ?_
  -- What is below a slot is below the node.
  rw [preorder_eq]
  exact List.mem_cons_of_mem _ (mem_preorderAll.mpr ⟨inner, slotted, listed⟩)

/-- Whatever was done with a registry, it finds a built-in extractor if no other was registered. -/
theorem Registry.builtin_of_answer {withBuiltin : Bool} {uses : List RegistryUse}
    (registered : ∀ extractor ∈ uses.filterMap RegistryUse.registered?, extractor.IsBuiltin)
    {kind : Kind} {slot : Nat} {extractor : Extractor}
    (found : ((make withBuiltin).afterUses uses).answer kind slot = some extractor) :
    extractor.IsBuiltin := by
  -- What was done comes down to calls, after which the latest of all registered extractors is
  -- found.
  obtain ⟨calls, reached, same⟩ := exists_calls_afterUses (make withBuiltin) uses
  have latest := isLatest_afterCalls withBuiltin calls kind slot
  rw [answer, reached] at found
  rw [found, same] at latest
  obtain ⟨_, earlier, later, split, _⟩ := latest
  have listed : extractor ∈ (make withBuiltin).extractors ++
      uses.filterMap RegistryUse.registered? := by
    rw [split]
    exact List.mem_append_right _ List.mem_cons_self
  -- It was there from the start, or it was registered.
  rcases List.mem_append.mp listed with start | added
  · cases withBuiltin with
    | false => cases start
    | true =>
      obtain ⟨builtin, _, rfl⟩ := List.mem_map.mp start
      exact ⟨builtin, rfl⟩
  · exact registered extractor added

/-- The links of a chain by built-in extractors go by their names for steps. -/
theorem Chain.builtin_segment {store : Store} {answer : Kind → Nat → Option Extractor}
    (answers : ∀ kind slot extractor, answer kind slot = some extractor → extractor.IsBuiltin)
    {descriptor : Descriptor} {value : Value} {links : List Link}
    (chain : Chain store answer descriptor value links) (pins : descriptor.PinsBuiltin) :
    ∀ link ∈ links, ∃ extractor : BuiltinExtractor, link.segment.name = extractor.stepName := by
  induction chain with
  | stop => nofun
  | @link descriptor value first rest departs _ later =>
    -- The chain goes on below the slot, where nothing else is pinned either.
    have inner := pins.slot (List.mem_of_getElem? departs.slotted)
    refine List.forall_mem_cons.mpr ⟨?_, later inner⟩
    obtain ⟨extractor, served, held⟩ := departs.reports
    -- The extractor is pinned at the slot, or it answers for the kind at hand.
    have library : extractor.IsBuiltin := by
      rcases Option.or_eq_some_iff.mp served with pinned | ⟨_, answered⟩
      · refine inner first.inner ?_ extractor pinned
        rw [Descriptor.preorder_eq]
        exact List.mem_cons_self
      · exact answers _ _ _ answered
    obtain ⟨builtin, rfl⟩ := library
    exact ⟨builtin, BuiltinExtractor.name_of_mem_extract (List.mem_of_getElem? held)⟩

/-- The leaves of an extraction by built-in extractors have paths of their names. -/
theorem Scope.builtin_path_of_mem_extract {scope : Scope} {descriptor : Descriptor} {root : Value}
    {registry : Registry}
    (answers : ∀ kind slot extractor, registry.answer kind slot = some extractor →
      extractor.IsBuiltin)
    (pins : descriptor.PinsBuiltin) {leaf : Leaf}
    (reported : leaf ∈ (scope.extract descriptor root registry).1.leaves) : leaf.path.Builtin := by
  rw [extract_leaves_eq] at reported
  obtain ⟨links, among, rfl⟩ := List.mem_map.mp reported
  have chain := (mem_chains.mp (List.mem_filter.mp among).1).1
  -- The path of the leaf are the steps of its chain.
  exact List.forall_mem_map.mpr (chain.builtin_segment answers pins)

/-! ### Places of violations -/

/-- A violation is reported on a leaf for a built-in rule that was filed on its node. -/
def RuleBook.Charges (book : RuleBook) (store : Store) (leaf : Leaf) (violation : Violation) :
    Prop :=
  ∃ builtin : BuiltinRule, builtin.rule ∈ book.rulesFor leaf.descriptor ∧
    (builtin.rule.check store leaf.value).map (Violation.atLeaf leaf.path) = some violation

namespace RuleBook.Charges

variable {book : RuleBook} {store : Store} {leaf : Leaf} {violation : Violation}

/-- It is one of the violations of the rules on the node of the leaf. -/
theorem mem_leafViolations (charged : book.Charges store leaf violation) :
    violation ∈ book.leafViolations store leaf := by
  -- Among the rules on the node is the one that made it.
  obtain ⟨builtin, filed, placed⟩ := charged
  exact List.mem_filterMap.mpr ⟨builtin.rule, filed, placed⟩

/-- Its place is the text of the leaf's path, and left out where that is empty. -/
theorem path_getD (charged : book.Charges store leaf violation) :
    violation.path.getD "" = leaf.path.text := by
  obtain ⟨builtin, _, placed⟩ := charged
  obtain ⟨own, rejected, rfl⟩ := Option.map_eq_some_iff.mp placed
  unfold Violation.atLeaf
  split
  · next root =>
    -- The rule does not know the place, and at the root nothing is added.
    have path : leaf.path = .root := congrArg Path.mk (List.isEmpty_iff.mp root)
    rw [(BuiltinRule.own_of_check rejected).path_eq, path]
    rfl
  · rfl

end RuleBook.Charges

/-- The text of a path tells the path, as long as its steps have the built-in names. -/
theorem path_text_tells :
    (∀ first second : Path, first.Builtin → second.Builtin → first.text = second.text →
      first = second) ∧
    (∀ path : Path, path.Builtin → (path.text = "" ↔ path = .root)) ∧
    -- Violations at the same place are on leaves of the same path, whatever was validated.
    (∀ first second : Leaf, first.path.Builtin → second.path.Builtin →
      ∀ (book other : RuleBook) (store another : Store) (here there : Violation),
        book.Charges store first here → other.Charges another second there →
          here.path = there.path → first.path = second.path) ∧
    -- With built-in extractors alone, all leaves have such paths and such violations.
    ∀ (withBuiltin : Bool) (uses : List RegistryUse) (descriptor : Descriptor),
      (∀ extractor ∈ uses.filterMap RegistryUse.registered?, extractor.IsBuiltin) →
        descriptor.PinsBuiltin →
        ∀ (validator : Validator) (store : Store) (value : Value),
          let registry := (Registry.make withBuiltin).afterUses uses
          ∀ leaf ∈ ((validator.scope store).extract descriptor value registry).1.leaves,
            leaf.path.Builtin ∧
            ∀ violation, validator.book.Charges store leaf violation →
              violation ∈ (validator.validate store descriptor value registry).1.violations := by
  refine ⟨?_, ?_, ?_, ?_⟩
  · intro first second builtin alike same
    exact Path.eq_of_text_eq builtin.plain alike.plain same
  · intro path builtin
    exact Path.text_eq_empty_iff builtin.plain
  · intro first second builtin alike book other store another here there charged blamed same
    -- The place of a violation gives the text of the path, also at the root.
    have texts : first.path.text = second.path.text := by
      rw [← charged.path_getD, ← blamed.path_getD, same]
    exact Path.eq_of_text_eq builtin.plain alike.plain texts
  · intro withBuiltin uses descriptor registered pins validator store value registry leaf reported
    -- Whatever is found or pinned on the way to the leaf, it is a built-in extractor.
    have answers : ∀ kind slot extractor, registry.answer kind slot = some extractor →
        extractor.IsBuiltin :=
      fun _ _ _ found => Registry.builtin_of_answer registered found
    refine ⟨Scope.builtin_path_of_mem_extract answers pins reported, fun violation charged => ?_⟩
    exact (validator.leafViolations_sublist store reported).subset charged.mem_leafViolations

/-! ### A blank line and an empty one -/

namespace Lines

def kind : Kind := .sequence

/-- A sequence of lines of text. -/
def sequence : Value := .node (.collection ⟨⟨0⟩, kind, by decide⟩)

def store (lines : List String) : Store where
  cells := #[some (.items (lines.map .text))]
  running := ⟨0⟩

def line : Descriptor := (Descriptor.simple ⟨0⟩ .text).withDeclaredRules

def descriptor : Descriptor := .parameterized ⟨1⟩ .sequence [line]

/-- A validator with one rule, which is on lines. -/
def validator (rule : BuiltinRule) : Validator :=
  .standard (RuleBook.empty.constrain line rule.rule).2

/-- The second line as a leaf. -/
def second (content : String) : Leaf :=
  ⟨line, .text content, Position.root.inside sequence 0 ⟨"<list element>", some 1, .text content⟩⟩

theorem pins : descriptor.PinsBuiltin := by
  -- There are two nodes, and neither has an extractor pinned.
  intro node listed extractor pinned
  simp only [descriptor, line, Descriptor.parameterized, Descriptor.simple, Descriptor.plain,
    Descriptor.withDeclaredRules, Descriptor.preorder, Descriptor.preorderAll, List.append_nil,
    List.mem_cons,
    List.not_mem_nil, or_false] at listed
  rcases listed with rfl | rfl <;> cases pinned

end Lines

/-- The second line breaks one rule or another, and both reports lead there by the same path. -/
theorem path_text_tells_second :
    let registry := (Registry.make true).afterUses []
    let report (rule : BuiltinRule) (line : String) :=
      ((Lines.validator rule).validate
        (Lines.store ["word", line]) Lines.descriptor Lines.sequence registry).1
    ∃ here ∈ (report .notBlank " ").violations,
      ∃ there ∈ (report (.length 1 countLimit) "").violations,
      here.code = "not_blank" ∧ there.code = "length" ∧ here.path = some "<list element>[1]" ∧
        here.path = there.path ∧ (Lines.second " ").path = (Lines.second "").path := by
  intro registry report
  -- Both lines are leaves of their sequences, and each breaks the one rule on it.
  obtain ⟨_, _, determines, extracted⟩ := path_text_tells
  have unregistered : ∀ extractor ∈ ([] : List RegistryUse).filterMap RegistryUse.registered?,
      extractor.IsBuiltin := nofun
  have found (rule : BuiltinRule) (content : String) :=
    extracted true [] Lines.descriptor unregistered Lines.pins
    (Lines.validator rule) (Lines.store ["word", content]) Lines.sequence (Lines.second content)
    (List.mem_cons_of_mem _ List.mem_cons_self)
  obtain ⟨builtin, reported⟩ := found .notBlank " "
  obtain ⟨alike, told⟩ := found (.length 1 countLimit) ""
  -- The rule that is broken charges the second line with the violation.
  have charged : (Lines.validator .notBlank).book.Charges (Lines.store ["word", " "])
      (Lines.second " ") _ :=
    ⟨.notBlank, List.mem_cons_self, rfl⟩
  have blamed : (Lines.validator (.length 1 countLimit)).book.Charges (Lines.store ["word", ""])
      (Lines.second "") _ :=
    ⟨.length 1 countLimit, List.mem_cons_self, rfl⟩
  -- The violations have one path, which only one place can have.
  have place := determines _ _ builtin alike _ _ _ _ _ _ charged blamed rfl
  exact ⟨_, reported _ charged, _, told _ blamed, rfl, rfl, rfl, rfl, place⟩

end GraphRules
