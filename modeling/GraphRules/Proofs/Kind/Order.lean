import GraphRules.Extractor.Basic
import Mathlib.Logic.Relation

/-! Assignability is the order of subtypes, in which every step up lowers the height of a kind. -/

namespace GraphRules

/-- A built-in kind stands before everything that stands above one of its parents. -/
theorem BuiltinKind.lineage_eq (kind : BuiltinKind) :
    kind.lineage = kind :: kind.parents.flatMap lineage := by
  -- The table of lineages is the table of parents, followed to the top.
  cases kind <;> rfl

/-- A parent has fewer kinds above it. -/
theorem BuiltinKind.length_lineage_lt {kind parent : BuiltinKind} (listed : parent ∈ kind.parents) :
    parent.lineage.length < kind.lineage.length := by
  -- Only four built-in kinds have a parent.
  revert listed
  cases kind <;> cases parent <;> decide

namespace Kind

/-- One kind is a direct supertype of another. -/
def Extends (kind above : Kind) : Prop := above ∈ kind.parents

/-! ### Heights -/

mutual

/-- How many kinds stand on the longest way up from a kind, the kind itself among them. -/
def height : Kind → Nat
  | .builtin kind => kind.lineage.length
  | .named _ supertypes => heightAll supertypes + 1

/-- The height of the highest kind of a list. -/
def heightAll : List Kind → Nat
  | [] => 0
  | kind :: rest => max kind.height (heightAll rest)

end

/-- No kind of a list is higher than the highest. -/
theorem height_le_heightAll {kind : Kind} {kinds : List Kind} (listed : kind ∈ kinds) :
    kind.height ≤ heightAll kinds := by
  -- The induction is on the kinds, of which the tallest is kept.
  induction kinds with
  | nil => simp at listed
  | cons first rest bounded =>
    rw [heightAll]
    rcases List.mem_cons.mp listed with rfl | later
    · exact Nat.le_max_left _ _
    · have below := bounded later
      omega

/-- A direct supertype is lower than the kind below it. -/
theorem Extends.height_lt {kind above : Kind} (up : kind.Extends above) :
    above.height < kind.height := by
  -- A built-in kind has a longer lineage than its parents, and a named kind one more level.
  cases kind with
  | builtin kind =>
    obtain ⟨parent, listed, rfl⟩ := List.mem_map.mp up
    simp only [height]
    exact BuiltinKind.length_lineage_lt listed
  | named name supertypes =>
    have bounded : above.height ≤ heightAll supertypes := height_le_heightAll up
    rw [height]
    omega

/-! ### One step of the search -/

/-- A built-in kind fits exactly where one of its lineage is expected. -/
theorem isAssignableTo_builtin {kind : BuiltinKind} {target : Kind} :
    (Kind.builtin kind).isAssignableTo target = true ↔ target ∈ kind.lineage.map Kind.builtin := by
  simp only [isAssignableTo, Bool.or_eq_true, decide_eq_true_eq, List.contains_iff_mem]
  -- The kind itself heads its lineage, so that the first test adds nothing.
  refine ⟨?_, .inr⟩
  rintro (rfl | listed)
  · rw [BuiltinKind.lineage_eq]
    exact List.mem_cons_self
  · exact listed

/-- A kind fits where it is expected itself, or where one of its direct supertypes fits. -/
theorem isAssignableTo_step {kind target : Kind} :
    kind.isAssignableTo target = true ↔
      kind = target ∨ ∃ above, kind.Extends above ∧ above.isAssignableTo target = true := by
  -- For built-in kinds the lineage is that of the parents, and for named kinds it is the rule
  -- itself.
  cases kind with
  | builtin kind =>
    rw [isAssignableTo_builtin, BuiltinKind.lineage_eq, List.map_cons, List.mem_cons,
      eq_comm (a := target), List.map_flatMap, List.mem_flatMap]
    refine or_congr_right ⟨?_, ?_⟩
    · rintro ⟨parent, listed, fits⟩
      exact ⟨.builtin parent, List.mem_map_of_mem listed, isAssignableTo_builtin.mpr fits⟩
    · rintro ⟨above, up, fits⟩
      obtain ⟨parent, listed, rfl⟩ := List.mem_map.mp up
      exact ⟨parent, listed, isAssignableTo_builtin.mp fits⟩
  | named name supertypes =>
    rw [isAssignableTo, anyAssignableTo_eq, Bool.or_eq_true, decide_eq_true_eq, List.any_eq_true]
    rfl

/-! ### Any number of steps -/

/-- A kind fits exactly where its supertypes lead, in any number of steps. -/
theorem isAssignableTo_iff {kind target : Kind} :
    kind.isAssignableTo target = true ↔ Relation.ReflTransGen Extends kind target := by
  constructor
  · -- The search goes up, where kinds are lower.
    intro fits
    induction height : kind.height using Nat.strongRecOn generalizing kind with
    | ind bound lower =>
      rcases isAssignableTo_step.mp fits with rfl | ⟨above, up, onwards⟩
      · exact .refl
      · have shrinks := up.height_lt
        exact .head up (lower above.height (by omega) onwards rfl)
  · intro reached
    induction reached using Relation.ReflTransGen.head_induction_on with
    | refl => exact isAssignableTo_step.mpr (.inl rfl)
    | head up _ fits => exact isAssignableTo_step.mpr (.inr ⟨_, up, fits⟩)

/-- Every kind fits where it is expected itself. -/
theorem isAssignableTo_refl (kind : Kind) : kind.isAssignableTo kind = true :=
  isAssignableTo_iff.mpr .refl

/-- A kind fits wherever a kind fits that it fits. -/
theorem isAssignableTo_trans {first second third : Kind}
    (below : first.isAssignableTo second = true) (above : second.isAssignableTo third = true) :
    first.isAssignableTo third = true :=
  isAssignableTo_iff.mpr ((isAssignableTo_iff.mp below).trans (isAssignableTo_iff.mp above))

/-- A kind fits only where a lower kind is expected, or the kind itself. -/
theorem eq_or_height_lt {kind target : Kind} (fits : kind.isAssignableTo target = true) :
    kind = target ∨ target.height < kind.height := by
  have reached := isAssignableTo_iff.mp fits
  induction reached with
  | refl => exact .inl rfl
  | tail before up ih =>
    have lower := up.height_lt
    -- The last step goes down in height, whatever the steps before it did.
    rcases ih (isAssignableTo_iff.mpr before) with rfl | earlier
    · exact .inr lower
    · exact .inr (by omega)

/-- Kinds that fit where the other is expected, both ways, are the same. -/
theorem isAssignableTo_antisymm {first second : Kind} (there : first.isAssignableTo second = true)
    (back : second.isAssignableTo first = true) : first = second := by
  -- Two different kinds would each be lower than the other.
  rcases eq_or_height_lt there with same | lower
  · exact same
  · rcases eq_or_height_lt back with same | higher
    · exact same.symm
    · omega

/-! ### What rests on the order -/

/-- What fits where a container is expected is a container. -/
theorem isContainer_of_isAssignableTo {kind target : Kind}
    (fits : kind.isAssignableTo target = true)
    (holds : target.isContainer = true) : kind.isContainer = true := by
  -- The target fits the head of some family, and so does every kind that fits the target.
  obtain ⟨family, listed, within⟩ := List.any_eq_true.mp holds
  exact List.any_eq_true.mpr ⟨family, listed, isAssignableTo_trans fits within⟩

/-- A key that covers a slot of a kind covers it for every kind that fits there. -/
theorem covers_of_isAssignableTo {kind target : Kind} (fits : kind.isAssignableTo target = true)
    {key : ExtractorKey} {slot : Nat} (covered : key.covers target slot = true) :
    key.covers kind slot = true := by
  -- The slot stays the same, and the kind fits where the target does.
  rw [ExtractorKey.covers, Bool.and_eq_true] at covered ⊢
  exact ⟨covered.1, isAssignableTo_trans fits covered.2⟩

/-- Assignability is reflexive, transitive and antisymmetric, and is the order of subtypes. -/
theorem assignability_is_subtype_order :
    (∀ kind : Kind, kind.isAssignableTo kind = true) ∧
    (∀ first second third : Kind, first.isAssignableTo second = true →
      second.isAssignableTo third = true → first.isAssignableTo third = true) ∧
    (∀ first second : Kind, first.isAssignableTo second = true →
      second.isAssignableTo first = true → first = second) ∧
    -- The other kind is reached in any number of steps to a direct supertype.
    (∀ kind target : Kind, kind.isAssignableTo target = true ↔
      Relation.ReflTransGen Extends kind target) ∧
    -- What fits where a container is expected is a container.
    (∀ kind target : Kind, kind.isAssignableTo target = true →
      target.isContainer = true → kind.isContainer = true) ∧
    (∀ head ∈ containerHeads, head.isContainer = true) ∧
    -- An extractor that serves what its key covers serves every kind that fits there.
    ∀ kind target : Kind, kind.isAssignableTo target = true →
      ∀ extractor : Extractor, extractor.appliesTo = extractor.key.covers →
        ∀ slot, extractor.appliesTo target slot = true → extractor.appliesTo kind slot = true := by
  refine ⟨isAssignableTo_refl, ?_, ?_, ?_, ?_, ?_, ?_⟩
  · intro first second third
    exact isAssignableTo_trans
  · intro first second
    exact isAssignableTo_antisymm
  · intro kind target
    exact isAssignableTo_iff
  · intro kind target
    exact isContainer_of_isAssignableTo
  · -- A head is expected where it stands itself.
    exact fun head listed => List.any_eq_true.mpr ⟨head, listed, isAssignableTo_refl head⟩
  · intro kind target fits extractor usual slot serves
    rw [usual] at serves ⊢
    exact covers_of_isAssignableTo fits serves

/-- A declared list, and a list that is declared on top of it. -/
def rota : Kind := .named "Rota" [.sequence]

def nightRota : Kind := .named "NightRota" [rota]

/-- Two steps above its declaration, a list is still a collection that is read as a sequence. -/
theorem assignability_is_subtype_order_rota :
    nightRota.isAssignableTo .collection = true ∧ rota.isAssignableTo nightRota = false ∧
      Relation.ReflTransGen Extends nightRota .collection ∧ nightRota.isContainer = true ∧
      (Extractor.builtin .sequenceElement).appliesTo nightRota 0 = true := by
  obtain ⟨_, composed, antisymmetric, reached, contained, heads, served⟩ :=
    assignability_is_subtype_order
  have up : nightRota.isAssignableTo rota = true := by decide
  have fits : nightRota.isAssignableTo .collection = true :=
    composed nightRota rota .collection up (by decide)
  have iterable : nightRota.isAssignableTo .iterable = true := by decide
  refine ⟨fits, ?_, (reached nightRota .collection).mp fits, ?_, ?_⟩
  · -- The kinds differ, so they do not fit both ways.
    refine Bool.eq_false_iff.mpr fun back => ?_
    exact absurd (antisymmetric nightRota rota up back) (by decide)
  · exact contained nightRota .iterable iterable (heads .iterable (by decide))
  · exact served nightRota rota up (.builtin .sequenceElement) rfl 0 (by decide)

end Kind

end GraphRules
