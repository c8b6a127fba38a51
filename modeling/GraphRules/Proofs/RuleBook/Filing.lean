import GraphRules.Proofs.RuleBook.Table
import GraphRules.RuleBook

/-! Filing a rule on a member. -/

namespace GraphRules

/-- A rule on a member of objects of a kind. -/
structure MemberRule where
  kind : Kind
  member : String
  rule : Rule

namespace RuleBook

/-- The kinds that rules on members were filed under, in order of their first rule. -/
def declaringKinds (book : RuleBook) : List Kind := book.members.keys

/-- The rules filed on a member under exactly one kind. -/
def ownRules (book : RuleBook) (kind : Kind) (member : String) : List Rule :=
  ((book.members.get? kind).bind (·.get? member)).getD []

variable (book : RuleBook)

/-- The rules on a member come in groups, one for each kind that objects of the kind fit. -/
theorem memberRules_eq (owner : Kind) (name : String) :
    book.memberRules owner name =
      (book.declaringKinds.filter owner.isAssignableTo).flatMap (book.ownRules · name) := by
  rw [memberRules, List.filterMap_eq_flatMap_toList, declaringKinds, Table.keys, List.filter_map,
    List.flatMap_map, ← List.flatMap_id', List.flatMap_assoc]
  refine List.flatMap_congr fun entry applies => ?_
  -- With distinct keys, the table of an entry is the one found under its kind.
  have listed := List.mem_of_mem_filter applies
  rw [ownRules, Table.get?_of_mem listed, Option.bind_some]
  cases entry.2.get? name <;> simp

/-- A kind under which a rule is filed for the first time goes behind all others. -/
theorem declaringKinds_constrainMember (kind : Kind) (member : String) (rule : Rule) :
    (book.constrainMember kind member rule).declaringKinds =
      if kind ∈ book.declaringKinds then book.declaringKinds
      else book.declaringKinds ++ [kind] :=
  -- The outer table is changed at the kind.
  book.members.keys_change kind _ _

/-- A rule goes to the end of those on its member under its kind, and leaves others alone. -/
theorem ownRules_constrainMember (kind : Kind) (member : String) (rule : Rule) (declaring : Kind)
    (name : String) :
    (book.constrainMember kind member rule).ownRules declaring name =
      book.ownRules declaring name ++ if kind = declaring ∧ member = name then [rule] else [] := by
  rw [ownRules, constrainMember, Table.get?_change]
  by_cases under : kind = declaring
  · -- The table of the kind changes, or there is none yet and a new one does.
    subst under
    rw [if_pos rfl, Option.bind_some, Table.get?_change, ownRules]
    by_cases own : member = name
    · subst own
      cases book.members.get? kind <;> simp
    · cases book.members.get? kind <;> simp [own]
  · rw [if_neg under, if_neg fun own => under own.1, List.append_nil, ownRules]

/-- No kind is listed twice. -/
theorem declaringKinds_distinct : book.declaringKinds.Nodup := book.members.distinct

/-- Nothing was filed under a kind that is not listed. -/
theorem ownRules_of_not_declaring {declaring : Kind} (unlisted : declaring ∉ book.declaringKinds)
    (name : String) : book.ownRules declaring name = [] := by
  -- The kind has no table of its own.
  rw [ownRules, Table.get?_eq_none unlisted]
  rfl

/-- Under other kinds than that of the new rule, nothing changes. -/
theorem flatMap_ownRules_constrainMember {kinds : List Kind} {kind : Kind} (others : kind ∉ kinds)
    (member : String) (rule : Rule) (name : String) :
    kinds.flatMap ((book.constrainMember kind member rule).ownRules · name) =
      kinds.flatMap (book.ownRules · name) := by
  -- The change is under a kind that is not among these.
  refine List.flatMap_congr fun declaring listed => ?_
  have differs : ¬(kind = declaring ∧ member = name) := fun own => others (own.1 ▸ listed)
  rw [ownRules_constrainMember, if_neg differs, List.append_nil]

/-- A new rule on a member stands at one place if it applies, and the others keep their order. -/
theorem memberRules_constrainMember (kind : Kind) (member : String) (rule : Rule) (owner : Kind)
    (name : String) :
    ∃ before after, book.memberRules owner name = before ++ after ∧
      (book.constrainMember kind member rule).memberRules owner name =
        before ++ (if owner.isAssignableTo kind = true ∧ member = name then [rule] else []) ++
          after := by
  rw [memberRules_eq, memberRules_eq]
  by_cases fits : owner.isAssignableTo kind = true
  · rw [declaringKinds_constrainMember]
    by_cases known : kind ∈ book.declaringKinds
    · rw [if_pos known]
      obtain ⟨earlier, later, split⟩ := List.append_of_mem known
      have distinct := book.declaringKinds_distinct
      rw [split] at distinct ⊢
      -- The group of the kind grows at its end, and it is the only one that grows.
      obtain ⟨_, behind, apart⟩ := List.nodup_append.mp distinct
      have notEarlier : kind ∉ earlier.filter owner.isAssignableTo := fun listed =>
        apart kind (List.mem_of_mem_filter listed) kind List.mem_cons_self rfl
      have notLater : kind ∉ later.filter owner.isAssignableTo := fun listed =>
        (List.nodup_cons.mp behind).1 (List.mem_of_mem_filter listed)
      refine ⟨(earlier.filter owner.isAssignableTo).flatMap (book.ownRules · name) ++
          book.ownRules kind name,
        (later.filter owner.isAssignableTo).flatMap (book.ownRules · name), ?_, ?_⟩
      · rw [List.filter_append, List.filter_cons_of_pos fits, List.flatMap_append,
          List.flatMap_cons, List.append_assoc]
      · rw [List.filter_append, List.filter_cons_of_pos fits, List.flatMap_append,
          List.flatMap_cons, flatMap_ownRules_constrainMember book notEarlier,
          flatMap_ownRules_constrainMember book notLater, ownRules_constrainMember]
        simp only [fits, true_and, List.append_assoc]
    · rw [if_neg known]
      -- A group of its own stands behind all others.
      have others : kind ∉ book.declaringKinds.filter owner.isAssignableTo := fun listed =>
        known (List.mem_of_mem_filter listed)
      refine ⟨_, [], (List.append_nil _).symm, ?_⟩
      rw [List.filter_append, List.filter_cons_of_pos fits, List.filter_nil, List.flatMap_append,
        List.flatMap_singleton, flatMap_ownRules_constrainMember book others,
        ownRules_constrainMember,
        ownRules_of_not_declaring book known]
      simp only [fits, true_and, List.nil_append, List.append_nil]
  · -- No rule of the group applies to such objects, so that nothing is new.
    have kept : (book.constrainMember kind member rule).declaringKinds.filter owner.isAssignableTo =
        book.declaringKinds.filter owner.isAssignableTo := by
      rw [declaringKinds_constrainMember]
      split
      · rfl
      · rw [List.filter_append, List.filter_cons_of_neg fits, List.filter_nil, List.append_nil]
    have others : kind ∉ book.declaringKinds.filter owner.isAssignableTo := fun listed =>
      fits (List.of_mem_filter listed)
    refine ⟨_, [], (List.append_nil _).symm, ?_⟩
    rw [kept, flatMap_ownRules_constrainMember book others, if_neg fun own => fits own.1]
    simp only [List.append_nil]

end RuleBook

end GraphRules
