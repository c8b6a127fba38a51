import GraphRules.Proofs.Basic
import GraphRules.Proofs.Kind.Order
import GraphRules.Proofs.RuleBook.Filing
import GraphRules.Rule.Text
import Mathlib.Data.List.Flatten
import Mathlib.Data.List.Induction

/-! A rule book as a log of what was filed, in order and in groups by kind. -/

namespace GraphRules

/-- A call that files a rule. -/
inductive Filing
  /-- Files a rule on some copy of a node. -/
  | onNode (descriptor : Descriptor) (rule : Rule)
  /-- Files a rule on a member of objects of a kind. -/
  | onMember (kind : Kind) (member : String) (rule : Rule)

namespace Filing

/-- The rule, if it is filed on the node with an identity. -/
def ruleOn? (id : DescriptorId) : Filing → Option Rule
  | .onNode descriptor rule => if descriptor.id = id then some rule else none
  | .onMember _ _ _ => none

/-- The kind under which a rule is filed on some member. -/
def kind? : Filing → Option Kind
  | .onNode _ _ => none
  | .onMember kind _ _ => some kind

/-- The rule, if it is filed on a member under exactly this kind. -/
def ruleUnder? (declaring : Kind) (name : String) : Filing → Option Rule
  | .onNode _ _ => none
  | .onMember kind member rule => if kind = declaring ∧ member = name then some rule else none

/-- The rule, if it is filed on a member under a kind that the owner fits. -/
def ruleFor? (owner : Kind) (name : String) : Filing → Option Rule
  | .onNode _ _ => none
  | .onMember kind member rule =>
    if owner.isAssignableTo kind = true ∧ member = name then some rule else none

end Filing

namespace RuleBook

/-- The book after a call. -/
def file (book : RuleBook) : Filing → RuleBook
  | .onNode descriptor rule => (book.constrain descriptor rule).2
  | .onMember kind member rule => book.constrainMember kind member rule

/-- The book after calls in order, from the beginning. -/
def filed (filings : List Filing) : RuleBook := filings.foldl file .empty

/-- One more call is made after all others. -/
theorem filed_concat (filings : List Filing) (last : Filing) :
    filed (filings ++ [last]) = (filed filings).file last :=
  List.foldl_append

variable (book : RuleBook) (filing : Filing)

/-! ### One more call -/

/-- A call files one rule. -/
theorem size_file : (book.file filing).size = book.size + 1 := by
  have longer (rule : Rule) (rules : List Rule) : (rules ++ [rule]).length = rules.length + 1 :=
    List.length_append
  cases filing with
  | onNode descriptor rule =>
    -- The list of the node grows by a rule, and so does the table.
    have counted := book.declared.total_change List.length descriptor.withDeclaredRules.id
      List.length_nil (longer rule)
    simp only [file, constrain, size]
    omega
  | onMember kind member rule =>
    -- The table of the kind grows by a rule, and so do the tables of all kinds together.
    have inner (table : Table String (List Rule)) :=
      table.total_change List.length member List.length_nil (longer rule)
    have empty : (Table.empty : Table String (List Rule)).total List.length = 0 := rfl
    have counted := book.members.total_change (·.total List.length) kind empty inner
    simp only [file, constrainMember, size]
    omega

/-- A call adds its rule to those on its node, and leaves those on all other nodes alone. -/
theorem rulesFor_file (descriptor : Descriptor) :
    (book.file filing).rulesFor descriptor =
      book.rulesFor descriptor ++ (filing.ruleOn? descriptor.id).toList := by
  cases filing with
  | onNode filed rule =>
    -- The rule is filed under the identity of the marked node, which is that of the node.
    have marked : filed.withDeclaredRules.id = filed.id := rfl
    simp only [file, constrain, rulesFor, Filing.ruleOn?, Table.get?_change, marked]
    by_cases same : filed.id = descriptor.id <;> simp [same]
  | onMember kind member rule =>
    -- Rules on members are kept apart.
    simp [file, constrainMember, rulesFor, Filing.ruleOn?]

/-- A call lists its kind behind all others, unless the kind is listed already. -/
theorem declaringKinds_file :
    (book.file filing).declaringKinds =
      match filing.kind? with
      | none => book.declaringKinds
      | some kind =>
        if kind ∈ book.declaringKinds then book.declaringKinds
        else book.declaringKinds ++ [kind] := by
  -- A rule on a node touches no table of members.
  cases filing with
  | onNode descriptor rule => rfl
  | onMember kind member rule => exact book.declaringKinds_constrainMember kind member rule

/-- A call adds its rule to those on its member under its kind, and leaves all others alone. -/
theorem ownRules_file (declaring : Kind) (name : String) :
    (book.file filing).ownRules declaring name =
      book.ownRules declaring name ++ (filing.ruleUnder? declaring name).toList := by
  -- A rule on a node is under no kind, and one on a member under its own kind and name.
  cases filing with
  | onNode descriptor rule => simp [file, constrain, ownRules, Filing.ruleUnder?]
  | onMember kind member rule =>
    simp only [file, Filing.ruleUnder?, ownRules_constrainMember]
    by_cases own : kind = declaring ∧ member = name <;> simp [own]

/-- A call puts its rule once among those on its member, if the owner fits its kind. -/
theorem memberRules_file_perm (owner : Kind) (name : String) :
    ((book.file filing).memberRules owner name).Perm
      (book.memberRules owner name ++ (filing.ruleFor? owner name).toList) := by
  cases filing with
  | onNode descriptor rule =>
    -- Rules on nodes are kept apart.
    simp [file, constrain, memberRules, Filing.ruleFor?]
  | onMember kind member rule =>
    -- The new rule stands at one place between the others.
    obtain ⟨before, after, was, now⟩ := book.memberRules_constrainMember kind member rule owner name
    simp only [file, Filing.ruleFor?, was, now]
    by_cases fits : owner.isAssignableTo kind = true ∧ member = name
    · simp only [if_pos fits, Option.toList_some, List.append_assoc, List.singleton_append]
      rw [← List.append_assoc before after [rule]]
      exact List.perm_middle.trans (List.perm_append_singleton rule (before ++ after)).symm
    · simp [fits]

/-! ### All calls -/

/-- A book has as many rules as calls were made. -/
theorem size_filed (filings : List Filing) : (filed filings).size = filings.length := by
  -- The induction is on the filings from the last one, which adds one rule.
  induction filings using List.reverseRecOn with
  | nil => rfl
  | append_singleton filings last counted =>
    rw [filed_concat, size_file, counted, List.length_append, List.length_singleton]

/-- The rules on a node are those filed there, in order. -/
theorem rulesFor_filed (filings : List Filing) (descriptor : Descriptor) :
    (filed filings).rulesFor descriptor = filings.filterMap (·.ruleOn? descriptor.id) := by
  -- The induction is on the filings from the last one, which is added behind the others.
  induction filings using List.reverseRecOn with
  | nil => rfl
  | append_singleton filings last logged =>
    rw [filed_concat, rulesFor_file, logged, Lists.filterMap_concat]

/-- The kinds of rules on members are listed in order of their first rule. -/
theorem declaringKinds_filed (filings : List Filing) :
    (filed filings).declaringKinds = (filings.filterMap (·.kind?)).eraseDups := by
  induction filings using List.reverseRecOn with
  | nil => rfl
  | append_singleton filings last logged =>
    rw [filed_concat, declaringKinds_file, logged, Lists.filterMap_concat, List.eraseDups_append]
    cases under : last.kind? with
    | none => simp [List.removeAll]
    | some kind =>
      generalize filings.filterMap (·.kind?) = kinds
      -- A kind is listed exactly if a rule was filed under it before.
      by_cases known : kind ∈ kinds
      · simp [List.removeAll, known]
      · simp [List.removeAll, known, List.eraseDups_cons]

/-- The rules on a member under one kind are those filed there, in order. -/
theorem ownRules_filed (filings : List Filing) (declaring : Kind) (name : String) :
    (filed filings).ownRules declaring name = filings.filterMap (·.ruleUnder? declaring name) := by
  -- The induction is on the filings from the last one, which is added behind the others.
  induction filings using List.reverseRecOn with
  | nil => rfl
  | append_singleton filings last logged =>
    rw [filed_concat, ownRules_file, logged, Lists.filterMap_concat]

/-- The rules on a member are those filed for it under kinds that the owner fits, each once. -/
theorem memberRules_filed_perm (filings : List Filing) (owner : Kind) (name : String) :
    ((filed filings).memberRules owner name).Perm (filings.filterMap (·.ruleFor? owner name)) := by
  -- The last rule goes to the end of its own group, which is some place among the others.
  induction filings using List.reverseRecOn with
  | nil => exact List.Perm.refl []
  | append_singleton filings last logged =>
    rw [filed_concat, Lists.filterMap_concat]
    have one := (filed filings).memberRules_file_perm last owner name
    exact one.trans (logged.append_right _)

/-- What applies to a member under a kind applies in the same order under any lower kind. -/
theorem memberRules_sublist {lower upper : Kind} (fits : lower.isAssignableTo upper = true)
    (name : String) :
    (book.memberRules upper name).Sublist (book.memberRules lower name) := by
  -- The groups of the upper kind are among those of the lower one.
  have groups : (book.declaringKinds.filter upper.isAssignableTo).Sublist
      (book.declaringKinds.filter lower.isAssignableTo) := by
    apply List.monotone_filter_right
    intro declaring above
    exact Kind.isAssignableTo_trans fits above
  rw [memberRules_eq, memberRules_eq]
  exact groups.flatMap _

/-- After any calls in any order, a book answers with what was filed, each rule once. -/
theorem filed_answers (filings : List Filing) :
    -- As many rules as calls were made.
    (filed filings).size = filings.length ∧
    -- The rules on a node are those filed on a copy of it, in order.
    (∀ descriptor,
      (filed filings).rulesFor descriptor = filings.filterMap (·.ruleOn? descriptor.id)) ∧
    -- Those on a member come in groups, by the first rule of each kind that the owner fits.
    (∀ owner name, (filed filings).memberRules owner name =
      ((filings.filterMap (·.kind?)).eraseDups.filter owner.isAssignableTo).flatMap fun declaring =>
        filings.filterMap (·.ruleUnder? declaring name)) ∧
    -- So they are those filed for the member under such a kind, each exactly once.
    (∀ owner name, ((filed filings).memberRules owner name).Perm
      (filings.filterMap (·.ruleFor? owner name))) ∧
    -- What applies to an upper kind applies to a lower one, in the same order.
    ∀ lower upper : Kind, lower.isAssignableTo upper = true → ∀ name,
      ((filed filings).memberRules upper name).Sublist
        ((filed filings).memberRules lower name) := by
  -- What each question answers was told filing by filing; groups stay apart since kinds do.
  refine ⟨size_filed filings, rulesFor_filed filings, ?grouped, memberRules_filed_perm filings,
    ?inherited⟩
  case grouped =>
    intro owner name
    simp only [memberRules_eq, declaringKinds_filed, ownRules_filed]
  case inherited =>
    intro lower upper fits name
    exact memberRules_sublist (filed filings) fits name

namespace Diamond

def base : Kind := .objectType "Base"

def left : Kind := .named "Left" [base]

def right : Kind := .named "Right" [base]

/-- A kind from which two ways lead up to the base. -/
def bottom : Kind := .named "Bottom" [left, right]

/-- Rules on one member under two kinds in turn, and one on another member. -/
def filings : List Filing :=
  [.onMember left "name" .notBlank, .onMember base "name" .notNull, .onMember right "size" .notNull,
    .onMember left "name" (.length 1 80)]

end Diamond

/-- The rule of the base applies once at the bottom, behind those of the first kind. -/
theorem filed_answers_diamond :
    Diamond.bottom.isAssignableTo Diamond.base = true ∧
      (filed Diamond.filings).memberRules Diamond.bottom "name" =
        [.notBlank, .length 1 80, .notNull] ∧
      ((filed Diamond.filings).memberRules Diamond.base "name").Sublist
        [.notBlank, .length 1 80, .notNull] := by
  -- The kinds of a diamond are listed once each, and the order of filing decides.
  obtain ⟨_, _, grouped, _, inherited⟩ := filed_answers Diamond.filings
  have fits : Diamond.bottom.isAssignableTo Diamond.base = true := by decide
  have rules : (filed Diamond.filings).memberRules Diamond.bottom "name" =
      [.notBlank, .length 1 80, .notNull] := grouped Diamond.bottom "name"
  refine ⟨fits, rules, ?_⟩
  rw [← rules]
  exact inherited Diamond.bottom Diamond.base fits "name"

end RuleBook

end GraphRules
