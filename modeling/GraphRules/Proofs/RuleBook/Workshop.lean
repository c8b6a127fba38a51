import GraphRules.Proofs.Descriptor.Notes
import GraphRules.Proofs.RuleBook.Table
import Mathlib.Data.List.Induction
import Mathlib.Data.List.Infix

/-! A workshop of descriptors, which are made, copied, nested, changed and given rules. -/

namespace GraphRules

/-- What is done to descriptors, mostly to the tree in front of all those at hand. -/
inductive WorkshopCall
  /-- Makes a node, with so many trees from the front as its slots. -/
  | make (form : Form) (slots : Nat)
  /-- Puts a copy of some node in front, whether it stands alone or in a tree. -/
  | copy (place : Nat)
  /-- Brings some tree to the front. -/
  | bring (place : Nat)
  /-- Changes the node in front, as filing a rule in another book would. -/
  | build (builder : Descriptor.Builder)
  /-- Files a rule on the node in front. -/
  | file (rule : Rule)

/-- The descriptors at hand, and the rules filed so far. -/
structure Workshop where
  trees : List Descriptor
  book : RuleBook
  /-- The identity of the node made next. -/
  next : Nat

namespace Workshop

/-- The workshop without descriptors and rules. -/
def empty : Workshop := ⟨[], .empty, 0⟩

/-- All nodes at hand, at any depth. -/
def nodes (shop : Workshop) : List Descriptor := Descriptor.preorderAll shop.trees

/-- The workshop after a call. -/
def afterCall (shop : Workshop) : WorkshopCall → Workshop
  | .make form slots =>
    { shop with
      trees := .plain ⟨shop.next⟩ form (shop.trees.take slots) :: shop.trees.drop slots
      next := shop.next + 1 }
  | .copy place => { shop with trees := shop.nodes[place]?.toList ++ shop.trees }
  | .bring place => { shop with trees := shop.trees[place]?.toList ++ shop.trees.eraseIdx place }
  | .build builder => { shop with trees := shop.trees.modifyHead (·.build builder) }
  | .file rule =>
    match shop.trees with
    | [] => shop
    | front :: rest =>
      let (marked, book) := shop.book.constrain front rule
      { shop with trees := marked :: rest, book := book }

/-- The workshop after calls in order, from the beginning. -/
def afterCalls (calls : List WorkshopCall) : Workshop := calls.foldl afterCall .empty

/-- Every node with rules is relevant, so that values reached there are reported. -/
def Enforced (shop : Workshop) : Prop :=
  ∀ node ∈ shop.nodes, shop.book.rulesFor node ≠ [] → node.isRelevant = true

/-- The copies of the node in front, apart from itself. -/
def otherCopies (shop : Workshop) : List Descriptor :=
  match shop.trees with
  | [] => []
  | front :: rest =>
    (front.descendants ++ Descriptor.preorderAll rest).filter (·.id == front.id)

/-- No identity is in use that was not given out. -/
structure Issued (shop : Workshop) : Prop where
  nodes : ∀ node ∈ shop.nodes, node.id.index < shop.next
  rules : ∀ id ∈ shop.book.declared.keys, id.index < shop.next

/-- One more call is done after all others. -/
theorem afterCalls_append (calls : List WorkshopCall) (last : WorkshopCall) :
    afterCalls (calls ++ [last]) = (afterCalls calls).afterCall last := by
  -- The last call comes after all others.
  rw [afterCalls, List.foldl_append, List.foldl_cons, List.foldl_nil, afterCalls]

/-! ### Nodes after a call -/

/-- A node is the same as another or a copy of it, and has lost no mark. -/
structure Renews (node old : Descriptor) : Prop where
  same : node.id = old.id
  marked : old.isRelevant = true → node.isRelevant = true

/-- A node that is left alone has lost nothing. -/
theorem Renews.refl (node : Descriptor) : Renews node node := ⟨rfl, id⟩

/-- A changed node has lost no mark. -/
theorem Renews.build (node : Descriptor) (builder : Descriptor.Builder) :
    Renews (node.build builder) node :=
  ⟨node.id_build builder, fun relevant => Descriptor.isRelevant_build relevant builder⟩

variable (shop : Workshop)

/-- The nodes at hand, from the tree in front and the others. -/
theorem nodes_eq {front : Descriptor} {rest : List Descriptor}
    (trees : shop.trees = front :: rest) :
    shop.nodes = front :: (front.descendants ++ Descriptor.preorderAll rest) := by
  -- The tree in front is listed from its root.
  rw [nodes, trees, Descriptor.preorderAll, Descriptor.preorder_eq, List.cons_append]

/-- A tree at hand is one of the nodes at hand. -/
theorem mem_nodes_of_tree {tree : Descriptor} (standing : tree ∈ shop.trees) :
    tree ∈ shop.nodes := by
  -- A tree is the first of its own nodes.
  refine Descriptor.mem_preorderAll.mpr ⟨tree, standing, ?_⟩
  rw [Descriptor.preorder_eq]
  exact List.mem_cons_self

/-- Trees that are nodes at hand bring no other nodes with them. -/
theorem mem_nodes_of_trees {trees : List Descriptor} (known : ∀ tree ∈ trees, tree ∈ shop.nodes)
    {node : Descriptor} (listed : node ∈ Descriptor.preorderAll trees) : node ∈ shop.nodes := by
  -- Below a known tree all nodes are known.
  obtain ⟨tree, standing, inside⟩ := Descriptor.mem_preorderAll.mp listed
  exact Descriptor.preorder_subset_all (known tree standing) inside

/-- A made node stands in front of all others, which are the same as before. -/
theorem nodes_make (form : Form) (slots : Nat) :
    (shop.afterCall (.make form slots)).nodes =
      .plain ⟨shop.next⟩ form (shop.trees.take slots) :: shop.nodes := by
  -- The slots of the new node and the trees left over are the trees from before.
  have parts : Descriptor.preorderAll (shop.trees.take slots) ++
      Descriptor.preorderAll (shop.trees.drop slots) = shop.nodes := by
    rw [Descriptor.preorderAll_eq, Descriptor.preorderAll_eq, ← List.flatMap_append,
      List.take_append_drop, nodes, Descriptor.preorderAll_eq]
  rw [← parts]
  rfl

/-- A change touches only the tree in front. -/
theorem trees_build (builder : Descriptor.Builder) :
    (shop.afterCall (.build builder)).trees = shop.trees.modifyHead (·.build builder) := rfl

/-- Filing a rule does to the tree in front what marking it would do. -/
theorem trees_file (rule : Rule) :
    (shop.afterCall (.file rule)).trees = (shop.afterCall (.build .withDeclaredRules)).trees := by
  -- Filing marks the node in front, and so does the builder.
  rw [trees_build]
  cases trees : shop.trees with
  | nil => simp only [afterCall, trees, List.modifyHead_nil]
  | cons front rest => simp only [afterCall, trees, List.modifyHead_cons]; rfl

/-- After a change, the node in front is another one, and all others are the same. -/
theorem nodes_build {front : Descriptor} {rest : List Descriptor}
    (trees : shop.trees = front :: rest) (builder : Descriptor.Builder) :
    (shop.afterCall (.build builder)).nodes =
      front.build builder :: (front.descendants ++ Descriptor.preorderAll rest) := by
  have changed : (shop.afterCall (.build builder)).trees = front.build builder :: rest := by
    rw [trees_build, trees, List.modifyHead_cons]
  -- Below the changed node nothing is different.
  rw [nodes_eq _ changed, Descriptor.descendants_build]

/-- After a change, every node comes from a node before. -/
theorem node_build (builder : Descriptor.Builder) {node : Descriptor}
    (listed : node ∈ (shop.afterCall (.build builder)).nodes) :
    ∃ old ∈ shop.nodes, Renews node old := by
  cases trees : shop.trees with
  | nil =>
    rw [nodes, trees_build, trees] at listed
    exact absurd listed List.not_mem_nil
  | cons front rest =>
    rw [shop.nodes_build trees] at listed
    rw [shop.nodes_eq trees]
    -- The node in front was changed, and the others were not.
    rcases List.mem_cons.mp listed with rfl | other
    · exact ⟨front, List.mem_cons_self, .build front builder⟩
    · exact ⟨node, List.mem_cons_of_mem _ other, .refl node⟩

/-- Every node after a call was made by it, under the next identity, or was there before. -/
theorem node_afterCall (call : WorkshopCall) {node : Descriptor}
    (listed : node ∈ (shop.afterCall call).nodes) :
    (node.id = ⟨shop.next⟩ ∧ (shop.afterCall call).next = shop.next + 1) ∨
      ∃ old ∈ shop.nodes, Renews node old := by
  cases call with
  | make form slots =>
    -- The new node is the first, and all others were at hand.
    rw [nodes_make] at listed
    rcases List.mem_cons.mp listed with rfl | other
    · exact .inl ⟨rfl, rfl⟩
    · exact .inr ⟨node, other, .refl node⟩
  | copy place =>
    -- The copied node was at hand before, and so were all nodes below it.
    refine .inr ⟨node, shop.mem_nodes_of_trees (fun tree standing => ?_) listed, .refl node⟩
    rcases List.mem_append.mp standing with copied | before
    · exact List.mem_of_getElem? (Option.mem_toList.mp copied)
    · exact shop.mem_nodes_of_tree before
  | bring place =>
    refine .inr ⟨node, shop.mem_nodes_of_trees (fun tree standing => ?_) listed, .refl node⟩
    rcases List.mem_append.mp standing with brought | left
    · exact shop.mem_nodes_of_tree (List.mem_of_getElem? (Option.mem_toList.mp brought))
    · exact shop.mem_nodes_of_tree (List.mem_of_mem_eraseIdx left)
  | build builder => exact .inr (shop.node_build builder listed)
  | file rule =>
    -- Filing changes the node in front as the builder does.
    rw [nodes, trees_file] at listed
    exact .inr (shop.node_build .withDeclaredRules listed)

/-! ### Rules after a call -/

/-- Where no tree is at hand, nothing is filed. -/
theorem file_of_no_tree (trees : shop.trees = []) (rule : Rule) :
    shop.afterCall (.file rule) = shop := by
  -- There is no node to file on.
  simp only [afterCall, trees]

/-- A rule is filed under the identity of the node in front. -/
theorem declared_file {front : Descriptor} {rest : List Descriptor}
    (trees : shop.trees = front :: rest) (rule : Rule) :
    (shop.afterCall (.file rule)).book.declared =
      shop.book.declared.change front.id [] (· ++ [rule]) := by
  -- The rule goes to the list under the identity of the node in front.
  simp only [afterCall, trees, RuleBook.constrain]
  rfl

/-- The copies of the node in front get the rule behind all others, and no other node does. -/
theorem rulesFor_file {front : Descriptor} {rest : List Descriptor}
    (trees : shop.trees = front :: rest) (rule : Rule) (node : Descriptor) :
    (shop.afterCall (.file rule)).book.rulesFor node =
      shop.book.rulesFor node ++ if front.id = node.id then [rule] else [] := by
  -- The new rule is the last one filed, so it is the last one found.
  rw [RuleBook.rulesFor, shop.declared_file trees, Table.get?_change, RuleBook.rulesFor]
  by_cases same : front.id = node.id <;> simp [same]

/-- A node whose identity is not listed has no rules. -/
theorem rulesFor_eq_nil {book : RuleBook} {node : Descriptor}
    (unlisted : node.id ∉ book.declared.keys) : book.rulesFor node = [] := by
  -- The identity has no list.
  rw [RuleBook.rulesFor, Table.get?_eq_none unlisted]
  rfl

/-- The book is changed by filing a rule only. -/
theorem book_afterCall {call : WorkshopCall} (other : ∀ rule, call ≠ .file rule) :
    (shop.afterCall call).book = shop.book := by
  -- No other call has to do with the book.
  cases call with
  | file rule => exact absurd rfl (other rule)
  | _ => rfl

/-- Every identity that has rules after a call had some before, or it is that of a node. -/
theorem declared_afterCall (call : WorkshopCall) {id : DescriptorId}
    (listed : id ∈ (shop.afterCall call).book.declared.keys) :
    id ∈ shop.book.declared.keys ∨ ∃ node ∈ shop.nodes, id = node.id := by
  cases call with
  | file rule =>
    cases trees : shop.trees with
    | nil =>
      -- Without a tree nothing is filed.
      rw [shop.file_of_no_tree trees] at listed
      exact .inl listed
    | cons front rest =>
      rw [shop.declared_file trees, Table.keys_change] at listed
      split at listed
      · exact .inl listed
      · -- The identity of the node in front was not listed before.
        rcases List.mem_append.mp listed with before | now
        · exact .inl before
        · refine .inr ⟨front, ?_, List.mem_singleton.mp now⟩
          rw [shop.nodes_eq trees]
          exact List.mem_cons_self
  | _ => exact .inl listed

/-! ### Identities -/

/-- At the beginning no identity was given out. -/
theorem issued_empty : empty.Issued where
  nodes _ listed := absurd listed List.not_mem_nil
  rules _ listed := absurd listed List.not_mem_nil

/-- An identity that was given out stays so. -/
theorem next_le_afterCall (call : WorkshopCall) : shop.next ≤ (shop.afterCall call).next := by
  -- Only making a node takes a new identity.
  cases call with
  | make form slots => exact Nat.le_succ _
  | file rule =>
    rw [afterCall]
    split <;> exact Nat.le_refl _
  | _ => exact Nat.le_refl _

variable {shop}

/-- After a call, all identities in use were given out. -/
theorem Issued.afterCall (issued : shop.Issued) (call : WorkshopCall) :
    (shop.afterCall call).Issued := by
  have grown := shop.next_le_afterCall call
  constructor
  · -- A new node takes the identity that was next, and any other node had its identity before.
    intro node listed
    rcases shop.node_afterCall call listed with ⟨fresh, counted⟩ | ⟨old, before, renews⟩
    · rw [fresh, counted]
      exact Nat.lt_succ_self _
    · rw [renews.same]
      exact Nat.lt_of_lt_of_le (issued.nodes old before) grown
  · -- Rules are filed only under identities of nodes.
    intro id listed
    rcases shop.declared_afterCall call listed with before | ⟨node, standing, rfl⟩
    · exact Nat.lt_of_lt_of_le (issued.rules id before) grown
    · exact Nat.lt_of_lt_of_le (issued.nodes node standing) grown

/-- At all times, all identities in use were given out. -/
theorem issued_afterCalls (calls : List WorkshopCall) : (afterCalls calls).Issued := by
  -- The induction is on the calls from the last one.
  induction calls using List.reverseRec with
  | nil => exact issued_empty
  | append_singleton calls last issued =>
    rw [afterCalls_append]
    exact issued.afterCall last

/-- No rule is filed on a node before it is made. -/
theorem Issued.rulesFor_next (issued : shop.Issued) {node : Descriptor}
    (fresh : node.id = ⟨shop.next⟩) :
    shop.book.rulesFor node = [] := by
  refine rulesFor_eq_nil fun listed => ?_
  -- All identities under which rules are filed were given out before.
  have given := issued.rules node.id listed
  rw [fresh] at given
  exact Nat.lt_irrefl _ given

/-! ### Enforcement -/

/-- At the beginning there are no nodes. -/
theorem enforced_empty : empty.Enforced := fun _ listed => absurd listed List.not_mem_nil

/-- Where no rule is filed, all nodes with rules stay relevant. -/
theorem Enforced.afterCall (enforced : shop.Enforced) (issued : shop.Issued) {call : WorkshopCall}
    (other : ∀ rule, call ≠ .file rule) : (shop.afterCall call).Enforced := by
  intro node listed ruled
  rw [shop.book_afterCall other] at ruled
  rcases shop.node_afterCall call listed with ⟨fresh, _⟩ | ⟨old, before, renews⟩
  · -- A node that was just made has no rules.
    exact absurd (issued.rulesFor_next fresh) ruled
  · -- An earlier node has the same rules, and a mark that it had is still there.
    have ruledBefore : shop.book.rulesFor old ≠ [] := by
      rwa [RuleBook.rulesFor, ← renews.same]
    exact renews.marked (enforced old before ruledBefore)

/-- After a rule is filed, all nodes with rules are relevant if all copies of the node are. -/
theorem Enforced.file_iff (enforced : shop.Enforced) (rule : Rule) :
    (shop.afterCall (.file rule)).Enforced ↔ ∀ copy ∈ shop.otherCopies, copy.isRelevant = true := by
  cases trees : shop.trees with
  | nil =>
    rw [shop.file_of_no_tree trees, otherCopies, trees]
    exact iff_of_true enforced fun copy listed => absurd listed List.not_mem_nil
  | cons front rest =>
    have marked : (shop.afterCall (.file rule)).nodes =
        front.withDeclaredRules :: (front.descendants ++ Descriptor.preorderAll rest) := by
      rw [nodes, trees_file]
      exact shop.nodes_build trees .withDeclaredRules
    rw [otherCopies, trees]
    constructor
    · intro after copy listed
      obtain ⟨other, same⟩ := List.mem_filter.mp listed
      have standing : copy ∈ (shop.afterCall (.file rule)).nodes := by
        rw [marked]
        exact List.mem_cons_of_mem _ other
      -- The copy has the new rule, if no other.
      refine after copy standing ?_
      rw [shop.rulesFor_file trees, if_pos (beq_iff_eq.mp same).symm]
      exact List.append_ne_nil_of_right_ne_nil _ (List.cons_ne_nil rule [])
    · intro copies node listed ruled
      rw [marked] at listed
      rcases List.mem_cons.mp listed with rfl | other
      · -- The node in front got the mark together with the rule.
        exact Bool.or_true _
      · by_cases same : front.id = node.id
        · exact copies node (List.mem_filter.mpr ⟨other, beq_iff_eq.mpr same.symm⟩)
        · -- Any other node has the rules and the marks that it had.
          rw [shop.rulesFor_file trees, if_neg same, List.append_nil] at ruled
          have before : node ∈ shop.nodes := by
            rw [shop.nodes_eq trees]
            exact List.mem_cons_of_mem _ other
          exact enforced node before ruled

/-- Only filing a rule can leave a node with rules irrelevant, namely another copy of its node. -/
theorem Enforced.afterCall_iff (enforced : shop.Enforced) (issued : shop.Issued)
    (call : WorkshopCall) :
    (shop.afterCall call).Enforced ↔
      ∀ rule, call = .file rule → ∀ copy ∈ shop.otherCopies, copy.isRelevant = true := by
  by_cases filing : ∃ rule, call = .file rule
  · -- Which rule is filed makes no difference.
    obtain ⟨rule, rfl⟩ := filing
    rw [enforced.file_iff]
    exact ⟨fun marked _ _ => marked, fun marked => marked rule rfl⟩
  · have other : ∀ rule, call ≠ .file rule := not_exists.mp filing
    exact iff_of_true (enforced.afterCall issued other) fun rule same => absurd same (other rule)

/-- Nodes with rules stay relevant exactly if no rule is filed beside an irrelevant copy. -/
theorem enforced_throughout_iff (calls : List WorkshopCall) :
    (∀ before, before <+: calls → (afterCalls before).Enforced) ↔
      ∀ before rule, before ++ [.file rule] <+: calls →
        ∀ copy ∈ (afterCalls before).otherCopies, copy.isRelevant = true := by
  induction calls using List.reverseRec with
  | nil =>
    refine iff_of_true (fun before started => ?_) fun before rule started => ?_
    · rw [List.prefix_nil.mp started]
      exact enforced_empty
    · -- No call was made, so no rule was filed.
      have something := List.append_ne_nil_of_right_ne_nil before (List.cons_ne_nil (.file rule) [])
      exact absurd (List.prefix_nil.mp started) something
  | append_singleton calls last throughout =>
    -- What is said of the calls before the last one is the same on both sides, which leaves the
    -- last call.
    simp only [List.prefix_concat_iff, or_imp, forall_and, forall_eq, List.append_singleton_inj,
      throughout]
    refine and_congr_left fun earlier => ?_
    have enforced := throughout.mpr earlier calls List.prefix_rfl
    rw [afterCalls_append, enforced.afterCall_iff (issued_afterCalls calls)]
    -- On one side the last call is told as such, on the other as what comes after the calls before.
    constructor
    · rintro marked _ rule ⟨rfl, same⟩
      exact marked rule same.symm
    · intro marked rule same
      exact marked calls rule ⟨rfl, same.symm⟩

end Workshop

end GraphRules
