import GraphRules.Descriptor
import GraphRules.Rule.Basic
import GraphRules.Table

/-! Rule books: which rules apply to the values at a descriptor node, and to members of objects. -/

namespace GraphRules

/-- Rules under the node that they are filed on, and under the kind and the member. -/
structure RuleBook where
  declared : Table DescriptorId (List Rule)
  members : Table Kind (Table String (List Rule))

namespace RuleBook

/-- The book without rules. -/
def empty : RuleBook := ⟨.empty, .empty⟩

/-- Files a rule on a descriptor node and gives back the node, marked as one with rules. -/
def constrain (book : RuleBook) (descriptor : Descriptor) (rule : Rule) : Descriptor × RuleBook :=
  let marked := descriptor.withDeclaredRules
  (marked, { book with declared := book.declared.change marked.id [] (· ++ [rule]) })

/-- Files a rule on a member of objects of a kind. -/
def constrainMember (book : RuleBook) (kind : Kind) (member : String) (rule : Rule) : RuleBook :=
  { book with
    members := book.members.change kind .empty fun table =>
      table.change member [] (· ++ [rule]) }

/-- The rules filed on a descriptor node or any copy of it. -/
def rulesFor (book : RuleBook) (descriptor : Descriptor) : List Rule :=
  (book.declared.get? descriptor.id).getD []

/-- The rules on a member of objects of a kind, under any kind that it is assignable to. -/
def memberRules (book : RuleBook) (kind : Kind) (member : String) : List Rule :=
  -- Kinds come in the order of their first rule, not by how near they are.
  ((book.members.entries.filter fun declaring => kind.isAssignableTo declaring.1).filterMap
    fun declaring => declaring.2.get? member).flatten

/-- Whether any rule on members was filed. -/
def hasMemberRules (book : RuleBook) : Bool := !book.members.isEmpty

/-- How many rules were filed. -/
def size (book : RuleBook) : Nat :=
  book.declared.total List.length + book.members.total (·.total List.length)

def isEmpty (book : RuleBook) : Bool := book.size == 0

end RuleBook

end GraphRules
