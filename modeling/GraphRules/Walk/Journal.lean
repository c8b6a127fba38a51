import GraphRules.Walk.Basic

/-! Journals of walks: every question that a walk asks its visitor, with the answer. -/

namespace GraphRules

/-- What a walk asks about a member. -/
inductive MemberQuestion
  | inspect
  | null
  | field
  | array
  | collection
  | map
  | mapKeys
  | mapValues
deriving DecidableEq

/-- What a question is called. -/
def MemberQuestion.name : MemberQuestion → String
  | .inspect => "member"
  | .null => "null"
  | .field => "field"
  | .array => "array"
  | .collection => "collection"
  | .map => "map"
  | .mapKeys => "map_keys"
  | .mapValues => "map_values"

/-- An entry of a journal. -/
inductive WalkEvent
  | kind (kind : Kind) (accepted : Bool)
  | enter (object : Object) (accepted : Bool)
  | member (question : MemberQuestion) (member : Member) (accepted : Bool)
  | complete

/-- Answers a question and writes it down; the last entry stands first. -/
def journaled {State : Type} (entry : Bool → WalkEvent) (answer : StateM State Bool) :
    StateM (State × List WalkEvent) Bool :=
  fun (state, journal) =>
    let (accepted, state) := answer state
    -- The entry is written once the answer is known.
    (accepted, state, entry accepted :: journal)

/-- The same visitor with a journal. -/
def Visitor.withJournal {State : Type} (visitor : Visitor State) :
    Visitor (State × List WalkEvent) where
  acceptKind kind := journaled (.kind kind) (visitor.acceptKind kind)
  enterObject object := journaled (.enter object) (visitor.enterObject object)
  acceptMember member := journaled (.member .inspect member) (visitor.acceptMember member)
  visitNull member := journaled (.member .null member) (visitor.visitNull member)
  visitField member := journaled (.member .field member) (visitor.visitField member)
  visitArray member array := journaled (.member .array member) (visitor.visitArray member array)
  visitCollection member collection :=
    journaled (.member .collection member) (visitor.visitCollection member collection)
  visitMap member map := journaled (.member .map member) (visitor.visitMap member map)
  visitMapKeys member map := journaled (.member .mapKeys member) (visitor.visitMapKeys member map)
  visitMapValues member map :=
    journaled (.member .mapValues member) (visitor.visitMapValues member map)
  complete := fun (state, journal) =>
    let ((), state) := visitor.complete state
    ((), state, .complete :: journal)

/-- Walks with a journal, given in the order of its entries. -/
def Visitor.journal {State : Type} (visitor : Visitor State) (store : Store) (root : Value)
    (state : State) : WalkStats × List WalkEvent :=
  let (stats, _, journal) := visitor.withJournal.walk store root (state, [])
  (stats, journal.reverse)

/-- What is refused under one question. -/
inductive Refusal
  | nothing
  | everything
  | names (names : List String)

/-- Whether a name is let through. -/
def Refusal.admits : Refusal → String → Bool
  | .nothing, _ => true
  | .everything, _ => false
  | .names refused, name => !refused.contains name

/-- What is refused under each question, by the name of a kind or the text of a member. -/
structure Refusals where
  kind : Refusal
  enter : Refusal
  member : MemberQuestion → Refusal

/-- Refusals given under the names of the questions; under any other name nothing is refused. -/
def Refusals.ofNamed (refusals : List (String × Refusal)) : Refusals :=
  let under name := (refusals.lookup name).getD .nothing
  ⟨under "kind", under "enter", fun question => under question.name⟩

/-- The visitor that accepts whatever is not refused. -/
def Visitor.refusing (refusals : Refusals) : Visitor Unit where
  acceptKind kind := pure (refusals.kind.admits kind.name)
  enterObject object := pure (refusals.enter.admits object.kind.name)
  acceptMember member := pure ((refusals.member .inspect).admits member.text)
  visitNull member := pure ((refusals.member .null).admits member.text)
  visitField member := pure ((refusals.member .field).admits member.text)
  visitArray member _ := pure ((refusals.member .array).admits member.text)
  visitCollection member _ := pure ((refusals.member .collection).admits member.text)
  visitMap member _ := pure ((refusals.member .map).admits member.text)
  visitMapKeys member _ := pure ((refusals.member .mapKeys).admits member.text)
  visitMapValues member _ := pure ((refusals.member .mapValues).admits member.text)

end GraphRules
