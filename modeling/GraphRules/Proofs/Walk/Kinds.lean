import GraphRules.Proofs.Value.Shape
import GraphRules.Proofs.Walk.Transcript
import GraphRules.Validator

/-! The kinds that a walk asks about: those of every container and object it comes to. -/

namespace GraphRules

/-- The kind that the visitor was asked about. -/
def WalkEvent.kindAsked? : WalkEvent → Option Kind
  | .kind about _ => some about
  | _ => none

/-- The kinds of the containers and objects among the values examined. -/
def structuredKinds (visits : List (Value × Examination)) : List Kind :=
  ((visits.map (·.1)).filter Value.isStructured).map Value.kind

/-- Entries that ask about no kind. -/
def Kindless (events : List WalkEvent) : Prop := events.filterMap WalkEvent.kindAsked? = []

namespace Kindless

theorem nil : Kindless [] := rfl

/-- Entries that ask about no kind, and then others. -/
theorem append {earlier later : List WalkEvent} (one : Kindless earlier) (two : Kindless later) :
    Kindless (earlier ++ later) := by
  -- Neither part asks about a kind.
  unfold Kindless at one two ⊢
  rw [List.filterMap_append, one, two, List.nil_append]

end Kindless

namespace Logs

variable {State Result Next : Type}

/-- A question about an object or a member asks about no kind. -/
theorem kindless_answer {entry : Bool → WalkEvent} {answer : StateM State Bool}
    (aside : ∀ accepted, (entry accepted).kindAsked? = none) :
    Logs (journaled entry answer) answer fun _ events => Kindless events :=
  -- The one entry is about something else.
  fun state _ => ⟨[entry (answer state).1], rfl, List.filterMap_cons_none (aside _)⟩

/-- Two programs in turn ask about no kind if neither of them does. -/
theorem kindless_bind {logged : StateM (State × List WalkEvent) Result}
    {plain : StateM State Result}
    {next : Result → StateM (State × List WalkEvent) Next} {then_ : Result → StateM State Next}
    (first : Logs logged plain fun _ events => Kindless events)
    (second : ∀ result, Logs (next result) (then_ result) fun _ events => Kindless events) :
    Logs (logged >>= next) (plain >>= then_) fun _ events => Kindless events := by
  refine first.bind fun result => ?_
  -- What the second one writes stands after what the first one wrote.
  intro state journal
  obtain ⟨events, ran, told⟩ := second result state journal
  exact ⟨events, ran, fun _ earlier => earlier.append told⟩

end Logs

namespace Visitor

variable {State : Type} (visitor : Visitor State) (store : Store)

/-- The questions about an accepted member are not about kinds. -/
theorem kindless_inspectAccepted (member : Member) :
    Logs (visitor.withJournal.inspectAccepted store member) (visitor.inspectAccepted store member)
      fun _ events => Kindless events := by
  -- Every shape of value has its question, and a map has two more once it is accepted.
  unfold inspectAccepted
  split
  · exact (Logs.kindless_answer fun _ => rfl).kindless_bind fun _ => Logs.pure .nil
  · exact (Logs.kindless_answer fun _ => rfl).kindless_bind fun _ => Logs.pure .nil
  · exact (Logs.kindless_answer fun _ => rfl).kindless_bind fun _ => Logs.pure .nil
  · refine (Logs.kindless_answer fun _ => rfl).kindless_bind fun accepted => ?_
    cases accepted with
    | false => exact Logs.pure .nil
    | true =>
      refine (Logs.kindless_answer fun _ => rfl).kindless_bind fun _ => ?_
      exact (Logs.kindless_answer fun _ => rfl).kindless_bind fun _ => Logs.pure .nil
  · exact (Logs.kindless_answer fun _ => rfl).kindless_bind fun _ => Logs.pure .nil

/-- The questions about members are not about kinds. -/
theorem kindless_inspectAll (members : List Member) :
    Logs (visitor.withJournal.inspectAll store members) (visitor.inspectAll store members)
      fun _ events => Kindless events := by
  induction members with
  | nil => exact Logs.pure .nil
  | cons member rest later =>
    -- The first member is asked about once, and further only if it is accepted.
    have first : Logs (visitor.withJournal.inspect store member) (visitor.inspect store member)
        fun _ events => Kindless events := by
      refine (Logs.kindless_answer fun _ => rfl).kindless_bind fun accepted => ?_
      cases accepted with
      | false => exact Logs.pure .nil
      | true => exact visitor.kindless_inspectAccepted store member
    refine first.kindless_bind fun _ => ?_
    exact later.kindless_bind fun _ => Logs.pure .nil

/-- Opening a value asks about no kind: the kind was asked about before. -/
theorem kindless_expand (value : Value) :
    Logs (visitor.withJournal.expand store value) (visitor.expand store value)
      fun _ events => Kindless events := by
  unfold expand
  split
  · exact Logs.pure .nil
  · exact Logs.pure .nil
  · exact Logs.pure .nil
  · next object =>
    -- Only an object brings questions with it.
    refine (Logs.kindless_answer fun _ => rfl).kindless_bind fun entered => ?_
    cases entered with
    | false => exact Logs.pure .nil
    | true =>
      -- The questions about its members are about no kind.
      refine (visitor.kindless_inspectAll store (store.memberViews object)).kindless_bind
        fun _ => ?_
      exact Logs.pure .nil
  · exact Logs.pure .nil

/-- Examining a value asks about its kind exactly if it is a container or an object. -/
theorem logs_kind (value : Value) :
    Logs (visitor.withJournal.examine store value) (visitor.examine store value)
      fun outcome events =>
        events.filterMap WalkEvent.kindAsked? = structuredKinds [(value, outcome)] := by
  unfold examine
  rw [Value.isCore_kind]
  cases structured : value.isStructured with
  | false =>
    -- A value of a core kind is closed before anything is asked.
    refine Logs.pure ?_
    simp [structuredKinds, structured]
  | true =>
    -- Whatever the answer, no other kind is asked about.
    have asked : ∀ accepted outcome events, Kindless events → ∀ earlier,
        earlier = [WalkEvent.kind value.kind accepted] →
          (earlier ++ events).filterMap WalkEvent.kindAsked? =
            structuredKinds [(value, outcome)] := by
      rintro accepted outcome events kindless _ rfl
      rw [List.filterMap_append, kindless]
      simp [structuredKinds, structured, WalkEvent.kindAsked?]
    refine Logs.answer.bind fun accepted => ?_
    cases accepted with
    | false => exact Logs.pure (asked _ _ _ .nil)
    | true =>
      intro state journal
      obtain ⟨events, ran, kindless⟩ := visitor.kindless_expand store value state journal
      exact ⟨events, ran, asked _ _ _ kindless⟩

/-- The kinds that a walk asks about can be read off its journal. -/
theorem kinds_reading :
    Reading visitor store fun visits events =>
      events.filterMap WalkEvent.kindAsked? = structuredKinds visits where
  silent := rfl
  -- Both lists are in the order of the visits.
  joined one two := by
    rw [List.filterMap_append, one, two]
    simp [structuredKinds]
  examined := visitor.logs_kind store

/-- A walk asks about the kinds of the containers and objects on its queue, in order. -/
theorem journal_kinds (root : Value) (state : State) :
    (visitor.journal store root state).2.filterMap WalkEvent.kindAsked? =
      (((Walk.start root state).taken visitor store).filter Value.isStructured).map Value.kind := by
  obtain ⟨events, journaled, told⟩ := (visitor.kinds_reading store).journal root state
  -- The entry that closes the journal asks nothing.
  rw [journaled, List.filterMap_append, told]
  exact List.append_nil _

end Visitor

/-- Core kinds hide no structure: a walk passes over no container and no object for its kind. -/
theorem core_kinds_hide_no_structure :
    -- A core kind fits only where a core kind is expected.
    (∀ kind target : Kind, kind.isCore = true → kind.isAssignableTo target = true →
      target.isCore = true) ∧
    -- However its kind was declared, a value is of a core kind if it has no structure.
    (∀ value : Value, value.kind.isCore = true ↔ value.isStructured = false) ∧
    -- A walk asks about exactly the others that it takes off its queue, in order.
    (∀ {State : Type} (visitor : Visitor State) (store : Store) (root : Value) (state : State),
      (visitor.journal store root state).2.filterMap WalkEvent.kindAsked? =
        (((Walk.start root state).taken visitor store).filter Value.isStructured).map Value.kind) ∧
    (∀ value : Value, value.kind.isCore = false →
      (∃ array, value = .node (.array array)) ∨
        (∃ collection, value = .node (.collection collection)) ∨
        (∃ map, value = .node (.map map)) ∨ ∃ object, value = .node (.object object)) ∧
    -- Whatever passes the core test passes that of the cascade too.
    ∀ (book : RuleBook) (store : Store) (path : Path) (value : Value) (inspection : Inspection),
      value.kind.isCore = false →
        ((book.cascade store path).acceptKind value.kind inspection).1 = true := by
  refine ⟨Kind.isCore_of_isAssignableTo, fun value => ?_, ?_, fun value passed => ?_, ?_⟩
  · rw [Value.isCore_kind, Bool.not_eq_true']
  · intro State visitor store root state
    exact visitor.journal_kinds store root state
  · rw [Value.isCore_kind, Bool.not_eq_false'] at passed
    exact Value.isStructured_iff.mp passed
  · intro book store path value inspection passed
    -- Of the values whose kind is not core, each is a node.
    cases value with
    | node handle => exact Node.passes passed
    | _ => simp [Value.kind, Kind.isCore, BuiltinKind.isCore] at passed

end GraphRules
