import GraphRules.Proofs.Walk.Visits
import GraphRules.Walk.Journal

/-! What the journal of a walk tells, which changes nothing of the walk. -/

namespace GraphRules

/-- The object behind a value, if it is one. -/
def Value.object? : Value → Option Object
  | .node (.object object) => some object
  | _ => none

/-- The object behind a value is its identity. -/
theorem Value.object?_eq_some {value : Value} {object : Object} :
    value.object? = some object ↔ value = .node (.object object) := by
  -- No other value and no other node has an object behind it.
  cases value with
  | node handle => cases handle <;> simp [object?]
  | _ => simp [object?]

namespace WalkEvent

/-- The object that the visitor was asked to enter. -/
def asked? : WalkEvent → Option Object
  | .enter object _ => some object
  | _ => none

/-- The object that the visitor entered. -/
def entered? : WalkEvent → Option Object
  | .enter object true => some object
  | _ => none

/-- The member that the visitor was asked to inspect. -/
def inspected? : WalkEvent → Option Member
  | .member .inspect about _ => some about
  | _ => none

end WalkEvent

/-- The object whose members were inspected when a value was examined. -/
def enteredObject? (visit : Value × Examination) : Option Object :=
  if visit.2.entered then visit.1.object? else none

/-- An object was entered when it was examined and its members were inspected. -/
theorem enteredObject?_eq_some {value : Value} {outcome : Examination} {object : Object} :
    enteredObject? (value, outcome) = some object ↔
      outcome.entered = true ∧ value = .node (.object object) := by
  -- An object is entered only when it is examined itself.
  unfold enteredObject?
  dsimp only
  cases outcome.entered with
  | false => simp
  | true => simp only [if_true, Value.object?_eq_some, true_and]

/-- Entries about members only, which ask for each of the given members once and in order. -/
structure Inspects (members : List Member) (events : List WalkEvent) : Prop where
  unasked : ∀ event ∈ events, event.asked? = none
  inspected : events.filterMap WalkEvent.inspected? = members
  ongoing : WalkEvent.complete ∉ events

/-- Entries that tell the examinations of a walk. -/
structure Transcript (store : Store) (visits : List (Value × Examination))
    (events : List WalkEvent) : Prop where
  /-- Only objects that the walk takes off its queue are asked about, each time once at most. -/
  asked : (events.filterMap WalkEvent.asked?).Sublist (visits.filterMap (·.1.object?))
  entered : events.filterMap WalkEvent.entered? = visits.filterMap enteredObject?
  inspected : events.filterMap WalkEvent.inspected? =
    (visits.filterMap enteredObject?).flatMap store.memberViews
  ongoing : WalkEvent.complete ∉ events

/-- Only an object that the visitor was asked about can be entered. -/
theorem WalkEvent.entered?_of_unasked {event : WalkEvent} (unasked : event.asked? = none) :
    event.entered? = none := by
  -- To be entered is a question with the answer yes.
  cases event <;> simp_all [asked?, entered?]

namespace Inspects

/-- Entries about some members and then about others. -/
theorem append {first second : List Member} {earlier later : List WalkEvent}
    (one : Inspects first earlier) (two : Inspects second later) :
    Inspects (first ++ second) (earlier ++ later) where
  unasked event listed :=
    (List.mem_append.mp listed).elim (one.unasked event) (two.unasked event)
  -- The members inspected are those of the first part and then those of the second.
  inspected := by rw [List.filterMap_append, one.inspected, two.inspected]
  ongoing listed := (List.mem_append.mp listed).elim one.ongoing two.ongoing

/-- Entries about members enter no object. -/
theorem entered {members : List Member} {events : List WalkEvent}
    (inspects : Inspects members events) : events.filterMap WalkEvent.entered? = [] :=
  List.filterMap_eq_nil_iff.mpr fun event listed =>
    WalkEvent.entered?_of_unasked (inspects.unasked event listed)

/-- A question about a member other than whether to inspect it. -/
theorem aside {question : MemberQuestion} (other : question ≠ .inspect) (member : Member)
    (accepted : Bool) : Inspects [] [.member question member accepted] where
  -- Only questions about inspecting a member are told.
  unasked := by simp [WalkEvent.asked?]
  inspected := by cases question <;> simp_all [WalkEvent.inspected?]
  ongoing := by simp

end Inspects

namespace Transcript

variable {store : Store}

/-- Nothing was examined and nothing is told. -/
theorem nil : Transcript store [] [] := ⟨.slnil, rfl, rfl, by simp⟩

/-- The transcript of some examinations and then that of others. -/
theorem append {first second : List (Value × Examination)} {earlier later : List WalkEvent}
    (one : Transcript store first earlier) (two : Transcript store second later) :
    Transcript store (first ++ second) (earlier ++ later) where
  asked := by
    -- Some of the first objects and then some of the second ones are some of all.
    rw [List.filterMap_append, List.filterMap_append]
    exact one.asked.append two.asked
  entered := by rw [List.filterMap_append, List.filterMap_append, one.entered, two.entered]
  inspected := by
    -- The members of all objects are those of the first and then those of the second.
    rw [List.filterMap_append, List.filterMap_append, List.flatMap_append, one.inspected,
      two.inspected]
  ongoing listed := (List.mem_append.mp listed).elim one.ongoing two.ongoing

/-- An examination that enters no object and asks about none. -/
theorem silent {value : Value} {outcome : Examination} (closed : outcome.entered = false) :
    Transcript store [(value, outcome)] [] :=
  -- Nothing was entered, and nothing is told.
  ⟨by simp, by simp [enteredObject?, closed], by simp [enteredObject?, closed], by simp⟩

/-- An object that is not entered. -/
theorem refused (object : Object) :
    Transcript store [(.node (.object object), .closed)] [.enter object false] where
  -- The object is asked about, and neither entered nor inspected.
  asked := by simp [WalkEvent.asked?, Value.object?]
  entered := by simp [WalkEvent.entered?, enteredObject?, Examination.closed]
  inspected := by simp [WalkEvent.inspected?, enteredObject?, Examination.closed]
  ongoing := by simp

/-- An object that is entered, and its members. -/
theorem entering {object : Object} {events : List WalkEvent}
    (inspects : Inspects (store.memberViews object) events) (next : List Value) :
    Transcript store [(.node (.object object), ⟨true, next⟩)] (.enter object true :: events) where
  asked := by
    -- The entries about its members ask about no other object.
    have unasked := List.filterMap_eq_nil_iff.mpr inspects.unasked
    simp [WalkEvent.asked?, Value.object?, unasked]
  entered := by simp [WalkEvent.entered?, enteredObject?, Value.object?, inspects.entered]
  inspected := by
    -- The entry about the object itself concerns none of its members.
    have aside : (WalkEvent.enter object true).inspected? = none := rfl
    rw [List.filterMap_cons_none aside, inspects.inspected]
    simp [enteredObject?, Value.object?]
  ongoing := by simp [inspects.ongoing]

end Transcript

/-- A program does what another does, and writes entries that tell something of its result. -/
def Logs {State Result : Type} (logged : StateM (State × List WalkEvent) Result)
    (plain : StateM State Result) (tells : Result → List WalkEvent → Prop) : Prop :=
  ∀ state journal, ∃ events,
    logged (state, journal) = ((plain state).1, (plain state).2, events.reverse ++ journal) ∧
      tells (plain state).1 events

namespace Logs

variable {State Result Next : Type}

/-- A result at hand takes no entry. -/
theorem pure {result : Result} {tells : Result → List WalkEvent → Prop} (silent : tells result []) :
    Logs (Pure.pure result : StateM (State × List WalkEvent) Result) (Pure.pure result) tells :=
  fun _ _ => ⟨[], rfl, silent⟩

/-- A journaled answer takes one entry. -/
theorem answer {entry : Bool → WalkEvent} {answer : StateM State Bool} :
    Logs (journaled entry answer) answer (fun accepted events => events = [entry accepted]) :=
  fun _ _ => ⟨_, rfl, rfl⟩

/-- Two programs in turn write their entries in turn. -/
theorem bind {logged : StateM (State × List WalkEvent) Result} {plain : StateM State Result}
    {next : Result → StateM (State × List WalkEvent) Next} {then_ : Result → StateM State Next}
    {tells : Result → List WalkEvent → Prop} {goes : Next → List WalkEvent → Prop}
    (first : Logs logged plain tells)
    (second : ∀ result, Logs (next result) (then_ result)
      fun outcome later => ∀ earlier, tells result earlier → goes outcome (earlier ++ later)) :
    Logs (logged >>= next) (plain >>= then_) goes := by
  intro state journal
  obtain ⟨earlier, ran, said⟩ := first state journal
  -- The second program starts from the state and the journal that the first one leaves.
  obtain ⟨later, went, told⟩ := second (plain state).1 (plain state).2 (earlier.reverse ++ journal)
  refine ⟨earlier ++ later, ?_, told earlier said⟩
  rw [Visitor.bind_apply, ran, went]
  simp [Visitor.bind_apply]

end Logs

namespace Visitor

variable {State : Type} (visitor : Visitor State) (store : Store)

/-- An accepted member is asked about, and never again whether to inspect it. -/
theorem logs_inspectAccepted (member : Member) :
    Logs (visitor.withJournal.inspectAccepted store member) (visitor.inspectAccepted store member)
      fun _ events => Inspects [] events := by
  -- One question is about the shape of the value, and none of them about inspecting.
  have once : ∀ question, question ≠ MemberQuestion.inspect → ∀ accepted earlier,
      earlier = [WalkEvent.member question member accepted] → Inspects [] (earlier ++ []) := by
    rintro question other accepted _ rfl
    exact Inspects.aside other member accepted
  -- Every shape of value has its question, and a map has two more once it is accepted.
  unfold inspectAccepted
  split
  · exact Logs.answer.bind fun _ => Logs.pure (once .null (by decide) _)
  · exact Logs.answer.bind fun _ => Logs.pure (once .array (by decide) _)
  · exact Logs.answer.bind fun _ => Logs.pure (once .collection (by decide) _)
  · refine Logs.answer.bind fun accepted => ?_
    cases accepted with
    | false => exact Logs.pure (once .map (by decide) _)
    | true =>
      refine Logs.answer.bind fun keys => Logs.answer.bind fun values => Logs.pure ?_
      rintro _ rfl _ rfl _ rfl
      have whole : Inspects [] [.member .map member true] := .aside (by decide) member true
      exact whole.append ((Inspects.aside (by decide) member keys).append
        (Inspects.aside (by decide) member values))
  · exact Logs.answer.bind fun _ => Logs.pure (once .field (by decide) _)

/-- A member is asked about first of all whether to inspect it. -/
theorem logs_inspect (member : Member) :
    Logs (visitor.withJournal.inspect store member) (visitor.inspect store member)
      fun _ events => Inspects [member] events := by
  have asks : ∀ accepted, Inspects [member] [.member .inspect member accepted] := fun accepted =>
    ⟨by simp [WalkEvent.asked?], by simp [WalkEvent.inspected?], by simp⟩
  refine Logs.answer.bind fun accepted => ?_
  cases accepted with
  | false =>
    -- A declined member is asked about once, and that is all.
    refine Logs.pure ?_
    rintro _ rfl
    exact asks false
  | true =>
    -- An accepted one is asked about again, but no longer whether to inspect it.
    intro state journal
    obtain ⟨events, ran, inspects⟩ := visitor.logs_inspectAccepted store member state journal
    refine ⟨events, ran, ?_⟩
    rintro _ rfl
    exact (asks true).append inspects

/-- Members are asked about one after the other. -/
theorem logs_inspectAll (members : List Member) :
    Logs (visitor.withJournal.inspectAll store members) (visitor.inspectAll store members)
      fun _ events => Inspects members events := by
  induction members with
  | nil => exact Logs.pure ⟨by simp, rfl, by simp⟩
  | cons member rest later =>
    -- The entries about the first member stand before those about the others.
    refine (visitor.logs_inspect store member).bind fun first => ?_
    refine later.bind fun others => Logs.pure ?_
    intro following inspectsRest earlier inspectsFirst
    simpa using inspectsFirst.append inspectsRest

/-- The entries of an opened value: an object is asked about before its members are. -/
theorem logs_expand (value : Value) :
    Logs (visitor.withJournal.expand store value) (visitor.expand store value)
      fun outcome events => Transcript store [(value, outcome)] events := by
  -- No entry is written for a value that is not an object.
  unfold expand
  split
  · exact Logs.pure (.silent rfl)
  · exact Logs.pure (.silent rfl)
  · exact Logs.pure (.silent rfl)
  · next object =>
    refine Logs.answer.bind fun entered => ?_
    cases entered with
    | false =>
      -- The refusal is the only entry.
      refine Logs.pure ?_
      rintro _ rfl
      exact .refused object
    | true =>
      -- The members are asked about after the object was accepted.
      refine (visitor.logs_inspectAll store (store.memberViews object)).bind fun next =>
        Logs.pure ?_
      rintro events inspects _ rfl
      simpa using Transcript.entering inspects next
  · exact Logs.pure (.silent rfl)

/-- The entries of an examined value. -/
theorem logs_examine (value : Value) :
    Logs (visitor.withJournal.examine store value) (visitor.examine store value)
      fun outcome events => Transcript store [(value, outcome)] events := by
  -- The question about the kind concerns no object.
  have asideKind : ∀ {accepted outcome events}, Transcript store [(value, outcome)] events →
      ∀ earlier, earlier = [WalkEvent.kind value.kind accepted] →
        Transcript store [(value, outcome)] (earlier ++ events) := by
    rintro accepted outcome events told _ rfl
    exact ⟨told.asked, told.entered, told.inspected, by simpa using told.ongoing⟩
  -- A closed kind asks nothing, and a refused one only about itself.
  unfold examine
  split
  · exact Logs.pure (.silent rfl)
  · refine Logs.answer.bind fun accepted => ?_
    cases accepted with
    | false => exact Logs.pure (asideKind (.silent rfl))
    | true =>
      intro state journal
      obtain ⟨events, ran, told⟩ := visitor.logs_expand store value state journal
      exact ⟨events, ran, asideKind told⟩

end Visitor

namespace Walk

variable {State : Type}

/-- The same walk with a journal kept so far. -/
def journaling (walk : Walk State) (journal : List WalkEvent) :
    Walk (State × List WalkEvent) :=
  ⟨walk.queue, (walk.state, journal), walk.entered⟩

end Walk

/-- What entries tell of examinations: of none, of two parts together, and of a single one. -/
structure Reading {State : Type} (visitor : Visitor State) (store : Store)
    (tells : List (Value × Examination) → List WalkEvent → Prop) : Prop where
  silent : tells [] []
  joined : ∀ {first second earlier later}, tells first earlier → tells second later →
    tells (first ++ second) (earlier ++ later)
  examined : ∀ value, Logs (visitor.withJournal.examine store value) (visitor.examine store value)
    fun outcome events => tells [(value, outcome)] events

namespace Reading

variable {State : Type} {visitor : Visitor State} {store : Store}
  {tells : List (Value × Examination) → List WalkEvent → Prop}

/-- Keeping a journal leaves the course of a walk as it is, and the journal tells that course. -/
theorem run (reading : Reading visitor store tells) (walk : Walk State) (journal : List WalkEvent) :
    ∃ events, (walk.journaling journal).run visitor.withJournal store =
        (walk.run visitor store).journaling (events.reverse ++ journal) ∧
      tells (walk.visits visitor store) events := by
  induction walk using Walk.turns visitor store generalizing journal with
  | finished walk empty =>
    -- The queue is the same with a journal, so both walks are finished at once.
    have emptyToo : (walk.journaling journal).queue.waiting = [] := empty
    refine ⟨[], ?_, ?_⟩
    · rw [Walk.run_finished empty, Walk.run_finished emptyToo]
      rfl
    · rw [Walk.visits_finished empty]
      exact reading.silent
  | turned walk value rest waiting later =>
    obtain ⟨earlier, examined, told⟩ := reading.examined value walk.state journal
    -- One turn with the journal is the turn without it, and the journal of the examination.
    have stepped : (walk.journaling journal).step visitor.withJournal store value rest =
        (walk.step visitor store value rest).journaling (earlier.reverse ++ journal) := by
      simp only [Walk.step, Walk.journaling, examined]
    obtain ⟨following, ran, toldRest⟩ := later (earlier.reverse ++ journal)
    refine ⟨earlier ++ following, ?_, ?_⟩
    · have waitingToo : (walk.journaling journal).queue.waiting = value :: rest := waiting
      rw [Walk.run_turned waitingToo, stepped, ran, Walk.run_turned waiting]
      simp
    · rw [Walk.visits_turned waiting]
      exact reading.joined told toldRest

/-- A walk with a journal runs as without one, and its entries tell what it examined. -/
theorem walk (reading : Reading visitor store tells) (root : Value) (state : State)
    (journal : List WalkEvent) :
    ∃ events, visitor.withJournal.walk store root (state, journal) =
        ((visitor.walk store root state).1, (visitor.walk store root state).2,
          .complete :: (events.reverse ++ journal)) ∧
      tells ((Walk.start root state).visits visitor store) events := by
  obtain ⟨events, ran, told⟩ := reading.run (Walk.start root state) journal
  refine ⟨events, ?_, told⟩
  -- The start asks nothing, so the journal begins with what was there before.
  have started : Walk.start root (state, journal) = (Walk.start root state).journaling journal :=
    rfl
  simp only [Visitor.walk, started, ran]
  rfl

/-- The journal of a walk tells its examinations and closes after them, once. -/
theorem journal (reading : Reading visitor store tells) (root : Value) (state : State) :
    ∃ events, visitor.journal store root state =
        ((visitor.walk store root state).1, events ++ [.complete]) ∧
      tells ((Walk.start root state).visits visitor store) events := by
  -- The closing entry comes after what the reading tells.
  obtain ⟨events, ran, told⟩ := reading.walk root state []
  exact ⟨events, by simp [Visitor.journal, ran], told⟩

end Reading

/-- A transcript can be read off the journal of every visitor. -/
theorem Visitor.transcript {State : Type} (visitor : Visitor State) (store : Store) :
    Reading visitor store (Transcript store) where
  silent := .nil
  joined := Transcript.append
  examined := visitor.logs_examine store

end GraphRules
