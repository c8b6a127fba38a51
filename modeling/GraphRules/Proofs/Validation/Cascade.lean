import GraphRules.Proofs.Walk.Once
import GraphRules.Proofs.Walk.Reach
import GraphRules.Validator

/-! One walk of a cascade, and how the objects looked into stay closed under reachability. -/

namespace GraphRules

namespace Store

/-- The values to walk from a member once every question is answered with yes. -/
def memberTargets (store : Store) (member : Member) : List Value :=
  match member.value with
  | .null => []
  | .node (.map map) => store.entrySides map true true
  | value => [value]

/-- Whatever a value leads to is to be walked, is null, or is a map whose entries are. -/
def Opened (store : Store) (value : Value) (outcome : Examination) : Prop :=
  ∀ target, store.Leads value target →
    target.isNull = true ∨ target ∈ outcome.next ∨
      ∃ map : Map, target = .node (.map map) ∧
        ∀ side, store.Leads target side → side ∈ outcome.next

/-- The members of an object that were all inspected lead on as they should. -/
theorem opened_of_members (store : Store) (object : Object) :
    store.Opened (.node (.object object))
      ⟨true, (store.memberViews object).flatMap store.memberTargets⟩ := by
  intro target edge
  generalize source : Value.node (.object object) = start at edge
  -- Only the edges to its members start at an object.
  cases edge with
  | @member other member held =>
    cases source
    have viewed : (⟨object, member.1, member.2⟩ : Member) ∈ store.memberViews object :=
      List.mem_map.mpr ⟨member, held, rfl⟩
    -- The member stands for null, for a map, or for itself.
    cases shape : member.2 with
    | null => exact .inl rfl
    | node handle =>
      cases handle with
      | map map =>
        -- The map itself is not walked, but both sides of its entries are.
        refine .inr (.inr ⟨map, rfl, fun side edge => ?_⟩)
        refine List.mem_flatMap.mpr ⟨_, viewed, ?_⟩
        simpa [memberTargets, shape] using mem_entrySides_of_leads edge
      | _ => exact .inr (.inl (List.mem_flatMap.mpr ⟨_, viewed, by simp [memberTargets, shape]⟩))
    | _ => exact .inr (.inl (List.mem_flatMap.mpr ⟨_, viewed, by simp [memberTargets, shape]⟩))
  | _ => cases source

/-- A set of objects that holds whatever its members reach. -/
def Closed (store : Store) (objects : List Object) : Prop :=
  ∀ object ∈ objects, ∀ other, store.Reaches (.node (.object object)) (.node (.object other)) →
    other ∈ objects

end Store

namespace Inspection

/-- Reporting twice is reporting everything at once. -/
theorem report_report (inspection : Inspection) (first second : List Violation) :
    (inspection.report first).report second = inspection.report (first ++ second) := by
  -- The violations are added in the same order at once.
  simp [report]

end Inspection

namespace RuleBook

variable (book : RuleBook) (store : Store) (path : Path)

/-- The violations of the rules on the members of an object. -/
def objectViolations (object : Object) : List Violation :=
  (store.memberViews object).flatMap (book.memberViolations store path)

/-- An accepted member is walked, whatever it is. -/
theorem cascade_inspectAccepted (member : Member) (inspection : Inspection) :
    (book.cascade store path).inspectAccepted store member inspection =
      (store.memberTargets member, inspection) := by
  -- For every shape of value, the cascade's answer is the standard one.
  rw [Visitor.inspectAccepted_apply]
  obtain ⟨owner, name, value⟩ := member
  cases value with
  | node handle => cases handle <;> rfl
  | _ => rfl

/-- A member is checked and then walked. -/
theorem cascade_inspect (member : Member) (inspection : Inspection) :
    (book.cascade store path).inspect store member inspection =
      (store.memberTargets member,
        inspection.report (book.memberViolations store path member)) := by
  -- The rules are checked when the cascade is asked whether to inspect the member.
  rw [Visitor.inspect_apply]
  exact book.cascade_inspectAccepted store path member _

/-- Members are checked and walked in order. -/
theorem cascade_inspectAll (members : List Member) (inspection : Inspection) :
    (book.cascade store path).inspectAll store members inspection =
      (members.flatMap store.memberTargets,
        inspection.report (members.flatMap (book.memberViolations store path))) := by
  induction members generalizing inspection with
  | nil => simp [Visitor.inspectAll, Inspection.report, Visitor.pure_apply]
  | cons member rest later =>
    -- The members that follow add their violations to those of the first.
    rw [Visitor.inspectAll_cons, cascade_inspect]
    simp only [later, List.flatMap_cons, Inspection.report_report]

/-- A value that is not core is opened. -/
theorem cascade_examine {node : Node} (structured : node.kind.isCore = false)
    (inspection : Inspection) :
    (book.cascade store path).examine store (.node node) inspection =
      (book.cascade store path).expand store (.node node) inspection := by
  rw [Visitor.examine_apply, if_neg (by simp [Value.kind, structured])]
  -- The kind of the node is accepted, whatever was looked into before.
  have passes : ((book.cascade store path).acceptKind node.kind inspection).1 = true :=
    Node.passes structured
  exact if_pos passes

/-- An object is entered unless it was looked into before; then its members are checked. -/
theorem cascade_examine_object (object : Object) (inspection : Inspection) :
    (book.cascade store path).examine store (.node (.object object)) inspection =
      if object ∈ inspection.checked then (.closed, inspection)
      else
        (⟨true, (store.memberViews object).flatMap store.memberTargets⟩,
          ⟨inspection.checked ++ [object],
            inspection.violations ++ book.objectViolations store path object⟩) := by
  have structured : (Node.object object).kind.isCore = false :=
    Kind.isCore_eq_false object.structured rfl
  rw [book.cascade_examine store path structured, Visitor.expand_object]
  by_cases known : object ∈ inspection.checked
  · -- The object is declined, together with its members.
    have declined : (book.cascade store path).enterObject object inspection = (false, inspection) :=
      if_pos known
    simp [declined, known]
  · -- The object is noted first, and then its members are checked.
    have accepted : (book.cascade store path).enterObject object inspection =
        (true, { inspection with checked := inspection.checked ++ [object] }) := if_neg known
    simp [accepted, known, cascade_inspectAll, Inspection.report, objectViolations]

/-- Anything but an object is opened without a trace. -/
theorem cascade_examine_other {value : Value} (other : value.object? = none)
    (inspection : Inspection) :
    ((book.cascade store path).examine store value inspection).2 = inspection ∧
      store.Opened value ((book.cascade store path).examine store value inspection).1 := by
  cases core : value.kind.isCore with
  | true =>
    -- Core values are closed, and no edge starts at them.
    refine ⟨by simp [Visitor.examine_apply, core], fun target edge => ?_⟩
    simp [edge.not_core] at core
  | false =>
    cases value with
    | node handle =>
      rw [cascade_examine book store path core]
      -- Containers lead to all that they hold.
      cases handle with
      | array array =>
        refine ⟨rfl, fun target edge => .inr (.inl ?_)⟩
        cases edge with
        | element structured held =>
          simpa [Visitor.expand, structured, Visitor.pure_apply] using held
      | collection collection =>
        refine ⟨rfl, fun target edge => .inr (.inl ?_)⟩
        cases edge with
        | item held => exact held
      | map map =>
        exact ⟨rfl, fun target edge => .inr (.inl (Store.mem_entrySides_of_leads edge))⟩
      -- What is left is an object, which is excluded, and a box, which is core.
      | object object => simp [Value.object?] at other
      | threadScoped box => simp [Value.kind, Node.kind, Kind.isCore, BuiltinKind.isCore] at core
    | _ => simp [Value.kind, Kind.isCore, BuiltinKind.isCore] at core

/-- Whatever is examined is opened, unless it is an object that was looked into before. -/
theorem opened_examine (value : Value) (inspection : Inspection) :
    (∃ object ∈ inspection.checked, value = .node (.object object)) ∨
      store.Opened value ((book.cascade store path).examine store value inspection).1 := by
  cases shape : value.object? with
  | none =>
    -- Containers, and values that lead nowhere, are not declined.
    exact .inr (book.cascade_examine_other store path shape inspection).2
  | some object =>
    obtain rfl := Value.object?_eq_some.mp shape
    rw [book.cascade_examine_object store path object inspection]
    by_cases known : object ∈ inspection.checked
    · exact .inl ⟨object, known, rfl⟩
    · -- A fresh object is entered, and all its members are inspected.
      rw [if_neg known]
      exact .inr (store.opened_of_members object)

/-- The objects that a walk of a cascade looks into, in order. -/
def entered (walk : Walk Inspection) : List Object :=
  (walk.visits (book.cascade store path) store).filterMap enteredObject?

variable {walk : Walk Inspection}

/-- A finished walk enters nothing more. -/
theorem entered_finished (empty : walk.queue.waiting = []) : book.entered store path walk = [] := by
  -- Nothing more is taken off the queue.
  rw [entered, Walk.visits_finished empty, List.filterMap_nil]

/-- One turn enters the object at hand if it is new, and reports its violations. -/
theorem entered_turned {value : Value} {rest : List Value}
    (waiting : walk.queue.waiting = value :: rest) :
    ∃ now : List Object,
      book.entered store path walk =
        now ++ book.entered store path (walk.step (book.cascade store path) store value rest) ∧
      (walk.step (book.cascade store path) store value rest).state =
        ⟨walk.state.checked ++ now,
          walk.state.violations ++ now.flatMap (book.objectViolations store path)⟩ ∧
      ∀ object, object ∈ now ↔ value = .node (.object object) ∧ object ∉ walk.state.checked := by
  unfold entered
  rw [Walk.visits_turned waiting, List.filterMap_cons]
  cases shape : value.object? with
  | none =>
    -- Nothing is entered, and the state stays as it was.
    refine ⟨[], by simp [enteredObject?, shape], ?_, ?_⟩
    · simpa [Walk.step] using (book.cascade_examine_other store path shape walk.state).1
    · rintro object
      simp only [List.not_mem_nil, false_iff, not_and]
      rintro rfl
      simp [Value.object?] at shape
  | some object =>
    obtain rfl := Value.object?_eq_some.mp shape
    have examined := book.cascade_examine_object store path object walk.state
    by_cases known : object ∈ walk.state.checked
    · -- An object looked into before is declined without a trace.
      rw [if_pos known] at examined
      refine ⟨[], by simp [enteredObject?, examined, Examination.closed], ?_, ?_⟩
      · simp [Walk.step, examined]
      · simp only [List.not_mem_nil, false_iff, not_and, not_not]
        rintro other same
        cases same
        exact known
    · -- Any other object is entered, and its violations are reported.
      rw [if_neg known] at examined
      refine ⟨[object], by simp [enteredObject?, examined, shape], ?_, ?_⟩
      · simp [Walk.step, examined]
      · simp only [List.mem_singleton, Value.node.injEq, Node.object.injEq]
        rintro other
        refine ⟨?_, fun found => found.1.symm⟩
        rintro rfl
        exact ⟨rfl, known⟩

end RuleBook

end GraphRules
