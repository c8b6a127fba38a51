import GraphRules.Proofs.Store.Filling

/-! Programs over a store, in which a node holds what was put into it, whatever else is done. -/

namespace GraphRules

/-- One thing that a program does. -/
inductive Action
  | newArray (element : Kind) (items : List Value)
  /-- Makes a collection of any kind and pushes items there. -/
  | newCollection (kind : Kind) (items : List Value)
  | newSequence (items : List Value)
  | newSet (items : List Value)
  | push (collection : Collection) (item : Value)
  | newMap (kind : Kind)
  | newMapOf (entries : List (Value × Value))
  | insert (map : Map) (key value : Value)
  | newObject (kind : Kind)
  | setMember (object : Object) (name : String) (value : Value)
  | newThreadScoped
  | bind (box : ThreadScoped) (value : Value)
  | unbind (box : ThreadScoped)
  | onThread (thread : Thread)
  | reclaim (roots : List Value)

/-- Only values that are nodes themselves have to be looked for. -/
instance (nodes : List Node) : (value : Value) → Decidable (value.Known nodes)
  | .node node =>
    decidable_of_iff (node ∈ nodes)
      ⟨fun listed _ same => Value.node.inj same ▸ listed, fun known => known node rfl⟩
  | .null | .boolean _ | .integer _ | .float _ | .decimal _ | .text _ | .vacant | .present _
      | .strong _
  | .weak _ => .isTrue nofun

namespace Action

/-- The node that an action changes. -/
def target? : Action → Option Node
  | .push collection _ => some (.collection collection)
  | .insert map _ _ => some (.map map)
  | .setMember object _ _ => some (.object object)
  | .bind box _ => some (.threadScoped box)
  | .unbind box => some (.threadScoped box)
  | _ => none

/-- The items that an action puts into the array or the collection that it makes or changes. -/
def items : Action → List Value
  | .newArray _ items => items
  | .newCollection _ items => items
  | .newSequence items => items
  | .newSet items => items
  | .push _ item => [item]
  | _ => []

/-- The entries that an action puts into the map that it makes or changes. -/
def entries : Action → List (Value × Value)
  | .newMapOf entries => entries
  | .insert _ key value => [(key, value)]
  | _ => []

/-- All values that an action puts into some node. -/
def values : Action → List Value
  | .newMapOf entries => entries.flatMap fun (key, value) => [key, value]
  | .insert _ key value => [key, value]
  | .setMember _ _ value => [value]
  | .bind _ value => [value]
  | action => action.items

/-- What a node holds when an action has made it. -/
def filling (action : Action) : Node → Contents
  | .array _ => .items action.items
  | .collection collection => .items (collection.keep action.items)
  | .map _ => .entries (Store.keepEntries action.entries)
  | .object _ => .members .empty
  | .threadScoped _ => .bindings []

end Action

/-- A store with the nodes that a program has made there, the latest first. -/
structure Heap where
  store : Store
  nodes : List Node

namespace Heap

/-- The heap without nodes. -/
def empty : Heap := ⟨.empty, []⟩

/-- The heap with the node that the store made, unless it refused. -/
def attempt {Handle : Type} (heap : Heap) (node : Handle → Node) :
    Except KindMismatch (Handle × Store) → Heap
  | .ok (handle, store) => ⟨store, node handle :: heap.nodes⟩
  | .error _ => heap

/-- The heap after an action. -/
def after (heap : Heap) : Action → Heap
  | .newArray element items => heap.attempt .array (heap.store.newArray element items)
  | .newCollection kind items =>
    heap.attempt .collection ((heap.store.newCollection kind).map fun (collection, store) =>
      (collection, store.pushAll collection items))
  | .newSequence items => heap.attempt .collection (.ok (heap.store.newSequence items))
  | .newSet items => heap.attempt .collection (.ok (heap.store.newSet items))
  | .push collection item => { heap with store := (heap.store.push collection item).2 }
  | .newMap kind => heap.attempt .map (heap.store.newMap kind)
  | .newMapOf entries => heap.attempt .map (.ok (heap.store.newMapOf entries))
  | .insert map key value => { heap with store := (heap.store.insert map key value).2 }
  | .newObject kind => heap.attempt .object (heap.store.newObject kind)
  | .setMember object name value =>
    { heap with store := (heap.store.setMember object name value).2 }
  | .newThreadScoped => heap.attempt .threadScoped (.ok heap.store.newThreadScoped)
  | .bind box value => { heap with store := (heap.store.bind box value).2 }
  | .unbind box => { heap with store := (heap.store.unbind box).2 }
  | .onThread thread => { heap with store := heap.store.onThread thread }
  | .reclaim roots => { heap with store := heap.store.reclaim roots }

/-- The heap after actions in order. -/
def run (heap : Heap) (program : List Action) : Heap := program.foldl after heap

/-- The program has made a node, and the node is still there. -/
def Has (heap : Heap) (node : Node) : Prop :=
  node ∈ heap.nodes ∧ heap.store.isLive node.id = true

/-- A program changes only nodes that it has, and puts only values there that it has. -/
structure Allowed (heap : Heap) (action : Action) : Prop where
  target : ∀ node, action.target? = some node → heap.Has node
  values : ∀ value ∈ action.values, value.Known heap.nodes

/-- A program is allowed where each of its actions is, after those before it. -/
def Allows : Heap → List Action → Prop
  | _, [] => True
  | heap, action :: rest => heap.Allowed action ∧ (heap.after action).Allows rest

instance (heap : Heap) (node : Node) : Decidable (heap.Has node) :=
  inferInstanceAs (Decidable (_ ∧ _))

instance (heap : Heap) (action : Action) : Decidable (heap.Allowed action) :=
  decidable_of_iff
    ((∀ node ∈ action.target?, heap.Has node) ∧ ∀ value ∈ action.values, value.Known heap.nodes)
    ⟨fun both => ⟨both.1, both.2⟩, fun allowed => ⟨allowed.target, allowed.values⟩⟩

instance decidableAllows : (heap : Heap) → (program : List Action) → Decidable (heap.Allows program)
  | _, [] => .isTrue trivial
  | heap, action :: rest =>
    have := decidableAllows (heap.after action) rest
    inferInstanceAs (Decidable (heap.Allowed action ∧ (heap.after action).Allows rest))

/-- An action makes a node or changes what it holds. -/
def Touches (heap : Heap) (action : Action) (node : Node) : Prop :=
  action.target? = some node ∨ (heap.after action).nodes = node :: heap.nodes

instance (heap : Heap) (action : Action) (node : Node) : Decidable (heap.Touches action node) :=
  inferInstanceAs (Decidable (_ ∨ _))

/-- What a program puts into a node, in order, read off the actions alone. -/
def log {Input : Type} (input : Action → List Input) (node : Node) : Heap → List Action → List Input
  | _, [] => []
  | heap, action :: rest =>
    (if heap.Touches action node then input action else []) ++
      log input node (heap.after action) rest

/-- What a program puts into a node, in order, read off the actions and their heaps. -/
def record {Input : Type} (input : Heap → Action → List Input) (node : Node) :
    Heap → List Action → List Input
  | _, [] => []
  | heap, action :: rest =>
    (if heap.Touches action node then input heap action else []) ++
      record input node (heap.after action) rest

/-- A log is a record that does not look at heaps. -/
theorem log_eq_record {Input : Type} (input : Action → List Input) (node : Node) (heap : Heap)
    (program : List Action) :
    log input node heap program = record (fun _ => input) node heap program := by
  -- The induction is on the program, whose log is the record that looks at no heap.
  induction program generalizing heap with
  | nil => rfl
  | cons action rest later => rw [log, record, later]

/-! ### One more action -/

/-- One more action is done after all others. -/
theorem run_concat (heap : Heap) (program : List Action) (last : Action) :
    heap.run (program ++ [last]) = (heap.run program).after last :=
  List.foldl_append

/-- A program is allowed with one more action where this one is allowed at the end. -/
theorem allows_concat (heap : Heap) (program : List Action) (last : Action) :
    heap.Allows (program ++ [last]) ↔ heap.Allows program ∧ (heap.run program).Allowed last := by
  induction program generalizing heap with
  | nil => simp [Allows, run]
  | cons action rest later =>
    -- The rest starts where the first action has led.
    rw [List.cons_append, Allows, Allows, later, and_assoc]
    rfl

/-- What one more action puts into a node comes last. -/
theorem record_concat {Input : Type} (input : Heap → Action → List Input) (node : Node)
    (heap : Heap) (program : List Action) (last : Action) :
    record input node heap (program ++ [last]) =
      record input node heap program ++
        if (heap.run program).Touches last node then input (heap.run program) last else [] := by
  -- The induction is on the program, at whose end the last action is looked at.
  induction program generalizing heap with
  | nil => exact List.append_nil _
  | cons action rest later =>
    rw [List.cons_append, record, record, later, List.append_assoc]
    rfl

/-! ### What an action does -/

/-- What an action can do to a heap. -/
inductive Effect (heap : Heap) (action : Action) : Heap → Prop
  | makes (node : Node) (fresh : node.id = ⟨heap.store.cells.size⟩) :
    Effect heap action ⟨(heap.store.add (action.filling node)).2, node :: heap.nodes⟩
  | writes (node : Node) (contents : Contents) (target : action.target? = some node) :
    Effect heap action ⟨heap.store.write node.id contents, heap.nodes⟩
  | idles : Effect heap action heap
  | shrinks (store : Store)
    (kept : ∀ id contents, store.contents? id = some contents →
      heap.store.contents? id = some contents) :
    Effect heap action ⟨store, heap.nodes⟩

/-- An action makes one node, writes its target, or only removes nodes. -/
theorem effect (heap : Heap) (action : Action) : heap.Effect action (heap.after action) := by
  cases action with
  | newArray element items =>
    simp only [after]
    cases made : heap.store.newArray element items with
    | error mismatch => exact .idles
    | ok result =>
      -- An array that is made holds its items from the start.
      obtain ⟨array, store⟩ := result
      obtain ⟨-, rfl, rfl⟩ := Store.newArray_eq_ok.mp made
      exact .makes (.array _) rfl
  | newCollection kind items =>
    simp only [after, Store.newCollection]
    split
    · simp only [Except.map, attempt]
      -- Pushing the items into a new collection is making it of those that it keeps.
      rw [Store.pushAll_add _ _ rfl]
      exact .makes (.collection _) rfl
    · exact .idles
  | newSequence items => exact .makes (.collection (heap.store.newSequence items).1) rfl
  | newSet items =>
    simp only [after, attempt, Store.newSet]
    rw [Store.pushAll_add _ _ rfl]
    exact .makes (.collection _) rfl
  -- An item that is refused changes nothing, and any other is written.
  | push collection item =>
    simp only [after]
    cases refused : heap.store.refuses collection item with
    | true => rw [Store.push_of_refused refused]; exact .idles
    | false => rw [Store.push_of_taken refused]; exact .writes (.collection collection) _ rfl
  | newMap kind =>
    simp only [after, Store.newMap]
    split
    · exact .makes (.map _) rfl
    · exact .idles
  -- Inserting the entries into a new map is making it of those that it keeps.
  | newMapOf entries =>
    simp only [after, attempt, Store.newMapOf]
    rw [Store.insertAll_add _ _ rfl]
    exact .makes (.map _) rfl
  | insert map key value => exact .writes (.map map) _ rfl
  | newObject kind =>
    simp only [after, Store.newObject]
    split
    · exact .makes (.object _) rfl
    · exact .idles
  | setMember object name value => exact .writes (.object object) _ rfl
  | newThreadScoped => exact .makes (.threadScoped _) rfl
  | bind box value => exact .writes (.threadScoped box) _ rfl
  | unbind box => exact .writes (.threadScoped box) _ rfl
  -- Neither another thread nor a removal changes what is there.
  | onThread thread => exact .shrinks _ fun _ _ present => present
  | reclaim roots => exact .shrinks _ fun _ _ => Store.contents?_reclaim

/-- An action leaves the nodes that were made, or it makes one more. -/
theorem nodes_after (heap : Heap) (action : Action) :
    (heap.after action).nodes = heap.nodes ∨ ∃ node : Node, node.id = ⟨heap.store.cells.size⟩ ∧
      heap.after action = ⟨(heap.store.add (action.filling node)).2, node :: heap.nodes⟩ := by
  -- An action makes one node or none.
  have effect := heap.effect action
  generalize heap.after action = later at effect ⊢
  cases effect with
  | makes node fresh => exact .inr ⟨node, fresh, rfl⟩
  | _ => exact .inl rfl

variable {heap : Heap} {action : Action} {node : Node}

/-- A node that is made is at the next place, and it holds what the action puts there. -/
theorem made_by (made : (heap.after action).nodes = node :: heap.nodes) :
    node.id = ⟨heap.store.cells.size⟩ ∧
      (heap.after action).store.contents? node.id = some (action.filling node) := by
  -- The nodes became more, so the action made the first of them.
  rcases heap.nodes_after action with same | ⟨other, fresh, after⟩
  · exact absurd (same.symm.trans made).symm (List.cons_ne_self _ _)
  · rw [after] at made ⊢
    obtain rfl := (List.cons.inj made).1
    exact ⟨fresh, fresh ▸ heap.store.contents?_add_self _⟩

/-- A node that is made was not known before. -/
theorem not_mem_nodes_of_made (sound : heap.store.Sound heap.nodes)
    (made : (heap.after action).nodes = node :: heap.nodes) : node ∉ heap.nodes := by
  -- The new node is behind the places of all others.
  intro listed
  have placed := sound.placed node listed
  rw [(made_by made).1] at placed
  exact Nat.lt_irrefl _ placed

/-- The nodes that are known after an action were known before, or the action touched them. -/
theorem mem_nodes_after_iff (allowed : heap.Allowed action) :
    node ∈ (heap.after action).nodes ↔ node ∈ heap.nodes ∨ heap.Touches action node := by
  -- What an action changes was made before.
  have reached (target : action.target? = some node) : node ∈ heap.nodes :=
    (allowed.target node target).1
  rcases heap.nodes_after action with same | ⟨other, -, after⟩
  · rw [same]
    constructor
    · exact .inl
    · rintro (listed | target | made)
      · exact listed
      · exact reached target
      · exact absurd (same.symm.trans made).symm (List.cons_ne_self _ _)
  -- The node that is made is the one that the action touches.
  · have nodes : (heap.after action).nodes = other :: heap.nodes := congrArg Heap.nodes after
    rw [nodes, List.mem_cons, Touches, nodes, List.cons.injEq, and_iff_left rfl]
    constructor
    · rintro (rfl | listed)
      · exact .inr (.inr rfl)
      · exact .inl listed
    · rintro (listed | target | rfl)
      · exact .inr listed
      · exact .inr (reached target)
      · exact .inl rfl

/-- A node that an action does not touch holds what it held, while it is there. -/
theorem contents?_of_untouched (sound : heap.store.Sound heap.nodes) (allowed : heap.Allowed action)
    (listed : node ∈ heap.nodes) (untouched : ¬ heap.Touches action node) {contents : Contents}
    (present : (heap.after action).store.contents? node.id = some contents) :
    heap.store.contents? node.id = some contents := by
  have placed := sound.placed node listed
  have effect := heap.effect action
  generalize heap.after action = later at present effect
  cases effect with
  | makes other fresh =>
    -- The new node is behind all those that were made before.
    rwa [Store.contents?_add, if_neg] at present
    exact fun same => Nat.lt_irrefl _ (same ▸ placed)
  | writes other written target =>
    -- The node that is written is another one, and no two nodes share a place.
    have known := (allowed.target other target).1
    rwa [Store.contents?_write (sound.placed other known), if_neg] at present
    exact fun same => untouched (.inl (sound.apart node listed other known same ▸ target))
  | idles => exact present
  | shrinks store kept => exact kept _ _ present

/-- What an allowed action leads to is a store that a program can build. -/
theorem built_after (built : Store.Built heap.store heap.nodes) (allowed : heap.Allowed action) :
    Store.Built (heap.after action).store (heap.after action).nodes := by
  -- Each action is one operation on the store, and its values are known by being allowed.
  obtain ⟨target, values⟩ := allowed
  cases action with
  | newArray element items =>
    simp only [after]
    -- Nothing happens where an item does not fit.
    cases made : heap.store.newArray element items with
    | error mismatch => exact built
    | ok result => exact built.newArray values made
  | newCollection kind items =>
    simp only [after]
    cases made : heap.store.newCollection kind with
    | error mismatch => exact built
    | ok result =>
      -- The items are known before the collection is.
      exact (built.newCollection made).pushAll List.mem_cons_self items fun item listed =>
        (values item listed).cons _
  | newSequence items => exact built.newSequence values
  | newSet items => exact built.newSet items values
  | push collection item => exact built.push (target _ rfl).1 (values item List.mem_cons_self)
  | newMap kind =>
    simp only [after]
    cases made : heap.store.newMap kind with
    | error mismatch => exact built
    | ok result => exact built.newMap made
  | newMapOf entries =>
    -- Keys and values are both among the values of the action.
    have sides (entry : Value × Value) (listed : entry ∈ entries) (side : Value)
        (either : side ∈ [entry.1, entry.2]) : side.Known heap.nodes :=
      values side (List.mem_flatMap.mpr ⟨entry, listed, either⟩)
    exact built.newMapOf entries fun entry listed =>
      ⟨sides entry listed _ (by simp), sides entry listed _ (by simp)⟩
  | insert map key value =>
    obtain ⟨keyKnown, known⟩ := List.forall_mem_cons.mp values
    exact built.insert (target _ rfl).1 keyKnown (known value List.mem_cons_self)
  | newObject kind =>
    simp only [after]
    cases made : heap.store.newObject kind with
    | error mismatch => exact built
    | ok result => exact built.newObject made
  | setMember object name value =>
    exact built.setMember (target _ rfl).1 (values value List.mem_cons_self)
  | newThreadScoped => exact built.newThreadScoped
  | bind box value => exact built.bind (target _ rfl).1 (values value List.mem_cons_self)
  | unbind box => exact built.unbind (target _ rfl).1
  | onThread thread => exact built.onThread
  | reclaim roots => exact built.reclaim

/-! ### Whatever a program does -/

/-- An allowed program leads to a store that a program can build. -/
theorem built_run {program : List Action} (allowed : empty.Allows program) :
    Store.Built (empty.run program).store (empty.run program).nodes := by
  -- The induction is on the program from its last action, which is allowed after the others.
  induction program using List.reverseRecOn with
  | nil => exact .empty
  | append_singleton program last built =>
    obtain ⟨before, here⟩ := (allows_concat ..).mp allowed
    rw [run_concat]
    exact built_after (built before) here

section record

variable {Input : Type} {program : List Action}

/-- Nothing is put into a node before it is made. -/
theorem record_of_unmade (input : Heap → Action → List Input) (allowed : empty.Allows program)
    (unmade : node ∉ (empty.run program).nodes) : record input node empty program = [] := by
  -- The induction is on the program from its last action; nothing touches a node that is not made.
  induction program using List.reverseRecOn with
  | nil => rfl
  | append_singleton program last quiet =>
    obtain ⟨before, here⟩ := (allows_concat ..).mp allowed
    rw [run_concat, mem_nodes_after_iff here, not_or] at unmade
    rw [record_concat, quiet before unmade.1, if_neg unmade.2, List.append_nil]

/-- What a node holds is told by what was put there, whatever else a program does. -/
theorem contents?_record (input : Heap → Action → List Input) (shape : List Input → Contents)
    (starts : ∀ (heap : Heap) (action : Action), (heap.after action).nodes = node :: heap.nodes →
      action.filling node = shape (input heap action))
    (grows : ∀ (heap : Heap) (action : Action) (before : List Input), heap.store.Sound heap.nodes →
      node ∈ heap.nodes → action.target? = some node →
      heap.store.contents? node.id = some (shape before) →
      (heap.after action).store.contents? node.id = some (shape (before ++ input heap action)))
    (allowed : empty.Allows program) (has : (empty.run program).Has node) :
    (empty.run program).store.contents? node.id =
      some (shape (record input node empty program)) := by
  induction program using List.reverseRecOn with
  | nil => exact absurd has.1 List.not_mem_nil
  | append_singleton program last held =>
    obtain ⟨before, here⟩ := (allows_concat ..).mp allowed
    have sound := (built_run before).sound
    rw [run_concat] at has ⊢
    rw [record_concat]
    -- The last action changes the node, makes it, or has nothing to do with it.
    by_cases touched : (empty.run program).Touches last node
    · rw [if_pos touched]
      rcases touched with target | made
      · have had := here.target node target
        exact grows _ last _ sound had.1 target (held before had)
      · -- The first that is put into a node is what it is made of.
        have unmade := not_mem_nodes_of_made sound made
        rw [(made_by made).2, record_of_unmade input before unmade, starts _ last made]
        rfl
    · have listed := ((mem_nodes_after_iff here).mp has.1).resolve_right touched
      obtain ⟨contents, present⟩ := Option.isSome_iff_exists.mp has.2
      have unchanged := contents?_of_untouched sound here listed touched present
      rw [if_neg touched, List.append_nil, present, ← unchanged]
      exact held before ⟨listed, Option.isSome_iff_exists.mpr ⟨contents, unchanged⟩⟩

/-- So it is where it does not matter from which heap an action starts. -/
theorem contents?_run (input : Action → List Input) (shape : List Input → Contents)
    (starts : ∀ action : Action, action.filling node = shape (input action))
    (grows : ∀ (heap : Heap) (action : Action) (before : List Input), heap.store.Sound heap.nodes →
      node ∈ heap.nodes → action.target? = some node →
      heap.store.contents? node.id = some (shape before) →
      (heap.after action).store.contents? node.id = some (shape (before ++ input action)))
    (allowed : empty.Allows program) (has : (empty.run program).Has node) :
    (empty.run program).store.contents? node.id = some (shape (log input node empty program)) := by
  -- The log is a record that looks at the actions alone.
  rw [log_eq_record]
  exact contents?_record (fun _ => input) shape (fun _ action _ => starts action) grows allowed has

end record

end Heap

end GraphRules
