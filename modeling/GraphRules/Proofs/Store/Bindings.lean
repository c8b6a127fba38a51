import GraphRules.Proofs.Store.Program
import Mathlib.Data.List.Dedup

/-! The bindings of thread-scoped boxes over whole programs, of which each thread sees its own. -/

namespace GraphRules

/-- A call that changes a thread-scoped box. -/
structure ScopedCall where
  /-- The thread that makes the call. -/
  thread : Thread
  /-- The value that it binds, or nothing where it takes its binding. -/
  bound : Option Value

namespace ScopedCall

/-- What a thread has bound by the last of its calls, unless it has taken it. -/
def latest? (calls : List ScopedCall) (thread : Thread) : Option Value :=
  (calls.reverse.find? (·.thread == thread)).bind (·.bound)

/-- One more call settles what its own thread has bound. -/
theorem latest?_concat (calls : List ScopedCall) (last : ScopedCall) (thread : Thread) :
    latest? (calls ++ [last]) thread = if thread = last.thread then last.bound
      else latest? calls thread := by
  -- The last call is the first from behind, and decides for its own thread.
  rw [latest?, List.reverse_concat, List.find?_cons]
  by_cases own : thread = last.thread
  · simp [own]
  · have other : (last.thread == thread) = false := beq_eq_false_iff_ne.mpr (Ne.symm own)
    rw [other, if_neg own]
    rfl

/-- A thread that has made no call has bound nothing. -/
theorem mem_of_latest? {calls : List ScopedCall} {thread : Thread}
    (bound : (latest? calls thread).isSome = true) :
    thread ∈ calls.map (·.thread) := by
  -- A call of the thread is found among the calls.
  cases found : calls.reverse.find? (·.thread == thread) with
  | none => simp [latest?, found] at bound
  | some call =>
    have own : call.thread = thread := by simpa using List.find?_some found
    have listed := List.mem_reverse.mp (List.mem_of_find?_eq_some found)
    exact own ▸ List.mem_map_of_mem listed

end ScopedCall

namespace Store

/-! ### What a box keeps -/

/-- The bindings after a call: those of other threads stay, and what is bound goes last. -/
def keepCall (held : List (Thread × Value)) (call : ScopedCall) : List (Thread × Value) :=
  held.filter (·.1 != call.thread) ++ (call.bound.map fun value => (call.thread, value)).toList

/-- The bindings that a box keeps of the calls that were made. -/
def keepBindings (calls : List ScopedCall) : List (Thread × Value) := calls.foldl keepCall []

/-- One more call is made after all others. -/
theorem keepBindings_concat (calls : List ScopedCall) (last : ScopedCall) :
    keepBindings (calls ++ [last]) = keepCall (keepBindings calls) last :=
  List.foldl_append

/-- Leaving out the bindings of one thread leaves those of all others. -/
theorem lookup_filter_ne (held : List (Thread × Value)) (left thread : Thread) :
    (held.filter (·.1 != left)).lookup thread = if thread = left then none
      else held.lookup thread := by
  induction held with
  | nil => simp
  | cons binding rest behind =>
    obtain ⟨first, value⟩ := binding
    by_cases out : first = left
    · -- The binding in front is left out, and it is not that of another thread.
      subst out
      by_cases own : thread = first
      · simpa [own] using behind
      · have differs : (thread == first) = false := beq_eq_false_iff_ne.mpr own
        simpa [own, List.lookup_cons, differs] using behind
    · by_cases own : thread = first
      -- The binding in front stays, and is the one that is asked for.
      · subst own
        simp [out]
      · have differs : (thread == first) = false := beq_eq_false_iff_ne.mpr own
        simpa [out, List.lookup_cons, differs] using behind

/-- After a call, its thread has what it bound, and every other thread has what it had. -/
theorem lookup_keepCall (held : List (Thread × Value)) (call : ScopedCall) (thread : Thread) :
    (keepCall held call).lookup thread = if thread = call.thread then call.bound
      else held.lookup thread := by
  -- A call removes the entry of its thread and puts the new one in its place, if there is one.
  rw [keepCall, List.lookup_append, lookup_filter_ne]
  by_cases own : thread = call.thread
  · subst own
    cases call.bound <;> simp
  · have differs : (thread == call.thread) = false := beq_eq_false_iff_ne.mpr own
    cases call.bound <;> simp [own, List.lookup_cons, differs]

/-- A thread finds what it has bound by the last of its calls. -/
theorem lookup_keepBindings (calls : List ScopedCall) (thread : Thread) :
    (keepBindings calls).lookup thread = ScopedCall.latest? calls thread := by
  -- The induction is on the calls from the last one, which decides for its thread.
  induction calls using List.reverseRecOn with
  | nil => rfl
  | append_singleton calls last found =>
    rw [keepBindings_concat, lookup_keepCall, found, ScopedCall.latest?_concat]

/-- A box keeps one binding of a thread at most. -/
theorem threads_keepBindings_distinct (calls : List ScopedCall) :
    ((keepBindings calls).map (·.1)).Nodup := by
  induction calls using List.reverseRecOn with
  | nil => exact .nil
  | append_singleton calls last distinct =>
    rw [keepBindings_concat, keepCall, List.map_append]
    -- Leaving bindings out keeps the others distinct.
    have others : (((keepBindings calls).filter (·.1 != last.thread)).map (·.1)).Nodup :=
      distinct.sublist (List.filter_sublist.map _)
    cases last.bound with
    | none => simpa using others
    | some value =>
      -- The thread of the call has no binding among the others.
      refine List.nodup_append.mpr ⟨others, by simp, ?_⟩
      intro thread listed own named
      obtain ⟨binding, kept, rfl⟩ := List.mem_map.mp listed
      have other : binding.1 ≠ last.thread := by simpa using (List.mem_filter.mp kept).2
      have caller : own = last.thread := by simpa using named
      rw [caller]
      exact other

/-- A box keeps as many bindings as there are threads that have bound something and not taken it. -/
theorem length_keepBindings (calls : List ScopedCall) :
    (keepBindings calls).length =
      (calls.map (·.thread)).dedup.countP fun thread =>
        (ScopedCall.latest? calls thread).isSome := by
  rw [List.countP_eq_length_filter, ← List.length_map (·.1)]
  apply List.Perm.length_eq
  -- Both lists name each thread once, and they name the same threads.
  rw [List.perm_ext_iff_of_nodup (threads_keepBindings_distinct calls)
    ((List.nodup_dedup _).filter _)]
  intro thread
  -- A thread is kept exactly if its latest call bound a value.
  have kept : thread ∈ (keepBindings calls).map (·.1) ↔
      (ScopedCall.latest? calls thread).isSome = true := by
    rw [← lookup_keepBindings, List.lookup_isSome_iff]
    simp
  rw [kept, List.mem_filter, List.mem_dedup]
  constructor
  · intro bound
    exact ⟨ScopedCall.mem_of_latest? bound, bound⟩
  · intro both
    exact both.2

/-! ### One call -/

section call

variable {store : Store} {box : ThreadScoped}

/-- A box has the bindings that its node holds. -/
theorem bindings_of_contents {held : List (Thread × Value)}
    (present : store.contents? box.id = some (.bindings held)) : store.bindings box = held := by
  rw [bindings, present]

/-- A binding is kept like any call. -/
theorem contents?_bind (placed : box.id.index < store.cells.size) (value : Value) :
    (store.bind box value).2.contents? box.id =
      some (.bindings (keepCall (store.bindings box) ⟨store.running, some value⟩)) := by
  -- What is written is what the call keeps of the bindings.
  rw [bind, contents?_write placed, if_pos rfl]
  rfl

/-- A taking is kept like any call. -/
theorem contents?_unbind (placed : box.id.index < store.cells.size) :
    (store.unbind box).2.contents? box.id =
      some (.bindings (keepCall (store.bindings box) ⟨store.running, none⟩)) := by
  -- What is written is what the call keeps of the bindings, with nothing added.
  rw [unbind, contents?_write placed, if_pos rfl, keepCall, Option.map_none, Option.toList_none,
    List.append_nil]
  rfl

/-- After a binding, its thread finds the value, and every other thread what it found before. -/
theorem binding?_bind (placed : box.id.index < store.cells.size) (value : Value) (thread : Thread) :
    ((store.bind box value).2.onThread thread).binding? box =
      if thread = store.running then some value else (store.onThread thread).binding? box := by
  -- Only the list of the box is looked at, and it has one call more.
  have held := bindings_of_contents (contents?_bind placed value)
  change ((store.bind box value).2.bindings box).lookup thread = _
  rw [held, lookup_keepCall]
  rfl

/-- After a taking, its thread finds nothing, and every other thread what it found before. -/
theorem binding?_unbind (placed : box.id.index < store.cells.size) (thread : Thread) :
    ((store.unbind box).2.onThread thread).binding? box =
      if thread = store.running then none else (store.onThread thread).binding? box := by
  -- Only the list of the box is looked at, and it has one call more.
  have held := bindings_of_contents (contents?_unbind placed)
  change ((store.unbind box).2.bindings box).lookup thread = _
  rw [held, lookup_keepCall]
  rfl

end call

end Store

namespace Heap

/-! ### Whole programs -/

/-- The call that an action makes on the box that it changes, by the thread that runs. -/
def scopedCall (heap : Heap) : Action → List ScopedCall
  | .bind _ value => [⟨heap.store.running, some value⟩]
  | .unbind _ => [⟨heap.store.running, none⟩]
  | _ => []

/-- The calls that a program makes on a box, in order. -/
def scopedCalls (box : ThreadScoped) (program : List Action) : List ScopedCall :=
  record scopedCall (.threadScoped box) empty program

/-- A box holds what it keeps of the calls that the program made on it. -/
theorem contents?_of_box {program : List Action} (allowed : empty.Allows program)
    {box : ThreadScoped} (has : (empty.run program).Has (.threadScoped box)) :
    (empty.run program).store.contents? box.id =
      some (.bindings (Store.keepBindings (scopedCalls box program))) := by
  refine contents?_record scopedCall
    (fun calls => .bindings (Store.keepBindings calls)) ?starts ?grows
    allowed has
  case starts =>
    intro heap action made
    -- What makes a node is no call.
    cases action with
    | bind other value => exact absurd made.symm (List.cons_ne_self _ _)
    | unbind other => exact absurd made.symm (List.cons_ne_self _ _)
    | _ => rfl
  case grows =>
    intro heap action before sound known target held
    -- What the box held before is what is kept of the calls before.
    have bindings := Store.bindings_of_contents held
    -- Only calls change a box.
    cases action with
    | bind other value =>
      obtain rfl := Node.threadScoped.inj (Option.some.inj target)
      have kept := Store.contents?_bind (sound.placed _ known) value
      rw [bindings, ← Store.keepBindings_concat] at kept
      exact kept
    | unbind other =>
      obtain rfl := Node.threadScoped.inj (Option.some.inj target)
      have kept := Store.contents?_unbind (sound.placed _ known)
      rw [bindings, ← Store.keepBindings_concat] at kept
      exact kept
    | _ => cases target

/-- Each thread finds in a box what it has bound last and not taken since, whatever others do. -/
theorem boxes_isolate_threads {program : List Action} (allowed : empty.Allows program)
    {box : ThreadScoped} (has : (empty.run program).Has (.threadScoped box)) :
    let store := (empty.run program).store
    let calls := scopedCalls box program
    (∀ thread, (store.onThread thread).binding? box = ScopedCall.latest? calls thread) ∧
    -- A binding gives back what the thread found, and is found by this thread alone.
    (∀ thread value,
      ((store.onThread thread).bind box value).1 = (store.onThread thread).binding? box ∧
      ∀ other, (((store.onThread thread).bind box value).2.onThread other).binding? box =
        if other = thread then some value else (store.onThread other).binding? box) ∧
    -- A taking gives it back too, and leaves nothing to this thread.
    (∀ thread,
      ((store.onThread thread).unbind box).1 = (store.onThread thread).binding? box ∧
      ∀ other, (((store.onThread thread).unbind box).2.onThread other).binding? box =
        if other = thread then none else (store.onThread other).binding? box) ∧
    -- The box counts the threads that have a binding, whether or not they ever run again.
    store.boundThreads box =
      (calls.map (·.thread)).dedup.countP fun thread =>
        (ScopedCall.latest? calls thread).isSome := by
  intro store calls
  -- All that matters of the run is that the box holds what it keeps of the calls.
  have bindings : store.bindings box = Store.keepBindings calls :=
    Store.bindings_of_contents (contents?_of_box allowed has)
  have placed : box.id.index < store.cells.size := (built_run allowed).sound.placed _ has.1
  -- Which thread runs makes no difference to where the box is.
  have still (thread : Thread) : box.id.index < (store.onThread thread).cells.size := placed
  refine ⟨fun thread => ?found, fun thread value => ⟨rfl, ?bound⟩, fun thread => ⟨rfl, ?taken⟩,
    ?counted⟩
  case found =>
    change (store.bindings box).lookup thread = _
    rw [bindings, Store.lookup_keepBindings]
  case bound => exact Store.binding?_bind (still thread) value
  case taken => exact Store.binding?_unbind (still thread)
  case counted => rw [Store.boundThreads, bindings, Store.length_keepBindings]

namespace Desk

def box : ThreadScoped := ⟨⟨0⟩⟩

/-- The first thread binds twice, the second takes what it bound, and the third binds and ends. -/
def program : List Action :=
  [.newThreadScoped, .bind box (.text "early"),
    .onThread ⟨1⟩, .bind box (.text "second"),
    .onThread ⟨2⟩, .bind box (.text "third"),
    .onThread ⟨1⟩, .unbind box,
    .onThread ⟨0⟩, .bind box (.text "late"), .newSequence [.null]]

end Desk

/-- Each thread finds its own, and a taking by the third leaves the first alone. -/
theorem boxes_isolate_threads_desk :
    let store := (empty.run Desk.program).store
    empty.Allows Desk.program ∧ (empty.run Desk.program).Has (.threadScoped Desk.box) ∧
      (store.onThread ⟨0⟩).binding? Desk.box = some (.text "late") ∧
      (store.onThread ⟨1⟩).binding? Desk.box = none ∧
      ((store.onThread ⟨2⟩).unbind Desk.box).1 = some (.text "third") ∧
      (((store.onThread ⟨2⟩).unbind Desk.box).2.onThread ⟨0⟩).binding? Desk.box =
        some (.text "late") ∧
      store.boundThreads Desk.box = 2 := by
  -- The program is allowed, so each part of the theorem can be read off its calls.
  intro store
  have allowed : empty.Allows Desk.program := by decide
  have has : (empty.run Desk.program).Has (.threadScoped Desk.box) := by decide
  obtain ⟨found, -, taken, counted⟩ := boxes_isolate_threads allowed has
  have first : (store.onThread ⟨0⟩).binding? Desk.box = some (.text "late") :=
    (found ⟨0⟩).trans (by decide)
  obtain ⟨given, others⟩ := taken ⟨2⟩
  refine ⟨allowed, has, first, (found ⟨1⟩).trans (by decide), ?_, ?_, counted.trans (by decide)⟩
  · exact given.trans ((found ⟨2⟩).trans (by decide))
  · exact (others ⟨0⟩).trans first

end Heap

end GraphRules
