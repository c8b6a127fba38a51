import GraphRules.Value

/-! The store of nodes: what each node holds, and the operations that read and change it. -/

namespace GraphRules

/-- A container was built with a kind, or around a kind, that does not fit it. -/
structure KindMismatch where
  expected : Kind
  found : Kind
deriving DecidableEq

/-- The text that reports the mismatch. -/
def KindMismatch.message (mismatch : KindMismatch) : String :=
  s!"kind mismatch: expected {mismatch.expected}, found {mismatch.found}"

/-- The members of an object in order of first setting, each name once. -/
structure Members where
  entries : List (String × Value)
  distinct : (entries.map (·.1)).Nodup

namespace Members

/-- No members. -/
def empty : Members := ⟨[], .nil⟩

/-- Entries after a setting: a known name keeps its place, and a new one goes last. -/
def setEntry (name : String) (value : Value) : List (String × Value) → List (String × Value)
  | [] => [(name, value)]
  | (other, stored) :: rest =>
    -- The first entry of the name is the only one.
    if name == other then (other, value) :: rest
    else (other, stored) :: setEntry name value rest

/-- A setting adds at most its own name. -/
theorem mem_names_setEntry {name other : String} {value : Value} {entries : List (String × Value)}
    (listed : other ∈ (setEntry name value entries).map (·.1)) :
    other = name ∨ other ∈ entries.map (·.1) := by
  induction entries with
  | nil => simpa [setEntry] using listed
  | cons entry rest found =>
    obtain ⟨first, stored⟩ := entry
    by_cases same : name = first
    · -- The entry in front is replaced, under the name that it has.
      simp_all [setEntry]
    · -- The entry in front stays, and the rest is set.
      simp only [setEntry, beq_iff_eq, same, if_false, List.map_cons, List.mem_cons] at listed ⊢
      rcases listed with first | later
      · exact .inr (.inl first)
      · exact (found later).imp_right .inr

/-- A setting keeps the names apart. -/
theorem setEntry_distinct (name : String) (value : Value) {entries : List (String × Value)}
    (distinct : (entries.map (·.1)).Nodup) :
    ((setEntry name value entries).map (·.1)).Nodup := by
  induction entries with
  | nil => simp [setEntry]
  | cons entry rest kept =>
    obtain ⟨first, stored⟩ := entry
    by_cases same : name = first
    · -- The names are the same before and after.
      simp_all [setEntry]
    · simp only [setEntry, beq_iff_eq, same, if_false, List.map_cons, List.nodup_cons] at distinct ⊢
      refine ⟨fun again => ?_, kept distinct.2⟩
      -- The name in front is neither the one set nor one of the others.
      rcases mem_names_setEntry again with set | other
      · exact same set.symm
      · exact distinct.1 other

/-- Sets a member. -/
def set (members : Members) (name : String) (value : Value) : Members :=
  ⟨setEntry name value members.entries, setEntry_distinct name value members.distinct⟩

end Members

/-- What a node holds. -/
inductive Contents
  /-- The items of an array or a collection. -/
  | items (items : List Value)
  /-- The entries of a map in order of first insertion. -/
  | entries (entries : List (Value × Value))
  /-- The members of an object. -/
  | members (members : Members)
  /-- The bindings of a thread-scoped box. -/
  | bindings (bindings : List (Thread × Value))

namespace Contents

/-- Every value that a node holds. -/
def values : Contents → List Value
  | .items held => held
  | .entries held => held.flatMap fun (key, value) => [key, value]
  | .members held => held.entries.map (·.2)
  | .bindings held => held.map (·.2)

end Contents

/-- All nodes made so far, as the running thread sees them. -/
structure Store where
  -- At the index of its identity, and empty once the node is gone.
  cells : Array (Option Contents)
  running : Thread

namespace Store

/-- The store without nodes. -/
def empty : Store := ⟨#[], ⟨0⟩⟩

/-- What a node holds, while it is there. -/
def contents? (store : Store) (id : NodeId) : Option Contents :=
  store.cells[id.index]?.join

/-- Every value that some node holds. -/
def values (store : Store) : List Value :=
  store.cells.toList.flatMap fun cell => (cell.map Contents.values).getD []

/-- Whether a node is still there. -/
def isLive (store : Store) (id : NodeId) : Bool :=
  (store.contents? id).isSome

/-- Replaces what a node holds. -/
def write (store : Store) (id : NodeId) (contents : Contents) : Store :=
  { store with cells := store.cells.setIfInBounds id.index (some contents) }

/-- Adds a node under an identity that no node had before. -/
def add (store : Store) (contents : Contents) : NodeId × Store :=
  (⟨store.cells.size⟩, { store with cells := store.cells.push (some contents) })

/-- The store as another thread sees it. -/
def onThread (store : Store) (thread : Thread) : Store :=
  { store with running := thread }

/-- The referent of a weak reference, while its node is there. -/
def upgrade? (store : Store) (target : Option Node) : Option Value :=
  target.bind fun node => if store.isLive node.id then some (.node node) else none

/-! ### Arrays -/

/-- Whether an array with this element kind takes a value, null unless it is primitive. -/
def accepts (element : Kind) (item : Value) : Bool :=
  if item.isNull then !element.isPrimitive else item.kind.isAssignableTo element

/-- Makes an array, unless some item does not fit its element kind. -/
def newArray (store : Store) (element : Kind) (items : List Value) :
    Except KindMismatch (FixedArray × Store) :=
  match items.find? (fun item => !accepts element item) with
  | some item => .error ⟨element, item.kind⟩
  | none =>
    let (id, store) := store.add (.items items)
    .ok (⟨id, element⟩, store)

/-- The items of the array or collection with this identity. -/
def itemsAt (store : Store) (id : NodeId) : List Value :=
  match store.contents? id with
  | some (.items held) => held
  | _ => []

/-! ### Collections -/

/-- Makes an empty collection, unless its kind is not iterable. -/
def newCollection (store : Store) (kind : Kind) : Except KindMismatch (Collection × Store) :=
  if iterable : kind.isAssignableTo .iterable then
    let (id, store) := store.add (.items [])
    .ok (⟨id, kind, iterable⟩, store)
  else .error ⟨.iterable, kind⟩

/-- The items of a collection in iteration order. -/
def items (store : Store) (collection : Collection) : List Value :=
  store.itemsAt collection.id

end Store

/-- Whether a collection drops duplicates. -/
def Collection.isSet (collection : Collection) : Bool :=
  collection.kind.isAssignableTo .set

namespace Store

/-- Appends an item and tells whether it did: a set keeps the first of equal items only. -/
def push (store : Store) (collection : Collection) (item : Value) : Bool × Store :=
  let items := store.items collection
  -- Equality is that of values, so two nodes with equal contents are both kept.
  if collection.isSet && items.any (·.equal item) then (false, store)
  else (true, store.write collection.id (.items (items ++ [item])))

/-- Appends items in order. -/
def pushAll (store : Store) (collection : Collection) (items : List Value) : Store :=
  items.foldl (fun store item => (store.push collection item).2) store

/-- Makes a sequence of the given items. -/
def newSequence (store : Store) (items : List Value) : Collection × Store :=
  let (id, store) := store.add (.items items)
  (⟨id, .sequence, by decide⟩, store)

/-- Makes a set of the given items, in which the first of equal items stays. -/
def newSet (store : Store) (items : List Value) : Collection × Store :=
  let (id, store) := store.add (.items [])
  -- The items go in one by one, since each may equal an earlier one.
  let collection : Collection := ⟨id, .set, by decide⟩
  (collection, store.pushAll collection items)

/-! ### Maps -/

/-- Makes an empty map, unless its kind is not keyed. -/
def newMap (store : Store) (kind : Kind) : Except KindMismatch (Map × Store) :=
  if keyed : kind.isKeyed then
    let (id, store) := store.add (.entries [])
    .ok (⟨id, kind, keyed⟩, store)
  else .error ⟨.map, kind⟩

/-- The entries of a map in order of first insertion. -/
def entries (store : Store) (map : Map) : List (Value × Value) :=
  match store.contents? map.id with
  | some (.entries held) => held
  | _ => []

/-- The value stored under a key. -/
def lookup? (store : Store) (map : Map) (key : Value) : Option Value :=
  ((store.entries map).find? (·.1.equal key)).map (·.2)

/-- Entries after an insertion: an equal key keeps its place, and a new one goes last. -/
def insertEntry (key value : Value) : List (Value × Value) → List (Value × Value)
  | [] => [(key, value)]
  | (other, stored) :: rest =>
    -- The stored key stays even where the new one is equal in another form.
    if other.equal key then (other, value) :: rest
    else (other, stored) :: insertEntry key value rest

/-- Inserts an entry and gives back the value it replaces. -/
def insert (store : Store) (map : Map) (key value : Value) : Option Value × Store :=
  (store.lookup? map key,
    store.write map.id (.entries (insertEntry key value (store.entries map))))

/-- Inserts entries in order. -/
def insertAll (store : Store) (map : Map) (entries : List (Value × Value)) : Store :=
  entries.foldl (fun store (key, value) => (store.insert map key value).2) store

/-- Makes a map of the built-in map kind from entries, in which the last of equal keys wins. -/
def newMapOf (store : Store) (entries : List (Value × Value)) : Map × Store :=
  let (id, store) := store.add (.entries [])
  let map : Map := ⟨id, .map, by decide⟩
  (map, store.insertAll map entries)

/-! ### Objects -/

/-- Makes an object without members, unless its kind is not structured. -/
def newObject (store : Store) (kind : Kind) : Except KindMismatch (Object × Store) :=
  if structured : kind.isAssignableTo .object then
    let (id, store) := store.add (.members .empty)
    .ok (⟨id, kind, structured⟩, store)
  else .error ⟨.object, kind⟩

/-- Makes an object that has no declared kind. -/
def newAnonymous (store : Store) : Object × Store :=
  let (id, store) := store.add (.members .empty)
  (⟨id, .object, by decide⟩, store)

/-- The members of an object. -/
def memberTable (store : Store) (object : Object) : Members :=
  match store.contents? object.id with
  | some (.members held) => held
  | _ => .empty

/-- The members of an object in order of first setting. -/
def members (store : Store) (object : Object) : List (String × Value) :=
  (store.memberTable object).entries

/-- The value of a member. -/
def member? (store : Store) (object : Object) (name : String) : Option Value :=
  (store.members object).lookup name

/-- Sets a member and gives back its previous value. -/
def setMember (store : Store) (object : Object) (name : String) (value : Value) :
    Option Value × Store :=
  (store.member? object name,
    store.write object.id (.members ((store.memberTable object).set name value)))

/-! ### Thread-scoped boxes -/

/-- Makes a box that no thread has bound. -/
def newThreadScoped (store : Store) : ThreadScoped × Store :=
  let (id, store) := store.add (.bindings [])
  (⟨id⟩, store)

/-- The bindings of a box, one for each thread that holds one. -/
def bindings (store : Store) (box : ThreadScoped) : List (Thread × Value) :=
  match store.contents? box.id with
  | some (.bindings held) => held
  | _ => []

/-- The binding of the running thread. -/
def binding? (store : Store) (box : ThreadScoped) : Option Value :=
  (store.bindings box).lookup store.running

/-- The bindings of all other threads. -/
def otherBindings (store : Store) (box : ThreadScoped) : List (Thread × Value) :=
  (store.bindings box).filter (·.1 != store.running)

/-- Binds a value for the running thread and gives back its previous binding. -/
def bind (store : Store) (box : ThreadScoped) (value : Value) : Option Value × Store :=
  (store.binding? box,
    -- The binding made last stands last.
    store.write box.id (.bindings (store.otherBindings box ++ [(store.running, value)])))

/-- Removes the binding of the running thread and gives it back. -/
def unbind (store : Store) (box : ThreadScoped) : Option Value × Store :=
  (store.binding? box, store.write box.id (.bindings (store.otherBindings box)))

/-- How many threads hold a binding, whether or not they still run. -/
def boundThreads (store : Store) (box : ThreadScoped) : Nat :=
  (store.bindings box).length

/-! ### Sizes -/

/-- How much a value contains, in characters, items or entries. -/
def size? (store : Store) : Value → Option Nat
  | .text content => some content.length
  | .node (.array array) => some (store.itemsAt array.id).length
  | .node (.collection collection) => some (store.items collection).length
  | .node (.map map) => some (store.entries map).length
  | _ => none

end Store

end GraphRules
