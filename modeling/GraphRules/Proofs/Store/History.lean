import GraphRules.Lifetime

/-! What can become of a store: nodes keep their places, and arrays what fits their element kind. -/

namespace GraphRules

/-- A value is on one of these nodes, if it is on a node at all and not in a box. -/
def Value.Known (nodes : List Node) (value : Value) : Prop :=
  ∀ node, value = .node node → node ∈ nodes

/-- Nodes that become known leave the others known. -/
theorem Value.Known.cons {nodes : List Node} {value : Value} (known : value.Known nodes)
    (node : Node) :
    value.Known (node :: nodes) :=
  fun other same => List.mem_cons_of_mem node (known other same)

/-- A member after a setting was set or is one of the members before. -/
theorem Members.mem_setEntry {name : String} {value : Value} {entries : List (String × Value)}
    {entry : String × Value} (listed : entry ∈ setEntry name value entries) :
    entry.2 = value ∨ entry ∈ entries := by
  -- The induction is on the members; the new value stands in place of an old one or last.
  induction entries with
  | nil =>
    obtain rfl := List.mem_singleton.mp listed
    exact .inl rfl
  | cons first rest found =>
    obtain ⟨other, stored⟩ := first
    rw [setEntry] at listed
    split at listed
    · rcases List.mem_cons.mp listed with rfl | later
      · exact .inl rfl
      · exact .inr (List.mem_cons_of_mem _ later)
    · rcases List.mem_cons.mp listed with rfl | later
      · exact .inr List.mem_cons_self
      · exact (found later).imp_right (List.mem_cons_of_mem _)

namespace Store

/-- The stores that a program can build, each with the nodes made so far, the latest first. -/
inductive Built : Store → List Node → Prop
  | empty : Built .empty []
  | newArray {store after : Store} {nodes : List Node} {element : Kind} {items : List Value}
    {array : FixedArray} (built : Built store nodes) (known : ∀ item ∈ items, item.Known nodes)
    (made : store.newArray element items = .ok (array, after)) : Built after (.array array :: nodes)
  | newCollection {store after : Store} {nodes : List Node} {kind : Kind} {collection : Collection}
    (built : Built store nodes) (made : store.newCollection kind = .ok (collection, after)) :
    Built after (.collection collection :: nodes)
  | newSequence {store : Store} {nodes : List Node} {items : List Value} (built : Built store nodes)
    (known : ∀ item ∈ items, item.Known nodes) :
    Built (store.newSequence items).2 (.collection (store.newSequence items).1 :: nodes)
  | push {store : Store} {nodes : List Node} {collection : Collection} {item : Value}
    (built : Built store nodes) (made : .collection collection ∈ nodes) (known : item.Known nodes) :
    Built (store.push collection item).2 nodes
  | newMap {store after : Store} {nodes : List Node} {kind : Kind} {map : Map}
    (built : Built store nodes) (made : store.newMap kind = .ok (map, after)) :
    Built after (.map map :: nodes)
  | insert {store : Store} {nodes : List Node} {map : Map} {key value : Value}
    (built : Built store nodes) (made : .map map ∈ nodes) (keyKnown : key.Known nodes)
    (known : value.Known nodes) : Built (store.insert map key value).2 nodes
  | newObject {store after : Store} {nodes : List Node} {kind : Kind} {object : Object}
    (built : Built store nodes) (made : store.newObject kind = .ok (object, after)) :
    Built after (.object object :: nodes)
  | setMember {store : Store} {nodes : List Node} {object : Object} {name : String} {value : Value}
    (built : Built store nodes) (made : .object object ∈ nodes) (known : value.Known nodes) :
    Built (store.setMember object name value).2 nodes
  | newThreadScoped {store : Store} {nodes : List Node} (built : Built store nodes) :
    Built store.newThreadScoped.2 (.threadScoped store.newThreadScoped.1 :: nodes)
  | bind {store : Store} {nodes : List Node} {box : ThreadScoped} {value : Value}
    (built : Built store nodes) (made : .threadScoped box ∈ nodes) (known : value.Known nodes) :
    Built (store.bind box value).2 nodes
  | unbind {store : Store} {nodes : List Node} {box : ThreadScoped} (built : Built store nodes)
    (made : .threadScoped box ∈ nodes) : Built (store.unbind box).2 nodes
  -- Threads take turns in any order.
  | onThread {store : Store} {nodes : List Node} {thread : Thread} (built : Built store nodes) :
    Built (store.onThread thread) nodes
  -- What nothing holds may be reclaimed at any time.
  | reclaim {store : Store} {nodes : List Node} {roots : List Value} (built : Built store nodes) :
    Built (store.reclaim roots) nodes

namespace Built

/-- Items that are pushed in order are pushed one by one. -/
theorem pushAll {nodes : List Node} {collection : Collection}
    (made : .collection collection ∈ nodes)
    (items : List Value) (known : ∀ item ∈ items, item.Known nodes) {store : Store}
    (built : Built store nodes) : Built (store.pushAll collection items) nodes := by
  -- The induction is on the items, each of which is pushed to what was built before.
  induction items generalizing store with
  | nil => exact built
  | cons item rest later =>
    obtain ⟨first, others⟩ := List.forall_mem_cons.mp known
    exact later others (built.push made first)

/-- Entries that are inserted in order are inserted one by one. -/
theorem insertAll {nodes : List Node} {map : Map} (made : .map map ∈ nodes)
    (entries : List (Value × Value))
    (known : ∀ entry ∈ entries, entry.1.Known nodes ∧ entry.2.Known nodes) {store : Store}
    (built : Built store nodes) : Built (store.insertAll map entries) nodes := by
  -- The induction is on the entries, each of which is inserted into what was built before.
  induction entries generalizing store with
  | nil => exact built
  | cons entry rest later =>
    obtain ⟨first, others⟩ := List.forall_mem_cons.mp known
    exact later others (built.insert made first.1 first.2)

/-- A set of given items is made empty and filled. -/
theorem newSet {store : Store} {nodes : List Node} (built : Built store nodes) (items : List Value)
    (known : ∀ item ∈ items, item.Known nodes) :
    Built (store.newSet items).2 (.collection (store.newSet items).1 :: nodes) := by
  -- A set is made empty, and then the items are pushed.
  have made : store.newCollection .set =
      .ok (⟨(store.add (.items [])).1, .set, by decide⟩, (store.add (.items [])).2) := rfl
  exact (built.newCollection made).pushAll List.mem_cons_self items fun item listed =>
    (known item listed).cons _

/-- A map of given entries is made empty and filled. -/
theorem newMapOf {store : Store} {nodes : List Node} (built : Built store nodes)
    (entries : List (Value × Value))
    (known : ∀ entry ∈ entries, entry.1.Known nodes ∧ entry.2.Known nodes) :
    Built (store.newMapOf entries).2 (.map (store.newMapOf entries).1 :: nodes) := by
  -- A map is made empty, and then the entries are inserted.
  have made : store.newMap .map =
      .ok (⟨(store.add (.entries [])).1, .map, by decide⟩, (store.add (.entries [])).2) := rfl
  exact (built.newMap made).insertAll List.mem_cons_self entries fun entry listed =>
    ⟨(known entry listed).1.cons _, (known entry listed).2.cons _⟩

end Built

/-! ### What a change leaves alone -/

/-- What a new node holds, and that all others hold what they held. -/
theorem contents?_add (store : Store) (contents : Contents) (id : NodeId) :
    (store.add contents).2.contents? id =
      if id = (store.add contents).1 then some contents else store.contents? id := by
  -- The new cell is behind all others.
  obtain ⟨index⟩ := id
  simp only [add, contents?, Array.getElem?_push, NodeId.mk.injEq]
  split <;> rfl

/-- A written node holds what was written, and all others hold what they held. -/
theorem contents?_write {store : Store} {written : NodeId}
    (placed : written.index < store.cells.size) (contents : Contents) (id : NodeId) :
    (store.write written contents).contents? id =
      if id = written then some contents else store.contents? id := by
  -- One cell is replaced where it stands.
  obtain ⟨index⟩ := id
  obtain ⟨place⟩ := written
  simp only [write, contents?, Array.getElem?_setIfInBounds, NodeId.mk.injEq]
  by_cases same : index = place
  · subst same
    rw [if_pos rfl, if_pos rfl, if_pos placed]
    rfl
  · rw [if_neg same, if_neg fun other => same other.symm]

/-- A value that the store holds is held by some node. -/
theorem exists_contents_of_mem_values {store : Store} {value : Value}
    (held : value ∈ store.values) :
    ∃ id contents, store.contents? id = some contents ∧ value ∈ contents.values := by
  -- A value that is held is in some cell, and the cell is not empty.
  obtain ⟨cell, listed, within⟩ := List.mem_flatMap.mp held
  cases cell with
  | none => simp at within
  | some contents =>
    obtain ⟨index, placed⟩ := Array.getElem?_of_mem (Array.mem_toList_iff.mp listed)
    exact ⟨⟨index⟩, contents, by simp [contents?, placed], by simpa using within⟩

/-- Sweeping removes nodes and changes none. -/
theorem contents?_sweep {store : Store} {roots : List Value} {id : NodeId} {contents : Contents}
    (present : (store.sweep roots).contents? id = some contents) :
    store.contents? id = some contents := by
  -- Sweeping empties cells and changes no other.
  simp only [contents?, sweep, Array.getElem?_mapIdx, Option.join_eq_some_iff,
    Option.map_eq_some_iff]
    at present ⊢
  obtain ⟨cell, placed, kept⟩ := present
  split at kept
  · exact kept ▸ placed
  · cases kept

/-- Reclaiming removes nodes and changes none. -/
theorem contents?_reclaim {store : Store} {roots : List Value} {id : NodeId} {contents : Contents}
    (present : (store.reclaim roots).contents? id = some contents) :
    store.contents? id = some contents := by
  -- Each round sweeps once, until one of them removes nothing.
  induction store using reclaim.induct roots with
  | case1 store swept fewer later =>
    rw [reclaim, if_pos fewer] at present
    exact contents?_sweep (later present)
  | case2 store swept all =>
    rwa [reclaim, if_neg all] at present

/-- Reclaiming leaves every place where it is. -/
theorem size_reclaim (store : Store) (roots : List Value) :
    (store.reclaim roots).cells.size = store.cells.size := by
  -- The induction follows the sweeps, each of which leaves all places.
  induction store using reclaim.induct roots with
  | case1 store swept fewer later =>
    rw [reclaim, if_pos fewer, later]
    exact Array.size_mapIdx
  | case2 store swept all => rw [reclaim, if_neg all]

/-- Each side of an entry after an insertion was inserted or is that of an entry before. -/
theorem mem_insertEntry {key value : Value} {entries : List (Value × Value)} {entry : Value × Value}
    (listed : entry ∈ insertEntry key value entries) :
    (entry.1 = key ∨ ∃ old ∈ entries, entry.1 = old.1) ∧
      (entry.2 = value ∨ ∃ old ∈ entries, entry.2 = old.2) := by
  induction entries with
  | nil =>
    obtain rfl := List.mem_singleton.mp listed
    exact ⟨.inl rfl, .inl rfl⟩
  | cons first rest found =>
    -- The induction is on the entries; those that are passed over stay as they are.
    obtain ⟨other, stored⟩ := first
    rw [insertEntry] at listed
    -- An equal key stands for the new one, and its value is replaced.
    have kept : ∀ old ∈ rest, old ∈ (other, stored) :: rest := fun _ => List.mem_cons_of_mem _
    split at listed
    · rcases List.mem_cons.mp listed with rfl | later
      · exact ⟨.inr ⟨_, List.mem_cons_self, rfl⟩, .inl rfl⟩
      · exact ⟨.inr ⟨entry, kept entry later, rfl⟩, .inr ⟨entry, kept entry later, rfl⟩⟩
    · rcases List.mem_cons.mp listed with rfl | later
      · exact ⟨.inr ⟨_, List.mem_cons_self, rfl⟩, .inr ⟨_, List.mem_cons_self, rfl⟩⟩
      · obtain ⟨left, right⟩ := found later
        exact ⟨left.imp_right fun ⟨old, held, same⟩ => ⟨old, kept old held, same⟩,
          right.imp_right fun ⟨old, held, same⟩ => ⟨old, kept old held, same⟩⟩

/-- An array is made exactly of items that its element kind takes, and it holds them in order. -/
theorem newArray_eq_ok {store after : Store} {element : Kind} {items : List Value}
    {array : FixedArray} :
    store.newArray element items = .ok (array, after) ↔
      (∀ item ∈ items, accepts element item = true) ∧
        array = ⟨(store.add (.items items)).1, element⟩ ∧ after = (store.add (.items items)).2 := by
  -- The first item that does not fit is looked for, and the array is made if there is none.
  unfold newArray
  split
  · next refused found =>
    refine iff_of_false nofun fun ⟨taken, _⟩ => ?_
    have against := List.find?_some found
    simp [taken refused (List.mem_of_find?_eq_some found)] at against
  · next none =>
    have taken : ∀ item ∈ items, accepts element item = true := by
      simpa using List.find?_eq_none.mp none
    rw [and_iff_right taken, Except.ok.injEq, Prod.mk.injEq, eq_comm, @eq_comm _ _ after]

/-! ### What holds throughout -/

/-- What holds of every store that a program can build. -/
structure Sound (store : Store) (nodes : List Node) : Prop where
  placed : ∀ node ∈ nodes, node.id.index < store.cells.size
  apart : ∀ first ∈ nodes, ∀ second ∈ nodes, first.id = second.id → first = second
  known : ∀ id contents, store.contents? id = some contents →
    ∀ value ∈ contents.values, value.Known nodes
  fitting : ∀ array contents, .array array ∈ nodes → store.contents? array.id = some contents →
    ∀ item ∈ contents.values, accepts array.element item = true

namespace Sound

variable {store : Store} {nodes : List Node}

/-- A new node disturbs nothing, if it holds only what is known and fits an array. -/
theorem add (sound : store.Sound nodes) {contents : Contents} {node : Node}
    (fresh : node.id = (store.add contents).1)
    (known : ∀ value ∈ contents.values, value.Known nodes)
    (fits : ∀ array, node = .array array → ∀ item ∈ contents.values,
      accepts array.element item = true) : (store.add contents).2.Sound (node :: nodes) := by
  -- The place of the new node is behind those of all the others.
  have behind : ∀ other ∈ nodes, other.id ≠ (store.add contents).1 := by
    intro other listed same
    have before := sound.placed other listed
    rw [same] at before
    exact Nat.lt_irrefl _ before
  refine ⟨fun other listed => ?placed, fun first firstListed second secondListed same => ?apart,
    fun id held present value inside => ?known,
    fun array held listed present item inside => ?fitting⟩
  case placed =>
    rw [show (store.add contents).2.cells.size = store.cells.size + 1 from Array.size_push _]
    rcases List.mem_cons.mp listed with rfl | listed
    · rw [fresh]
      exact Nat.lt_succ_self _
    · exact Nat.lt_succ_of_lt (sound.placed other listed)
  case apart =>
    -- Two old nodes are apart as before, and the new one is behind both.
    rcases List.mem_cons.mp firstListed with rfl | one
    · rcases List.mem_cons.mp secondListed with rfl | two
      · rfl
      · exact absurd (same.symm.trans fresh) (behind second two)
    · rcases List.mem_cons.mp secondListed with rfl | two
      · exact absurd (same.trans fresh) (behind first one)
      · exact sound.apart first one second two same
  case known =>
    -- The new node holds what is known, and all others what they held.
    rw [contents?_add] at present
    split at present
    · obtain rfl := Option.some.inj present
      exact (known value inside).cons node
    · exact (sound.known id held present value inside).cons node
  case fitting =>
    rw [contents?_add] at present
    -- What an old array holds was there before, and a new one holds what it was made of.
    rcases List.mem_cons.mp listed with rfl | listed
    · rw [if_pos (show array.id = _ from fresh)] at present
      obtain rfl := Option.some.inj present
      exact fits array rfl item inside
    · rw [if_neg (show array.id ≠ _ from behind _ listed)] at present
      exact sound.fitting array held listed present item inside

/-- A new node that holds nothing disturbs nothing. -/
theorem addEmpty (sound : store.Sound nodes) {contents : Contents} {node : Node}
    (fresh : node.id = (store.add contents).1) (empty : contents.values = []) :
    (store.add contents).2.Sound (node :: nodes) := by
  -- Nothing is inside a new node that is empty.
  have nothing : ∀ value, value ∉ contents.values := fun value inside => by simp [empty] at inside
  exact sound.add fresh (fun value inside => absurd inside (nothing value))
    fun _ _ item inside => absurd inside (nothing item)

/-- A write to a node that is no array disturbs nothing, if what is written is known. -/
theorem write (sound : store.Sound nodes) {contents : Contents} {node : Node} (made : node ∈ nodes)
    (changeable : ∀ array, node ≠ .array array)
    (known : ∀ value ∈ contents.values, value.Known nodes) :
    (store.write node.id contents).Sound nodes := by
  -- The node that is written is no array, so no element kind is concerned.
  have placed := sound.placed node made
  refine ⟨fun other listed => ?placed, sound.apart, fun id held present value inside => ?known,
    fun array held listed present item inside => ?fitting⟩
  case placed =>
    rw [show (store.write node.id contents).cells.size = store.cells.size from
      Array.size_setIfInBounds]
    exact sound.placed other listed
  case known =>
    rw [contents?_write placed] at present
    split at present
    · obtain rfl := Option.some.inj present
      exact known value inside
    · exact sound.known id held present value inside
  case fitting =>
    -- The place that is written is that of another node.
    rw [contents?_write placed, if_neg] at present
    · exact sound.fitting array held listed present item inside
    · exact fun same => changeable array (sound.apart _ listed _ made same).symm

/-- What removes nodes and changes none disturbs nothing. -/
theorem shrink (sound : store.Sound nodes) {after : Store}
    (size : after.cells.size = store.cells.size)
    (kept : ∀ id contents, after.contents? id = some contents →
      store.contents? id = some contents) :
    after.Sound nodes where
  placed node listed := size ▸ sound.placed node listed
  apart := sound.apart
  known id contents present := sound.known id contents (kept id contents present)
  fitting array contents listed present :=
    -- What is left is what was there before.
    sound.fitting array contents listed (kept array.id contents present)

/-! ### Operation by operation -/

/-- The items of an array or a collection are known. -/
theorem known_of_mem_itemsAt (sound : store.Sound nodes) {id : NodeId} {item : Value}
    (held : item ∈ store.itemsAt id) : item.Known nodes := by
  -- An item is read off a cell, whose values are known.
  unfold itemsAt at held
  split at held
  · next items present => exact sound.known id _ present item held
  · simp at held

/-- Both sides of an entry of a map are known. -/
theorem known_of_mem_entries (sound : store.Sound nodes) {map : Map} {entry : Value × Value}
    (held : entry ∈ store.entries map) : entry.1.Known nodes ∧ entry.2.Known nodes := by
  -- Key and value are both among the values of the cell.
  unfold entries at held
  split at held
  · next entries present =>
    have known := sound.known map.id _ present
    exact ⟨known _ (List.mem_flatMap.mpr ⟨entry, held, by simp⟩),
      known _ (List.mem_flatMap.mpr ⟨entry, held, by simp⟩)⟩
  · simp at held

/-- The members of an object are known. -/
theorem known_of_mem_members (sound : store.Sound nodes) {object : Object} {member : String × Value}
    (held : member ∈ store.members object) : member.2.Known nodes := by
  -- A member is read off the cell of its object.
  unfold members memberTable at held
  split at held
  · next members present => exact sound.known object.id _ present _ (List.mem_map_of_mem held)
  · simp [Members.empty] at held

/-- The bindings of a box are known. -/
theorem known_of_mem_bindings (sound : store.Sound nodes) {box : ThreadScoped}
    {bound : Thread × Value} (held : bound ∈ store.bindings box) : bound.2.Known nodes := by
  -- A binding is read off the cell of its box.
  unfold bindings at held
  split at held
  · next bindings present => exact sound.known box.id _ present _ (List.mem_map_of_mem held)
  · simp at held

/-- An item that is pushed leaves known what the collection holds. -/
theorem push (sound : store.Sound nodes) {collection : Collection} {item : Value}
    (made : .collection collection ∈ nodes) (known : item.Known nodes) :
    (store.push collection item).2.Sound nodes := by
  -- If the item is taken, the old items are known, and so is the new one.
  unfold Store.push
  dsimp only
  split
  · exact sound
  · refine sound.write made nofun fun value inside => ?_
    rcases List.mem_append.mp inside with held | pushed
    · exact sound.known_of_mem_itemsAt held
    · exact List.mem_singleton.mp pushed ▸ known

/-- An entry that is inserted leaves known what the map holds. -/
theorem insert (sound : store.Sound nodes) {map : Map} {key value : Value}
    (made : .map map ∈ nodes) (keyKnown : key.Known nodes) (known : value.Known nodes) :
    (store.insert map key value).2.Sound nodes := by
  refine sound.write made nofun fun side inside => ?_
  obtain ⟨entry, listed, within⟩ := List.mem_flatMap.mp inside
  have sides : side = entry.1 ∨ side = entry.2 := by simpa using within
  obtain ⟨left, right⟩ := mem_insertEntry listed
  -- Either side of an entry was inserted or stood there before.
  rcases sides with rfl | rfl
  · rcases left with same | ⟨old, held, same⟩
    · exact same ▸ keyKnown
    · exact same ▸ (sound.known_of_mem_entries held).1
  · rcases right with same | ⟨old, held, same⟩
    · exact same ▸ known
    · exact same ▸ (sound.known_of_mem_entries held).2

/-- A member that is set leaves known what the object holds. -/
theorem setMember (sound : store.Sound nodes) {object : Object} {name : String} {value : Value}
    (made : .object object ∈ nodes) (known : value.Known nodes) :
    (store.setMember object name value).2.Sound nodes := by
  -- The old members are known, and so is the new value.
  refine sound.write made nofun fun held inside => ?_
  obtain ⟨member, listed, rfl⟩ := List.mem_map.mp inside
  rcases Members.mem_setEntry listed with set | old
  · exact set ▸ known
  · exact sound.known_of_mem_members old

/-- A binding leaves known what the box holds. -/
theorem bind (sound : store.Sound nodes) {box : ThreadScoped} {value : Value}
    (made : .threadScoped box ∈ nodes) (known : value.Known nodes) :
    (store.bind box value).2.Sound nodes := by
  -- The bindings of other threads are known, and so is the new one.
  refine sound.write made nofun fun held inside => ?_
  obtain ⟨bound, listed, rfl⟩ := List.mem_map.mp inside
  rcases List.mem_append.mp listed with other | own
  · exact sound.known_of_mem_bindings (List.mem_filter.mp other).1
  · exact List.mem_singleton.mp own ▸ known

/-- A binding that is removed leaves the others. -/
theorem unbind (sound : store.Sound nodes) {box : ThreadScoped}
    (made : .threadScoped box ∈ nodes) : (store.unbind box).2.Sound nodes := by
  -- Only bindings of other threads are left.
  refine sound.write made nofun fun held inside => ?_
  obtain ⟨bound, listed, rfl⟩ := List.mem_map.mp inside
  exact sound.known_of_mem_bindings (List.mem_filter.mp listed).1

end Sound

/-- The store without nodes is sound. -/
theorem sound_empty : Store.empty.Sound [] where
  -- There is nothing that could be wrong.
  placed _ listed := by simp at listed
  apart _ listed := by simp at listed
  known _ _ present := by simp [contents?, Store.empty] at present
  fitting _ _ listed := by simp at listed

/-- Whatever a program does, it builds a sound store. -/
theorem Built.sound {store : Store} {nodes : List Node} (built : Built store nodes) :
    store.Sound nodes := by
  induction built with
  | empty => exact sound_empty
  | newArray built known made sound =>
    -- The one place where the element kind matters: all items were taken.
    obtain ⟨taken, rfl, rfl⟩ := newArray_eq_ok.mp made
    refine sound.add rfl known fun array same => ?_
    obtain rfl := Node.array.inj same
    exact taken
  | newCollection built made sound =>
    unfold Store.newCollection at made
    split at made
    · obtain ⟨rfl, rfl⟩ := Prod.mk.inj (Except.ok.inj made)
      exact sound.addEmpty rfl rfl
    · cases made
  -- No array is made here, so its element kind is no matter.
  | newSequence built known sound =>
    refine sound.add rfl known fun array same => ?_
    cases same
  -- The changes of what is there are sound by their own lemmas.
  | push built made known sound => exact sound.push made known
  | newMap built made sound =>
    -- A new map is empty, as a new collection is.
    unfold Store.newMap at made
    split at made
    · obtain ⟨rfl, rfl⟩ := Prod.mk.inj (Except.ok.inj made)
      exact sound.addEmpty rfl rfl
    · cases made
  | insert built made keyKnown known sound => exact sound.insert made keyKnown known
  | newObject built made sound =>
    unfold Store.newObject at made
    split at made
    · obtain ⟨rfl, rfl⟩ := Prod.mk.inj (Except.ok.inj made)
      exact sound.addEmpty rfl rfl
    · cases made
  | setMember built made known sound => exact sound.setMember made known
  | newThreadScoped built sound => exact sound.addEmpty rfl rfl
  | bind built made known sound => exact sound.bind made known
  | unbind built made sound => exact sound.unbind made
  -- From here on the store only forgets.
  | onThread built sound => exact sound.shrink rfl fun _ _ present => present
  | reclaim built sound => exact sound.shrink (size_reclaim _ _) fun _ _ => contents?_reclaim

end Store

end GraphRules
