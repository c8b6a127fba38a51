import GraphRules.Proofs.Store.History
import GraphRules.Proofs.Value.Equality

/-! What a collection keeps of the items that are pushed, and a map of the entries inserted. -/

namespace GraphRules

/-- The items that a collection keeps of those pushed. -/
def Collection.keep (collection : Collection) (pushed : List Value) : List Value :=
  if collection.isSet then pushed.eraseDupsBy Value.equal else pushed

namespace Store

/-! ### Items -/

section items

variable {store : Store} {collection : Collection} {item : Value}

/-- A collection has no room for an item that equals one of its own, if it is a set. -/
def refuses (store : Store) (collection : Collection) (item : Value) : Bool :=
  collection.isSet && (store.items collection).any (·.equal item)

/-- Only sets refuse items, and only those that equal one that they keep. -/
theorem refuses_iff : store.refuses collection item = true ↔
    collection.kind.isAssignableTo .set = true ∧
      ∃ kept ∈ store.items collection, kept.equal item = true := by
  -- An item is refused by a set for an equal one.
  rw [refuses, Bool.and_eq_true, List.any_eq_true]
  rfl

/-- A push of an item that is refused changes nothing. -/
theorem push_of_refused (refused : store.refuses collection item = true) :
    store.push collection item = (false, store) := if_pos refused

/-- A push of any other item puts it behind the others. -/
theorem push_of_taken (taken : store.refuses collection item = false) :
    store.push collection item =
      (true, store.write collection.id (.items (store.items collection ++ [item]))) :=
  if_neg (Bool.eq_false_iff.mp taken)

/-- A push tells whether the item was refused. -/
theorem push_eq_false_iff :
    (store.push collection item).1 = false ↔ store.refuses collection item = true := by
  -- The push tells which of its two ways it went.
  cases refused : store.refuses collection item with
  | true => rw [push_of_refused refused]; simp
  | false => rw [push_of_taken refused]; simp

/-- One more item is kept behind the others, unless the collection refuses it. -/
theorem keep_concat {pushed : List Value} (kept : store.items collection = collection.keep pushed)
    (item : Value) :
    collection.keep (pushed ++ [item]) =
      if store.refuses collection item then collection.keep pushed
      else collection.keep pushed ++ [item] := by
  -- Other collections keep all items, and a set asks those that it has kept.
  rw [refuses, kept]
  unfold Collection.keep
  cases collection.isSet with
  | false => rfl
  | true => exact Value.eraseDupsBy_concat pushed item

/-- Nothing is kept of nothing. -/
theorem keep_nil (collection : Collection) : collection.keep [] = [] := by
  -- There is nothing to leave out.
  unfold Collection.keep
  split <;> rfl

end items

/-! ### Entries -/

/-- The entries that a map keeps of those inserted. -/
def keepEntries (inserted : List (Value × Value)) : List (Value × Value) :=
  inserted.foldl (fun held entry => insertEntry entry.1 entry.2 held) []

/-- One more entry is inserted after all others. -/
theorem keepEntries_concat (inserted : List (Value × Value)) (key value : Value) :
    keepEntries (inserted ++ [(key, value)]) = insertEntry key value (keepEntries inserted) := by
  -- The last entry is inserted after the others.
  rw [keepEntries, List.foldl_append, List.foldl_cons, List.foldl_nil, keepEntries]

/-- The keys after an insertion: a key goes behind the others, unless it equals one of them. -/
theorem keys_insertEntry (key value : Value) (entries : List (Value × Value)) :
    (insertEntry key value entries).map (·.1) =
      if (entries.map (·.1)).any (·.equal key) then entries.map (·.1)
      else entries.map (·.1) ++ [key] := by
  induction entries with
  | nil => rfl
  | cons entry rest behind =>
    obtain ⟨other, stored⟩ := entry
    cases same : other.equal key with
    | true => simp [insertEntry, same]
    | false =>
      -- The entry in front stays, whether or not the key is found behind it.
      simp only [insertEntry, same, Bool.false_eq_true, if_false, List.map_cons, behind,
        List.any_cons, Bool.false_or]
      split <;> rfl

/-- An entry under a key that is not there goes behind the others. -/
theorem insertEntry_of_new {key : Value} {entries : List (Value × Value)}
    (new : ∀ entry ∈ entries, ¬ entry.1.equal key = true) (value : Value) :
    insertEntry key value entries = entries ++ [(key, value)] := by
  -- The induction is on the entries, which are all passed over.
  induction entries with
  | nil => rfl
  | cons entry rest behind =>
    obtain ⟨other, stored⟩ := entry
    obtain ⟨differs, others⟩ := List.forall_mem_cons.mp new
    rw [insertEntry, if_neg differs, behind others, List.cons_append]

/-- The inserted value is found under every equal key, and the same as before under others. -/
theorem find?_insertEntry (key value other : Value) (entries : List (Value × Value)) :
    ((insertEntry key value entries).find? (·.1.equal other)).map (·.2) =
      if key.equal other then some value else (entries.find? (·.1.equal other)).map (·.2) := by
  induction entries with
  | nil => cases asked : key.equal other <;> simp [insertEntry, asked]
  | cons entry rest behind =>
    obtain ⟨first, stored⟩ := entry
    cases same : first.equal key with
    | true =>
      -- The key in front is equal to exactly what the inserted one is equal to.
      have alike : first.equal other = key.equal other := Value.equal_congr same other
      cases asked : key.equal other <;> simp [insertEntry, same, alike, asked]
    | false =>
      cases asked : first.equal other with
      | false => simpa [insertEntry, same, asked] using behind
      | true =>
        -- The inserted key is not equal to what the key in front is equal to.
        have differs : key.equal other = false :=
          (key.equal_comm other).trans ((Value.equal_congr asked key).symm.trans same)
        simp [insertEntry, same, asked, differs]

/-- A map keeps the first of equal keys, in order. -/
theorem keys_keepEntries (inserted : List (Value × Value)) :
    (keepEntries inserted).map (·.1) = (inserted.map (·.1)).eraseDupsBy Value.equal := by
  -- The induction is on the entries from the last one, whose key is put last if it is new.
  induction inserted using List.reverseRecOn with
  | nil => rfl
  | append_singleton inserted last kept =>
    rw [keepEntries_concat, keys_insertEntry, kept, List.map_append, List.map_singleton,
      Value.eraseDupsBy_concat]

/-- A map gives the last value inserted under an equal key. -/
theorem find?_keepEntries (inserted : List (Value × Value)) (key : Value) :
    ((keepEntries inserted).find? (·.1.equal key)).map (·.2) =
      (inserted.reverse.find? (·.1.equal key)).map (·.2) := by
  -- The induction is on the entries from the last one, which is found before all others.
  induction inserted using List.reverseRecOn with
  | nil => rfl
  | append_singleton inserted last kept =>
    rw [keepEntries_concat, find?_insertEntry, kept, List.reverse_concat, List.find?_cons]
    cases last.1.equal key <;> rfl

/-- Keys that are apart are all kept, with their values. -/
theorem keepEntries_of_apart {entries : List (Value × Value)}
    (apart : Value.Apart (entries.map (·.1))) :
    keepEntries entries = entries := by
  -- The induction is on the entries from the last one, whose key is new.
  induction entries using List.reverseRecOn with
  | nil => rfl
  | append_singleton entries last kept =>
    rw [List.map_append, Value.Apart, List.pairwise_append] at apart
    obtain ⟨others, -, new⟩ := apart
    rw [keepEntries_concat, kept others]
    refine insertEntry_of_new (fun entry listed => ?_) last.2
    rw [(new entry.1 (List.mem_map_of_mem listed) last.1 List.mem_cons_self).1]
    exact Bool.false_ne_true

/-- Under keys that are apart, each value is found under its own. -/
theorem find?_of_apart {entries : List (Value × Value)} (apart : Value.Apart (entries.map (·.1)))
    {index : Nat}
    {entry : Value × Value} (held : entries[index]? = some entry)
    (regular : entry.1.equal entry.1 = true) :
    entries.find? (·.1.equal entry.1) = some entry := by
  -- The induction is on the entries; those before this one have other keys.
  induction entries generalizing index with
  | nil => simp at held
  | cons first rest later =>
    rw [List.map_cons, Value.Apart, List.pairwise_cons] at apart
    obtain ⟨new, others⟩ := apart
    cases index with
    | zero =>
      obtain rfl := Option.some.inj held
      exact List.find?_cons_of_pos regular
    | succ index =>
      have listed : entry ∈ rest := List.mem_of_getElem? held
      have differs : first.1.equal entry.1 = false := (new entry.1 (List.mem_map_of_mem listed)).1
      rw [List.find?_cons_of_neg (by simp [differs])]
      exact later others held

/-! ### New collections and maps -/

/-- A collection has the items that its node holds. -/
theorem items_of_contents {store : Store} {collection : Collection} {held : List Value}
    (present : store.contents? collection.id = some (.items held)) :
    store.items collection = held := by
  -- Items are read off the contents.
  rw [Store.items, itemsAt, present]

/-- A map has the entries that its node holds. -/
theorem entries_of_contents {store : Store} {map : Map} {held : List (Value × Value)}
    (present : store.contents? map.id = some (.entries held)) : store.entries map = held := by
  -- Entries are read off the contents.
  rw [Store.entries, present]

/-- A new node holds what it was made of. -/
theorem contents?_add_self (store : Store) (contents : Contents) :
    (store.add contents).2.contents? (store.add contents).1 = some contents := by
  -- The new node is the one that was asked for.
  rw [contents?_add, if_pos rfl]

/-- A new node may as well be made of what is written to it. -/
theorem write_add (store : Store) (first last : Contents) :
    (store.add first).2.write (store.add first).1 last = (store.add last).2 := by
  -- The place of the new node is the last one.
  simp [add, write, Array.setIfInBounds, Array.push]

/-- The last of some items is pushed after all others. -/
theorem pushAll_concat (store : Store) (collection : Collection) (items : List Value)
    (last : Value) :
    store.pushAll collection (items ++ [last]) =
      ((store.pushAll collection items).push collection last).2 :=
  List.foldl_append

/-- The last of some entries is inserted after all others. -/
theorem insertAll_concat (store : Store) (map : Map) (entries : List (Value × Value))
    (last : Value × Value) :
    store.insertAll map (entries ++ [last]) =
      ((store.insertAll map entries).insert map last.1 last.2).2 :=
  List.foldl_append

/-- A new collection to which items are pushed may as well be made of what it keeps of them. -/
theorem pushAll_add (store : Store) (collection : Collection)
    (fresh : collection.id = ⟨store.cells.size⟩) (items : List Value) :
    (store.add (.items [])).2.pushAll collection items =
      (store.add (.items (collection.keep items))).2 := by
  induction items using List.reverseRecOn with
  | nil =>
    rw [keep_nil]
    rfl
  | append_singleton items last pushed =>
    -- The node holds what is kept of the items pushed before.
    have held : (store.add (.items (collection.keep items))).2.items collection =
        collection.keep items :=
      items_of_contents (fresh ▸ contents?_add_self store _)
    rw [pushAll_concat, pushed, keep_concat held]
    cases refused : (store.add (.items (collection.keep items))).2.refuses collection last with
    | true => rw [push_of_refused refused, if_pos rfl]
    | false =>
      -- All items are written to the new node.
      rw [push_of_taken refused, if_neg Bool.false_ne_true, held, fresh]
      exact write_add store _ _

/-- A new map into which entries are inserted may as well be made of what it keeps of them. -/
theorem insertAll_add (store : Store) (map : Map) (fresh : map.id = ⟨store.cells.size⟩)
    (entries : List (Value × Value)) :
    (store.add (.entries [])).2.insertAll map entries =
      (store.add (.entries (keepEntries entries))).2 := by
  -- The induction is on the entries from the last one, and the node is the same throughout.
  induction entries using List.reverseRecOn with
  | nil => rfl
  | append_singleton entries last inserted =>
    have held : (store.add (.entries (keepEntries entries))).2.entries map = keepEntries entries :=
      entries_of_contents (fresh ▸ contents?_add_self store _)
    rw [insertAll_concat, inserted, insert, held, fresh, keepEntries_concat]
    exact write_add store _ _

/-- A new sequence has the items that it is made of. -/
theorem items_newSequence (store : Store) (items : List Value) :
    (store.newSequence items).2.items (store.newSequence items).1 = items :=
  items_of_contents (contents?_add_self store (.items items))

/-- A map of entries is made of what it keeps of them. -/
theorem newMapOf_eq (store : Store) (entries : List (Value × Value)) :
    (store.newMapOf entries).2 = (store.add (.entries (keepEntries entries))).2 :=
  insertAll_add store (store.newMapOf entries).1 rfl entries

/-- A new map has the entries that it is made of, if no two keys are equal. -/
theorem entries_newMapOf (store : Store) {entries : List (Value × Value)}
    (apart : Value.Apart (entries.map (·.1))) :
    (store.newMapOf entries).2.entries (store.newMapOf entries).1 = entries := by
  -- Entries whose keys are apart are all kept as they are.
  rw [newMapOf_eq, keepEntries_of_apart apart]
  exact entries_of_contents (contents?_add_self store (.entries entries))

end Store

end GraphRules
