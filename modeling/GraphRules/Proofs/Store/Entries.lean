import GraphRules.Proofs.Store.Program

/-! The entries of maps over whole programs: a finite function on keys up to equality, in order. -/

namespace GraphRules

namespace Store

variable {store : Store} {map : Map}

/-- The entries of a map after an insertion. -/
theorem contents?_insert (placed : map.id.index < store.cells.size) (key value : Value) :
    (store.insert map key value).2.contents? map.id =
      some (.entries (insertEntry key value (store.entries map))) := by
  -- What is written is the changed list of entries.
  rw [insert, contents?_write placed, if_pos rfl]

/-- After an insertion, every equal key has the value, and every other key has what it had. -/
theorem lookup?_insert (placed : map.id.index < store.cells.size) (key value other : Value) :
    (store.insert map key value).2.lookup? map other =
      if other.equal key then some value else store.lookup? map other := by
  -- In the changed list, the new value is found under equal keys only.
  rw [lookup?, entries_of_contents (contents?_insert placed key value), find?_insertEntry,
    key.equal_comm other]
  rfl

/-- A map has a key exactly if one of its keys is equal. -/
theorem isSome_lookup? (store : Store) (map : Map) (key : Value) :
    (store.lookup? map key).isSome = ((store.entries map).map (·.1)).any (·.equal key) := by
  -- An entry is found exactly if its key is among the keys.
  rw [lookup?, Option.isSome_map, List.any_map, List.isSome_find?]
  rfl

/-- An insertion adds an entry exactly if the map did not have the key. -/
theorem length_insert (placed : map.id.index < store.cells.size) (key value : Value) :
    ((store.insert map key value).2.entries map).length =
      (store.entries map).length + if (store.lookup? map key).isSome then 0 else 1 := by
  -- There is one entry for each key.
  have keys := congrArg List.length (keys_insertEntry key value (store.entries map))
  rw [List.length_map, ← isSome_lookup?] at keys
  rw [entries_of_contents (contents?_insert placed key value), keys]
  split
  · exact List.length_map ..
  · rw [List.length_append, List.length_map, List.length_singleton]

/-- An insertion under a key that the map did not have puts the entry last. -/
theorem entries_insert_of_new (placed : map.id.index < store.cells.size) {key : Value}
    (new : store.lookup? map key = none) (value : Value) :
    (store.insert map key value).2.entries map = store.entries map ++ [(key, value)] := by
  -- No entry has an equal key, so the new one is put last.
  rw [entries_of_contents (contents?_insert placed key value)]
  rw [lookup?, Option.map_eq_none_iff] at new
  exact insertEntry_of_new (List.find?_eq_none.mp new) value

/-- A key that is not equal to itself is not found. -/
theorem lookup?_of_irregular (store : Store) (map : Map) {key : Value}
    (irregular : key.equal key = false) :
    store.lookup? map key = none := by
  rw [lookup?, Option.map_eq_none_iff, List.find?_eq_none]
  intro entry listed same
  -- What is equal to some value is equal to itself.
  exact Bool.false_ne_true (irregular.symm.trans ((Value.equal_congr same key).symm.trans same))

end Store

namespace Heap

/-- A map holds what it keeps of the entries that the program put there. -/
theorem contents?_of_map {program : List Action} (allowed : empty.Allows program) {map : Map}
    (has : (empty.run program).Has (.map map)) :
    (empty.run program).store.contents? map.id =
      some (.entries (Store.keepEntries (log Action.entries (.map map) empty program))) := by
  refine contents?_run Action.entries (fun inserted => .entries (Store.keepEntries inserted))
    (fun _ => rfl) ?_ allowed has
  intro heap action before sound known target held
  -- Only an insertion changes a map.
  cases action with
  | insert other key value =>
    obtain rfl := Node.map.inj (Option.some.inj target)
    have inserted := Store.contents?_insert (sound.placed _ known) key value
    rw [Store.entries_of_contents held] at inserted
    exact inserted.trans (congrArg _ (congrArg _ (Store.keepEntries_concat before key value).symm))
  | _ => cases target

/-- A map keeps each key as it was first given, and the value that was inserted last under it. -/
theorem maps_keep_keys {program : List Action} (allowed : empty.Allows program) {map : Map}
    (has : (empty.run program).Has (.map map)) :
    let store := (empty.run program).store
    let inserted := log Action.entries (.map map) empty program
    -- The keys stand in order of first insertion, and no two are equal.
    (store.entries map).map (·.1) = (inserted.map (·.1)).eraseDupsBy Value.equal ∧
    Value.Apart ((store.entries map).map (·.1)) ∧
    (∀ key, store.lookup? map key = (inserted.reverse.find? (·.1.equal key)).map (·.2)) ∧
    -- An insertion tells what was found, and changes what is found under equal keys only.
    (∀ key value,
      (store.insert map key value).1 = store.lookup? map key ∧
      ((store.insert map key value).2.entries map).length =
        (store.entries map).length + (if (store.lookup? map key).isSome then 0 else 1) ∧
      ∀ other, (store.insert map key value).2.lookup? map other =
        if other.equal key then some value else store.lookup? map other) ∧
    -- A key that is not equal to itself is never found, and is put last each time.
    ∀ key, key.equal key = false →
      store.lookup? map key = none ∧
      ∀ value, (store.insert map key value).2.entries map =
        store.entries map ++ [(key, value)] := by
  intro store inserted
  -- The laws of one map apply to what the run has put there.
  have entries : store.entries map = Store.keepEntries inserted :=
    Store.entries_of_contents (contents?_of_map allowed has)
  have placed : map.id.index < store.cells.size := (built_run allowed).sound.placed _ has.1
  have keys : (store.entries map).map (·.1) = (inserted.map (·.1)).eraseDupsBy Value.equal :=
    entries ▸ Store.keys_keepEntries inserted
  refine ⟨keys, keys ▸ Value.apart_eraseDupsBy _, fun key => ?_, fun key value => ⟨rfl, ?_, ?_⟩,
    fun key irregular => ?_⟩
  -- What is found under a key is what was inserted last under an equal one.
  · rw [Store.lookup?, entries]
    exact Store.find?_keepEntries inserted key
  · exact Store.length_insert placed key value
  · exact Store.lookup?_insert placed key value
  · have absent := store.lookup?_of_irregular map irregular
    exact ⟨absent, Store.entries_insert_of_new placed absent⟩

namespace Register

/-- A declared kind of dictionaries. -/
def kind : Kind := .named "Register" [.dictionary]

def register : Map := ⟨⟨0⟩, kind, by decide⟩

def card : Object := ⟨⟨1⟩, .objectType "Card", by decide⟩

/-- One zero and then the other, an object that is changed, and two keys that are not numbers. -/
def program : List Action :=
  [.newMap kind, .newObject (.objectType "Card"),
    .insert register (.float (.finite (.zero false))) (.text "first zero"),
    .insert register (.float .nan) (.text "first"),
    .insert register (.node (.object card)) (.text "empty"),
    .setMember card "size" .null,
    .insert register (.float (.finite (.zero true))) (.text "second zero"),
    .insert register (.node (.object card)) (.text "filled"),
    .insert register (.float .nan) (.text "second")]

end Register

/-- The first keys keep their places, and those that are not numbers are there but not found. -/
theorem maps_keep_keys_register :
    let store := (empty.run Register.program).store
    empty.Allows Register.program ∧ (empty.run Register.program).Has (.map Register.register) ∧
      (store.entries Register.register).map (·.1) =
        [.float (.finite (.zero false)), .float .nan, .node (.object Register.card), .float .nan] ∧
      store.lookup? Register.register (.float (.finite (.zero false))) =
        some (.text "second zero") ∧
      store.lookup? Register.register (.node (.object Register.card)) = some (.text "filled") ∧
      (Value.float .nan).equal (.float .nan) = false ∧
      store.lookup? Register.register (.float .nan) = none := by
  -- The program is allowed, so each part of the theorem can be read off its insertions.
  intro store
  have allowed : empty.Allows Register.program := by decide
  have has : (empty.run Register.program).Has (.map Register.register) := by decide
  have irregular : (Value.float .nan).equal (.float .nan) = false := rfl
  obtain ⟨keys, -, found, -, never⟩ := maps_keep_keys allowed has
  refine ⟨allowed, has, keys.trans ?_, (found _).trans ?_, (found _).trans ?_, irregular,
    (never _ irregular).1⟩
  all_goals decide

end Heap

end GraphRules
