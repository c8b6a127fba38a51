import GraphRules.Proofs.Store.Program

/-! The items of collections over whole programs, of which sets keep the first of equal ones. -/

namespace GraphRules

namespace Store

variable {store : Store} {collection : Collection} {item : Value}

/-- A push tells whether the item is now the last one. -/
theorem items_push (placed : collection.id.index < store.cells.size) :
    (store.push collection item).2.items collection =
      if (store.push collection item).1 then store.items collection ++ [item]
      else store.items collection := by
  -- A refused item changes nothing, and any other is put last.
  cases refused : store.refuses collection item with
  | true => rw [push_of_refused refused]; rfl
  | false =>
    rw [push_of_taken refused, if_pos rfl]
    exact items_of_contents (by rw [contents?_write placed, if_pos rfl])

/-- What a collection keeps of the items pushed so far, it keeps of them with one more. -/
theorem contents?_push (placed : collection.id.index < store.cells.size) {pushed : List Value}
    (held : store.contents? collection.id = some (.items (collection.keep pushed))) :
    (store.push collection item).2.contents? collection.id =
      some (.items (collection.keep (pushed ++ [item]))) := by
  -- The items pushed before are kept already, so only the new one is compared.
  have items := items_of_contents held
  rw [keep_concat items]
  cases refused : store.refuses collection item with
  | true =>
    rw [push_of_refused refused, if_pos rfl]
    exact held
  | false =>
    rw [push_of_taken refused, contents?_write placed, if_pos rfl, items]
    rfl

end Store

namespace Heap

/-- A collection holds what it keeps of the items that the program put there. -/
theorem contents?_of_collection {program : List Action} (allowed : empty.Allows program)
    {collection : Collection} (has : (empty.run program).Has (.collection collection)) :
    (empty.run program).store.contents? collection.id =
      some (.items
        (collection.keep (log Action.items (.collection collection) empty program))) := by
  refine contents?_run Action.items (fun pushed => .items (collection.keep pushed))
    (fun _ => rfl) ?_
    allowed has
  intro heap action before sound known target held
  -- Only a push changes a collection.
  cases action with
  | push other item =>
    obtain rfl := Node.collection.inj (Option.some.inj target)
    exact Store.contents?_push (sound.placed _ known) held
  | _ => cases target

/-- A collection below sets keeps the first of equal items, and any other keeps all. -/
theorem collections_keep_firsts {program : List Action} (allowed : empty.Allows program)
    {collection : Collection} (has : (empty.run program).Has (.collection collection)) :
    let store := (empty.run program).store
    let pushed := log Action.items (.collection collection) empty program
    (collection.kind.isAssignableTo .set = true →
      store.items collection = pushed.eraseDupsBy Value.equal ∧
        Value.Apart (store.items collection)) ∧
    (collection.kind.isAssignableTo .set = false → store.items collection = pushed) ∧
    -- A push leaves an item out where a set keeps an equal one, and tells so.
    ∀ item,
      ((store.push collection item).1 = false ↔
        collection.kind.isAssignableTo .set = true ∧
          ∃ kept ∈ store.items collection, kept.equal item = true) ∧
      (store.push collection item).2.items collection =
        if (store.push collection item).1 then store.items collection ++ [item]
        else store.items collection := by
  intro store pushed
  -- All that matters of the run is that the node holds what the collection keeps of its items.
  have items : store.items collection = collection.keep pushed :=
    Store.items_of_contents (contents?_of_collection allowed has)
  have placed : collection.id.index < store.cells.size := (built_run allowed).sound.placed _ has.1
  refine ⟨fun set => ?_, fun unset => ?_, fun item => ⟨?_, Store.items_push placed⟩⟩
  · have firsts : store.items collection = pushed.eraseDupsBy Value.equal :=
      items.trans (if_pos set)
    exact ⟨firsts, firsts ▸ Value.apart_eraseDupsBy pushed⟩
  · exact items.trans (if_neg (Bool.eq_false_iff.mp unset))
  · exact Store.push_eq_false_iff.trans Store.refuses_iff

namespace Shelf

/-- A kind that is below the kind of sets by way of another. -/
def kind : Kind := .named "Shelf" [.named "Rack" [.text, .set]]

def shelf : Collection := ⟨⟨0⟩, kind, by decide⟩

def stored : Object := ⟨⟨1⟩, .objectType "Stored", by decide⟩

/-- A number in two forms, an object changed in between, and two values that are not numbers. -/
def program : List Action :=
  [.newCollection kind [.decimal ⟨false, 10, 1, by decide, by decide⟩,
      .decimal ⟨false, 100, 2, by decide, by decide⟩],
    .newObject (.objectType "Stored"), .push shelf (.node (.object stored)),
      .setMember stored "size" .null,
    .push shelf (.node (.object stored)), .push shelf (.float .nan), .push shelf (.float .nan)]

end Shelf

/-- Only the first forms of a number and an object are kept, but both that are not numbers. -/
theorem collections_keep_firsts_shelf :
    empty.Allows Shelf.program ∧ (empty.run Shelf.program).Has (.collection Shelf.shelf) ∧
      Shelf.kind.isAssignableTo .set = true ∧
      (empty.run Shelf.program).store.items Shelf.shelf =
        [.decimal ⟨false, 10, 1, by decide, by decide⟩, .node (.object Shelf.stored), .float .nan,
          .float .nan] ∧
      Value.Apart ((empty.run Shelf.program).store.items Shelf.shelf) ∧
      ((empty.run Shelf.program).store.push Shelf.shelf (.node (.object Shelf.stored))).1 =
        false := by
  have allowed : empty.Allows Shelf.program := by decide
  have has : (empty.run Shelf.program).Has (.collection Shelf.shelf) := by decide
  obtain ⟨firsts, -, pushes⟩ := collections_keep_firsts allowed has
  have set : Shelf.kind.isAssignableTo .set = true := by decide
  have items : (empty.run Shelf.program).store.items Shelf.shelf =
      [.decimal ⟨false, 10, 1, by decide, by decide⟩, .node (.object Shelf.stored), .float .nan,
        .float .nan] :=
    (firsts set).1.trans (by decide)
  refine ⟨allowed, has, set, items, (firsts set).2, (pushes _).1.mpr ⟨set, ?_⟩⟩
  -- The object equals itself, however it was changed.
  exact ⟨.node (.object Shelf.stored), items ▸ by decide, by decide⟩

end Heap

end GraphRules
