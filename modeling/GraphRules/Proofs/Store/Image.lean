import GraphRules.Proofs.Basic
import GraphRules.Proofs.Json.Places
import GraphRules.Proofs.Store.History
import Mathlib.Order.Monotone.Basic

/-! Values that stand for JSON values throughout, each container on a node of its own. -/

namespace GraphRules

namespace Value

/-- The content of a text, and of nothing else. -/
def text? : Value → Option String
  | .text content => some content
  | _ => none

end Value

namespace Store

/-! ### Stores that grow -/

/-- A store holds what another one held, and may hold more behind it. -/
structure Extends (before after : Store) : Prop where
  room : before.cells.size ≤ after.cells.size
  same : ∀ id : NodeId, id.index < before.cells.size → after.contents? id = before.contents? id

namespace Extends

variable {before middle after : Store}

theorem refl (store : Store) : store.Extends store := ⟨Nat.le_refl _, fun _ _ => rfl⟩

theorem trans (one : before.Extends middle) (two : middle.Extends after) :
    before.Extends after where
  room := Nat.le_trans one.room two.room
  -- What was there first is still there in the middle.
  same id old := (two.same id (Nat.lt_of_lt_of_le old one.room)).trans (one.same id old)

/-- A new node is behind all others. -/
theorem add (store : Store) (contents : Contents) : store.Extends (store.add contents).2 where
  room := by
    -- The new node is behind all that were there.
    rw [show (store.add contents).2.cells.size = store.cells.size + 1 from Array.size_push _]
    exact Nat.le_succ _
  same id old := by
    have other : id ≠ (store.add contents).1 := by
      intro new
      rw [new] at old
      exact Nat.lt_irrefl _ old
    rw [contents?_add, if_neg other]

end Extends

/-! ### What is inside a value -/

/-- The values directly inside a value, which are the items or the values of entries. -/
def inside (store : Store) : Value → List Value
  | .node (.collection collection) => store.items collection
  | .node (.map map) => (store.entries map).map (·.2)
  | _ => []

/-- The value at a place, if there is one. -/
def part? (store : Store) (value : Value) : List Nat → Option Value
  | [] => some value
  | index :: path => (store.inside value)[index]?.bind fun inner => store.part? inner path

/-- The field that an entry reads as, if its key is a text and its value reads as a JSON value. -/
def fieldOf? (read : Value → Option Json) (entry : Value × Value) : Option (String × Json) := do
  return (← entry.1.text?, ← read entry.2)

/-- The JSON value that a value reads as, entered to a given depth. -/
def jsonWithin? (store : Store) : Nat → Value → Option Json
  | _, .null => some .null
  | _, .boolean content => some (.bool content)
  | _, .integer content => some (.number (.integer content.toInt))
  | _, .float content => some (.number (.float content))
  | _, .text content => some (.string content)
  | depth + 1, .node (.collection collection) =>
    ((store.items collection).mapM (store.jsonWithin? depth)).map .array
  -- A map reads as an object if all of its keys are texts.
  | depth + 1, .node (.map map) =>
    ((store.entries map).mapM (fieldOf? (store.jsonWithin? depth))).map .object
  | _, _ => none

/-- The JSON value that a value reads as, entered as deep as there are nodes. -/
def json? (store : Store) (value : Value) : Option Json :=
  store.jsonWithin? store.cells.size value

/-- What stands for a JSON value, at the place where it is: what is inside has places of its own. -/
def Renders (store : Store) (value : Value) : Json → Prop
  | .null => value = .null
  | .bool content => value = .boolean content
  | .number (.integer number) =>
    (∃ content : Int64, content.toInt = number ∧ value = .integer content) ∨
      (∀ content : Int64, content.toInt ≠ number) ∧ value = .float (.ofInt number)
  | .number (.float number) => value = .float number
  | .string content => value = .text content
  | .array items =>
    ∃ sequence : Collection, value = .node (.collection sequence) ∧ sequence.kind = .sequence ∧
      (store.items sequence).length = items.length
  | .object fields =>
    ∃ map : Map, value = .node (.map map) ∧ map.kind = .map ∧
      (store.entries map).map (·.1) = fields.map (fun field => .text field.1) ∧
      (∀ (index : Nat) (field : String × Json), fields[index]? = some field →
        store.lookup? map (.text field.1) = (store.inside value)[index]?) ∧
      ∀ name, name ∉ fields.map (·.1) → store.lookup? map (.text name) = none

section renders

variable {before after : Store} {value : Value} {json : Json}

theorem items_congr {collection : Collection}
    (same : after.contents? collection.id = before.contents? collection.id) :
    after.items collection = before.items collection := by
  -- Items are read off the contents.
  rw [items, itemsAt, same, items, itemsAt]

theorem entries_congr {map : Map} (same : after.contents? map.id = before.contents? map.id) :
    after.entries map = before.entries map := by
  -- Entries are read off the contents.
  rw [entries, same, entries]

/-- Only a node has something inside. -/
theorem inside_of_bare {store : Store} (bare : value.identity = none) :
    store.inside value = [] := by
  -- Only nodes hold anything.
  cases value with
  | node node => cases bare
  | _ => rfl

/-- What is inside a node depends on what it holds alone. -/
theorem inside_congr {node : Node} (same : after.contents? node.id = before.contents? node.id) :
    after.inside (.node node) = before.inside (.node node) := by
  -- What is inside is read off the contents, and arrays and objects stand for no JSON value.
  cases node with
  | collection collection => exact items_congr same
  | map map => exact congrArg _ (entries_congr same)
  | _ => rfl

/-- What a value renders depends on what its own node holds alone. -/
theorem Renders.congr (renders : before.Renders value json)
    (same : ∀ node, value = .node node → after.contents? node.id = before.contents? node.id) :
    after.Renders value json := by
  -- Only arrays and objects are rendered by nodes, whose contents are the same.
  cases json with
  | array items =>
    obtain ⟨sequence, rfl, kind, length⟩ := renders
    exact ⟨sequence, rfl, kind, (congrArg List.length (items_congr (same _ rfl))).trans length⟩
  | object fields =>
    obtain ⟨map, rfl, kind, keys, found, missing⟩ := renders
    have entries : after.entries map = before.entries map := entries_congr (same _ rfl)
    have lookups : after.lookup? map = before.lookup? map := by
      funext key
      rw [lookup?, lookup?, entries]
    -- The keys and all that is found under them come from the same entries.
    refine ⟨map, rfl, kind, entries ▸ keys, ?_, ?_⟩
    · rw [inside_congr (same _ rfl), lookups]
      exact found
    · rw [lookups]
      exact missing
  | number number => cases number <;> exact renders
  | _ => exact renders

/-- There are as many values inside as the JSON value has. -/
theorem Renders.length_inside {store : Store} (renders : store.Renders value json) :
    (store.inside value).length = json.inside.length := by
  -- A container holds as many values as the JSON value has parts, and nothing else holds any.
  cases json with
  | array items =>
    obtain ⟨sequence, rfl, -, length⟩ := renders
    exact length
  | object fields =>
    obtain ⟨map, rfl, -, keys, -⟩ := renders
    have lengths := congrArg List.length keys
    simpa [inside, Json.inside] using lengths
  | number number =>
    -- A number is rendered in one of two ways, neither of which holds anything.
    cases number with
    | integer number =>
      rcases renders with ⟨content, -, rfl⟩ | ⟨-, rfl⟩
      · rfl
      · rfl
    | float number =>
      cases renders
      rfl
  | _ =>
    cases renders
    rfl

/-! ### Reading -/

/-- What renders a JSON value and is no node reads as this value, with its number normal. -/
theorem Renders.jsonWithin?_of_bare {store : Store} (renders : store.Renders value json)
    (bare : value.identity = none) (depth : Nat) :
    store.jsonWithin? depth value = some json.normal := by
  cases json with
  | array items =>
    -- Arrays and objects are rendered by nodes.
    obtain ⟨sequence, rfl, -⟩ := renders
    cases bare
  | object fields =>
    obtain ⟨map, rfl, -⟩ := renders
    cases bare
  | number number =>
    cases number with
    | float number =>
      obtain rfl := renders
      rw [jsonWithin?, Json.normal, JsonNumber.normal]
    | integer number =>
      rw [Json.normal, JsonNumber.normal]
      -- A number is normal exactly if it comes back from 64 bits as it was.
      rcases renders with ⟨content, rfl, rfl⟩ | ⟨beyond, rfl⟩
      · rw [jsonWithin?, Int64.ofInt_toInt, if_pos rfl]
      · rw [jsonWithin?, if_neg (beyond _)]
  | _ =>
    obtain rfl := renders
    rw [jsonWithin?, Json.normal]

/-- A node reads as the value it renders, if what is inside does one level further down. -/
theorem Renders.jsonWithin?_succ {store : Store} {root : Node} {depth : Nat}
    (renders : store.Renders (.node root) json)
    (each : ∀ (index : Nat) (inner : Json) (part : Value), json.inside[index]? = some inner →
      (store.inside (.node root))[index]? = some part →
        store.jsonWithin? depth part = some inner.normal) :
    store.jsonWithin? (depth + 1) (.node root) = some json.normal := by
  cases json with
  | array items =>
    -- The items are read one by one, as many as the array has.
    obtain ⟨sequence, same, -, length⟩ := renders
    obtain rfl := Value.node.inj same
    rw [jsonWithin?, Lists.mapM_eq_some_map length each, Json.normal, Json.normalItems_eq_map]
    rfl
  | object fields =>
    obtain ⟨map, same, -, keys, -⟩ := renders
    obtain rfl := Value.node.inj same
    have length : (store.entries map).length = fields.length := by
      have lengths := congrArg List.length keys
      rwa [List.length_map, List.length_map] at lengths
    have entries : (store.entries map).mapM (fieldOf? (store.jsonWithin? depth)) =
        some (fields.map fun field => (field.1, field.2.normal)) := by
      refine Lists.mapM_eq_some_map length fun index field entry placed held => ?_
      -- The key is the text of the name, and the value is at the same index inside.
      have name : entry.1 = .text field.1 := by
        have keysAt := congrArg (·[index]?) keys
        simpa [held, placed] using keysAt
      have inner : store.jsonWithin? depth entry.2 = some field.2.normal :=
        each index field.2 entry.2 (by simp [Json.inside, placed]) (by simp [inside, held])
      rw [fieldOf?, name, inner]
      rfl
    rw [jsonWithin?, entries, Json.normal, Json.normalFields_eq_map]
    rfl
  | number number => cases number <;> simp [Renders] at renders
  | _ => cases renders

end renders

/-! ### Images -/

/-- A value stands for a JSON value throughout, with its nodes from `low` up to `high`. -/
inductive Image (store : Store) : Json → Value → Nat → Nat → Prop
  | leaf {json : Json} {value : Value} {low : Nat} (renders : store.Renders value json)
    (bare : value.identity = none) : Image store json value low low
  -- The values inside have their nodes one after the other, and the node of the whole is last.
  | container {json : Json} {root : Node} {low high : Nat} (starts : Nat → Nat)
    (renders : store.Renders (.node root) json) (rising : Monotone starts) (first : starts 0 = low)
    (last : starts json.inside.length = root.id.index) (next : high = root.id.index + 1)
    (within : ∀ (index : Nat) (inner : Json) (part : Value), json.inside[index]? = some inner →
      (store.inside (.node root))[index]? = some part →
        Image store inner part (starts index) (starts (index + 1))) :
    Image store json (.node root) low high

namespace Image

variable {store before after : Store} {json : Json} {value : Value} {root node twin : Node}
  {low high index later : Nat} {path other : List Nat}

theorem renders (image : store.Image json value low high) : store.Renders value json := by
  -- Both ways to be an image say what is rendered.
  cases image with
  | leaf renders => exact renders
  | container starts renders => exact renders

/-- The node of the whole comes last. -/
theorem root_eq (image : store.Image json (.node root) low high) : high = root.id.index + 1 := by
  -- The node of the whole is the last of its nodes.
  cases image with
  | leaf renders bare => cases bare
  | container starts renders rising first last next => exact next

/-- Each value inside stands for one inside the JSON value, with nodes before that of the whole. -/
theorem inner (image : store.Image json value low high) {part : Value}
    (held : (store.inside value)[index]? = some part) :
    ∃ inner start stop, json.inside[index]? = some inner ∧ store.Image inner part start stop ∧
      low ≤ start ∧ stop < high := by
  -- The part has an image of its own, between its start and the start of the next one.
  cases image with
  | leaf renders bare => simp [inside_of_bare bare] at held
  | container starts renders rising first last next within =>
    obtain ⟨inRange, -⟩ := List.getElem?_eq_some_iff.mp held
    rw [renders.length_inside] at inRange
    have placed := List.getElem?_eq_getElem inRange
    have lower : starts 0 ≤ starts index := rising (Nat.zero_le _)
    have upper : starts (index + 1) ≤ starts json.inside.length := rising inRange
    exact ⟨_, _, _, placed, within index _ part placed held, by omega, by omega⟩

/-- A node at any place is one of those that the image is over. -/
theorem bounds (image : store.Image json value low high)
    (there : store.part? value path = some (.node node)) :
    low ≤ node.id.index ∧ node.id.index < high := by
  -- The induction is on the way to the node; each step leads into an image within the bounds.
  induction path generalizing json value low high with
  | nil =>
    obtain rfl := Option.some.inj there
    cases image with
    | leaf renders bare => cases bare
    | container starts renders rising first last next =>
      -- The container itself stands at the end of what it holds.
      have whole : starts 0 ≤ starts json.inside.length := rising (Nat.zero_le _)
      omega
  | cons index path below =>
    obtain ⟨part, held, there⟩ := Option.bind_eq_some_iff.mp there
    obtain ⟨inner, start, stop, -, image, lower, upper⟩ := image.inner held
    have inside := below image there
    omega

/-- A node inside comes before that of the whole. -/
theorem lt_root (image : store.Image json (.node root) low high)
    (there : store.part? (.node root) (index :: path) = some (.node node)) :
    node.id.index < root.id.index := by
  -- The node is within the image of a part, which ends before the root.
  obtain ⟨part, held, there⟩ := Option.bind_eq_some_iff.mp there
  obtain ⟨inner, start, stop, -, inside, -, upper⟩ := image.inner held
  have place := inside.bounds there
  have last := image.root_eq
  omega

/-- A node inside an earlier value comes before every node inside a later one. -/
theorem lt_of_lt (image : store.Image json value low high) (earlier : index < later)
    (there : store.part? value (index :: path) = some (.node node))
    (behind : store.part? value (later :: other) = some (.node twin)) :
    node.id.index < twin.id.index := by
  obtain ⟨part, held, reached⟩ := Option.bind_eq_some_iff.mp there
  obtain ⟨next, heldNext, reachedNext⟩ := Option.bind_eq_some_iff.mp behind
  obtain ⟨inner, -, -, placed, -⟩ := image.inner held
  obtain ⟨innerNext, -, -, placedNext, -⟩ := image.inner heldNext
  cases image with
  | leaf renders bare => simp [inside_of_bare bare] at held
  | container starts renders rising first last _ within =>
    -- The nodes of the earlier value end where those of the next one start.
    have one := (within index inner part placed held).bounds reached
    have two := (within later innerNext next placedNext heldNext).bounds reachedNext
    have apart : starts (index + 1) ≤ starts later := rising earlier
    omega

/-- No node is at two places. -/
theorem path_eq (image : store.Image json value low high)
    (there : store.part? value path = some (.node node))
    (again : store.part? value other = some (.node twin)) (same : node.id = twin.id) :
    path = other := by
  have place : node.id.index = twin.id.index := congrArg NodeId.index same
  induction path generalizing json value low high other with
  | nil =>
    cases other with
    | nil => rfl
    | cons index other =>
      -- The first node is that of the whole, and the other one comes before it.
      obtain rfl := Option.some.inj there
      have inside := image.lt_root again
      omega
  | cons index path below =>
    cases other with
    | nil =>
      obtain rfl := Option.some.inj again
      have inside := image.lt_root there
      omega
    | cons later other =>
      -- The images of different parts lie side by side, so their nodes are in order.
      rcases Nat.lt_trichotomy index later with earlier | rfl | behind
      · have before := image.lt_of_lt earlier there again
        omega
      · -- Both ways enter the same value.
        obtain ⟨part, held, there⟩ := Option.bind_eq_some_iff.mp there
        obtain ⟨twinPart, heldAgain, again⟩ := Option.bind_eq_some_iff.mp again
        obtain rfl := Option.some.inj (held.symm.trans heldAgain)
        obtain ⟨inner, start, stop, -, image, -⟩ := image.inner held
        exact congrArg (index :: ·) (below image there again)
      · have before := image.lt_of_lt behind again there
        omega

/-- At every place stands what renders the part there, and nothing where there is none. -/
theorem rel_part? (image : store.Image json value low high) (path : List Nat) :
    Option.Rel store.Renders (store.part? value path) (json.part? path) := by
  induction path generalizing json value low high with
  -- The induction is on the way; what it enters is an image again.
  | nil => exact .some image.renders
  | cons index path below =>
    cases held : (store.inside value)[index]? with
    | none =>
      -- The JSON value has as many values inside.
      have placed : json.inside[index]? = none := by
        rw [List.getElem?_eq_none_iff] at held ⊢
        exact image.renders.length_inside ▸ held
      rw [part?, held, Json.part?, placed]
      exact .none
    | some part =>
      obtain ⟨inner, start, stop, placed, inside, -⟩ := image.inner held
      rw [part?, held, Json.part?, placed]
      exact below inside

/-- An image stays one when the store grows. -/
theorem extend (image : before.Image json value low high) (grown : before.Extends after)
    (room : high ≤ before.cells.size) : after.Image json value low high := by
  induction image with
  | leaf renders bare =>
    refine .leaf (renders.congr fun node same => ?_) bare
    rw [same] at bare
    cases bare
  -- The images of the parts end before the node of the whole, and so lie in the old store too.
  | @container json root low high starts renders rising first last next within stay =>
    -- The node of the whole was there before the store grew.
    have kept : after.contents? root.id = before.contents? root.id := grown.same root.id (by omega)
    refine .container starts (renders.congr ?_) rising first last next ?_
    · intro node same
      obtain rfl := Value.node.inj same
      exact kept
    · intro index inner part placed held
      rw [inside_congr kept] at held
      obtain ⟨inRange, -⟩ := List.getElem?_eq_some_iff.mp placed
      have upper : starts (index + 1) ≤ starts json.inside.length := rising inRange
      exact stay index inner part placed held (by omega)

/-- An image reads as the JSON value in normal form, if it is entered deep enough. -/
theorem jsonWithin?_eq (image : store.Image json value low high) {depth : Nat}
    (deep : high ≤ low + depth) :
    store.jsonWithin? depth value = some json.normal := by
  induction image generalizing depth with
  | leaf renders bare => exact renders.jsonWithin?_of_bare bare depth
  | @container json root low high starts renders rising first last next within read =>
    have whole : starts 0 ≤ starts json.inside.length := rising (Nat.zero_le _)
    obtain ⟨depth, rfl⟩ : ∃ rest, depth = rest + 1 := ⟨depth - 1, by omega⟩
    refine renders.jsonWithin?_succ fun index inner part placed held => ?_
    -- One level is entered, and the node of the whole is behind all those inside.
    obtain ⟨inRange, -⟩ := List.getElem?_eq_some_iff.mp placed
    have lower : starts 0 ≤ starts index := rising (Nat.zero_le _)
    have upper : starts (index + 1) ≤ starts json.inside.length := rising inRange
    exact read index inner part placed held (by omega)

end Image

end Store

end GraphRules
