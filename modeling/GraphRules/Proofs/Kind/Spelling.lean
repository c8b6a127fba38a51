import GraphRules.Kind.Json
import GraphRules.Proofs.Json.Places
import Mathlib.Data.List.Forall2

/-! Kinds written as JSON and read back from any of their spellings. -/

namespace GraphRules

namespace BuiltinKind

/-- A name is read as the one built-in kind that has it. -/
theorem ofName?_eq_some_iff {name : String} {kind : BuiltinKind} :
    ofName? name = some kind ↔ kind.name = name := by
  constructor
  · -- What a search by name finds has the name.
    intro found
    exact beq_iff_eq.mp (List.find?_some (p := fun other : BuiltinKind => other.name == name) found)
  · -- No two built-in kinds share a name, so the search comes to the kind itself.
    rintro rfl
    cases kind <;> decide

end BuiltinKind

/-- A JSON value spells a kind, by its name or by a declaration of its supertypes. -/
inductive Json.Spells : Json → Kind → Prop
  | plain (kind : BuiltinKind) : Spells (.string kind.name) (.builtin kind)
  -- A name may also be the one key of a null.
  | key (kind : BuiltinKind) : Spells (.object [(kind.name, .null)]) (.builtin kind)
  /-- The two parts stand in fields, in any order and among any others. -/
  | fields {fields : List (String × Json)} {name : String} {items : List Json}
      {supertypes : List Kind}
      (called : fields.lookup "name" = some (.string name))
      (listed : fields.lookup "supertypes" = some (.array items))
      (above : List.Forall₂ Spells items supertypes) :
      Spells (.object [("named", .object fields)]) (.named name supertypes)
  /-- The two parts stand in a list without anything else. -/
  | pair {name : String} {items : List Json} {supertypes : List Kind}
      (above : List.Forall₂ Spells items supertypes) :
      Spells (.object [("named", .array [.string name, .array items])]) (.named name supertypes)

namespace Kind

/-! ### Reading, one level at a time -/

/-- Kinds are read from a list item by item. -/
theorem ofJsonList?_cons_iff {item : Json} {rest : List Json} {kinds : List Kind} :
    ofJsonList? (item :: rest) = some kinds ↔
      ∃ kind others, ofJson? item = some kind ∧ ofJsonList? rest = some others ∧
        kind :: others = kinds := by
  -- If either is refused, so is the whole.
  rw [ofJsonList?]
  cases ofJson? item <;> cases ofJsonList? rest <;> simp

/-- The supertypes of a declaration are read from the first field of that name. -/
theorem ofSupertypesField?_eq_some_iff {fields : List (String × Json)} {supertypes : List Kind} :
    ofSupertypesField? fields = some supertypes ↔
      ∃ items, fields.lookup "supertypes" = some (.array items) ∧
        ofJsonList? items = some supertypes := by
  -- The reader goes over the fields as a search for the name does.
  induction fields with
  | nil => simp [ofSupertypesField?]
  | cons field rest later =>
    obtain ⟨name, value⟩ := field
    rw [ofSupertypesField?.eq_def, List.lookup_cons]
    by_cases here : name = "supertypes"
    · subst here
      cases value <;> simp
    · have other : ("supertypes" == name) = false := beq_eq_false_iff_ne.mpr (Ne.symm here)
      simp only [if_neg here, other, later]

/-- Only a named kind is read from a declaration, by a list or fields of its two parts. -/
theorem ofDeclaration?_eq_some_iff {declaration : Json} {kind : Kind} :
    ofDeclaration? declaration = some kind ↔
      ∃ name items supertypes, kind = .named name supertypes ∧ ofJsonList? items = some supertypes ∧
        (declaration = .array [.string name, .array items] ∨
          ∃ fields, declaration = .object fields ∧ fields.lookup "name" = some (.string name) ∧
            fields.lookup "supertypes" = some (.array items)) := by
  constructor
  · intro read
    rw [ofDeclaration?.eq_def] at read
    split at read
    -- A list has to hold both parts in order; fields are searched for each of them.
    · next name items =>
      obtain ⟨supertypes, above, rfl⟩ := Option.map_eq_some_iff.mp read
      exact ⟨name, items, supertypes, rfl, above, .inl rfl⟩
    · next fields =>
      split at read
      · next name supertypes called found =>
        obtain rfl := Option.some.inj read
        obtain ⟨items, listed, above⟩ := ofSupertypesField?_eq_some_iff.mp found
        exact ⟨name, items, supertypes, rfl, above, .inr ⟨fields, rfl, called, listed⟩⟩
      · cases read
    · cases read
  -- In both forms the parts are there to be read.
  · rintro ⟨name, items, supertypes, rfl, above, rfl | ⟨fields, rfl, called, listed⟩⟩
    · rw [ofDeclaration?, above, Option.map_some]
    · rw [ofDeclaration?, called, ofSupertypesField?_eq_some_iff.mpr ⟨items, listed, above⟩]

/-- A kind is read from a built-in name, or from a declaration under the key for named kinds. -/
theorem ofJson?_step {json : Json} {kind : Kind} :
    ofJson? json = some kind ↔
      (∃ builtin : BuiltinKind, kind = .builtin builtin ∧
        (json = .string builtin.name ∨ json = .object [(builtin.name, .null)])) ∨
      ∃ declaration, json = .object [("named", declaration)] ∧
        ofDeclaration? declaration = some kind := by
  constructor
  · intro read
    rw [ofJson?.eq_def] at read
    split at read
    -- Two of the ways to be read give a built-in kind, by its name.
    · obtain ⟨builtin, found, rfl⟩ := Option.map_eq_some_iff.mp read
      exact .inl ⟨builtin, rfl, .inl (congrArg _ (BuiltinKind.ofName?_eq_some_iff.mp found).symm)⟩
    · obtain ⟨builtin, found, rfl⟩ := Option.map_eq_some_iff.mp read
      obtain rfl := BuiltinKind.ofName?_eq_some_iff.mp found
      exact .inl ⟨builtin, rfl, .inr rfl⟩
    · next declaration _ => exact .inr ⟨declaration, rfl, read⟩
    · cases read
  · rintro (⟨builtin, rfl, rfl | rfl⟩ | ⟨declaration, rfl, read⟩)
    · rw [ofJson?, BuiltinKind.ofName?_eq_some_iff.mpr rfl, Option.map_some]
    · rw [ofJson?, BuiltinKind.ofName?_eq_some_iff.mpr rfl, Option.map_some]
    · -- Under the key for named kinds, a null would be no declaration.
      rw [ofJson?, read]
      rintro rfl
      simp [ofDeclaration?] at read

/-! ### Reading to the end -/

mutual

/-- A kind is read from exactly the JSON values that spell it. -/
theorem ofJson?_eq_some_iff :
    ∀ (kind : Kind) {json : Json}, ofJson? json = some kind ↔ json.Spells kind
  | .builtin kind, json => by
    rw [ofJson?_step]
    constructor
    · rintro (⟨_, ⟨rfl⟩, rfl | rfl⟩ | ⟨declaration, rfl, read⟩)
      · exact .plain kind
      · exact .key kind
      · -- No declaration is read as a built-in kind.
        obtain ⟨_, _, _, named, _⟩ := ofDeclaration?_eq_some_iff.mp read
        cases named
    · rintro (_ | _)
      · exact .inl ⟨kind, rfl, .inl rfl⟩
      · exact .inl ⟨kind, rfl, .inr rfl⟩
  | .named name supertypes, json => by
    rw [ofJson?_step]
    constructor
    -- Only a declaration is read as a named kind.
    · rintro (⟨_, builtin, _⟩ | ⟨declaration, rfl, read⟩)
      · cases builtin
      · obtain ⟨_, items, _, ⟨rfl⟩, above, rfl | ⟨fields, rfl, called, listed⟩⟩ :=
          ofDeclaration?_eq_some_iff.mp read
        · exact .pair ((ofJsonList?_eq_some_iff supertypes).mp above)
        · exact .fields called listed ((ofJsonList?_eq_some_iff supertypes).mp above)
    · intro spelled
      refine .inr ?_
      -- In either form the supertypes are read back one by one.
      cases spelled with
      | @fields fields _ items _ called listed above =>
        have read := (ofJsonList?_eq_some_iff supertypes).mpr above
        exact ⟨.object fields, rfl, ofDeclaration?_eq_some_iff.mpr
          ⟨name, items, supertypes, rfl, read, .inr ⟨fields, rfl, called, listed⟩⟩⟩
      | @pair _ items _ above =>
        have read := (ofJsonList?_eq_some_iff supertypes).mpr above
        exact ⟨.array [.string name, .array items], rfl, ofDeclaration?_eq_some_iff.mpr
          ⟨name, items, supertypes, rfl, read, .inl rfl⟩⟩

/-- Kinds are read from a list of as many items that spell them, in order. -/
theorem ofJsonList?_eq_some_iff : ∀ (kinds : List Kind) {items : List Json},
    ofJsonList? items = some kinds ↔ List.Forall₂ Json.Spells items kinds
  -- The induction is on the kinds, each of which takes one item.
  | [], [] => by simp [ofJsonList?]
  | [], item :: rest => by simp [ofJsonList?_cons_iff]
  | kind :: others, [] => by simp [ofJsonList?]
  | kind :: others, item :: rest => by
    rw [ofJsonList?_cons_iff, List.forall₂_cons, ← ofJson?_eq_some_iff kind,
      ← ofJsonList?_eq_some_iff others]
    simp

end

/-! ### Writing -/

mutual

/-- A kind is written in one of its spellings. -/
theorem spells_toJson : ∀ kind : Kind, kind.toJson.Spells kind
  -- A kind is written by its name, or as fields in this order.
  | .builtin kind => .plain kind
  | .named _ supertypes => .fields rfl rfl (spells_toJsonList supertypes)

/-- Kinds are written one by one. -/
theorem spells_toJsonList : ∀ kinds : List Kind, List.Forall₂ Json.Spells (toJsonList kinds) kinds
  -- The induction is on the kinds, each written as one item.
  | [] => .nil
  | kind :: rest => .cons (spells_toJson kind) (spells_toJsonList rest)

end

mutual

/-- What is written names no two fields of an object alike. -/
theorem namesApart_toJson : ∀ kind : Kind, kind.toJson.NamesApart
  -- A name has no fields, and a declaration has two of different names.
  | .builtin kind => Json.namesApart_string kind.name
  | .named name supertypes => by
    have above := namesApart_toJsonList supertypes
    simpa [toJson] using above

/-- The same holds of what is written of several kinds. -/
theorem namesApart_toJsonList : ∀ kinds : List Kind, ∀ item ∈ toJsonList kinds, item.NamesApart
  -- The induction is on the kinds, each written as one item.
  | [] => nofun
  | kind :: rest => List.forall_mem_cons.mpr ⟨namesApart_toJson kind, namesApart_toJsonList rest⟩

end

/-- Kinds survive being written, and exactly their spellings are read. -/
theorem kinds_survive :
    (∀ kind : Kind, ofJson? kind.toJson = some kind ∧ kind.toJson.NamesApart) ∧
    -- No two kinds are written alike, whatever their names.
    Function.Injective toJson ∧
    (∀ (json : Json) (kind : Kind), ofJson? json = some kind ↔ json.Spells kind) ∧
    -- Whatever kind is read, it is read again from what is written of it.
    ∀ json : Json, (ofJson? json).bind (fun kind => ofJson? kind.toJson) = ofJson? json := by
  have back : ∀ kind : Kind, ofJson? kind.toJson = some kind :=
    fun kind => (ofJson?_eq_some_iff kind).mpr (spells_toJson kind)
  -- The rest follows from the first part and from what a reader takes.
  refine ⟨fun kind => ⟨back kind, namesApart_toJson kind⟩, ?_,
    fun json kind => ofJson?_eq_some_iff kind, ?_⟩
  · intro first second same
    -- Both are read back from the same value.
    exact Option.some.inj (by rw [← back first, same, back second])
  · intro json
    cases ofJson? json with
    | none => rfl
    | some kind => exact back kind

/-- A named kind may go by the name of a built-in one, and stand above another one that does. -/
example :
    ofJson? (.object [("named", .object [("kind", .string "null"), ("name", .string "text"),
      ("supertypes", .array [.object [("named", .array [.string "text", .array []])],
        .object [("text", .null)]])])]) = some (.named "text" [.named "text" [], .text]) := rfl

end Kind

end GraphRules
