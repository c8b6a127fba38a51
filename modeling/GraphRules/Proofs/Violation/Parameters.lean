import GraphRules.Proofs.Basic
import GraphRules.Violation
import Mathlib.Data.List.Induction
import Mathlib.Data.List.Nodup

/-! The two views of the parameters of a violation, one by the first text of a name. -/

namespace GraphRules

/-! ### Fields of an object -/

namespace Json

/-- A field that is stored is found under its name, and every other field as before. -/
theorem lookup_insertField (name other : String) (value : Json) (fields : List (String × Json)) :
    (insertField name value fields).lookup other =
      if other = name then some value else fields.lookup other := by
  induction fields with
  | nil => exact Lists.lookup_cons_eq_ite other name value []
  | cons field rest behind =>
    obtain ⟨first, stored⟩ := field
    by_cases same : name = first
    · -- The field in front is replaced.
      subst same
      rw [insertField, if_pos rfl, Lists.lookup_cons_eq_ite, Lists.lookup_cons_eq_ite]
      by_cases asked : other = name <;> simp [asked]
    · by_cases before : name < first
      · rw [insertField, if_neg same, if_pos before, Lists.lookup_cons_eq_ite]
      · -- The field in front has another name, so it answers for itself alone.
        rw [insertField, if_neg same, if_neg before, Lists.lookup_cons_eq_ite,
          Lists.lookup_cons_eq_ite, behind]
        by_cases front : other = first
        · have differs : ¬ first = name := Ne.symm same
          simp [front, differs]
        · simp [front]

/-- Of fields that are stored in order, the last of a name is found. -/
theorem lookup_foldl_insertField (fields : List (String × Json)) (name : String) :
    (fields.foldl (fun kept field => insertField field.1 field.2 kept) []).lookup name =
      fields.reverse.lookup name := by
  -- The induction is on the fields from the last one, which replaces those before it.
  induction fields using List.reverseRecOn with
  | nil => rfl
  | append_singleton fields last found =>
    rw [List.foldl_append, List.foldl_cons, List.foldl_nil, lookup_insertField, found,
      List.reverse_concat]
    exact (Lists.lookup_cons_eq_ite name last.1 last.2 fields.reverse).symm

/-- What is found as a string is not null, so a field with a string is there. -/
theorem field?_of_string {fields : List (String × Json)} {name : String} {content : Option String}
    (found : fields.lookup name = content.map .string) :
    (object fields).field? name = content.map .string := by
  -- A field that holds a text holds no null.
  simp only [field?, found]
  cases content <;> rfl

end Json

namespace Violation

/-! ### The views -/

/-- What the JSON form of a violation holds under the name of a parameter. -/
def reported? (violation : Violation) (name : String) : Option Json :=
  (violation.toJson.field? "params").bind (·.field? name)

/-- Both views tell the same of a name. -/
def Agrees (violation : Violation) (name : String) : Prop :=
  violation.reported? name = (violation.param? name).map .string

/-- Texts are looked up as the strings of a JSON value. -/
theorem lookup_map_string (params : List (String × String)) (name : String) :
    (params.map fun param => (param.1, Json.string param.2)).lookup name =
      (params.lookup name).map .string := by
  -- The induction is on the parameters, whose names stay the same.
  induction params with
  | nil => rfl
  | cons param rest behind =>
    obtain ⟨first, text⟩ := param
    rw [List.map_cons, Lists.lookup_cons_eq_ite, Lists.lookup_cons_eq_ite, behind]
    by_cases asked : name = first <;> simp [asked]

/-- The JSON form holds the last text of a name. -/
theorem reported?_eq (violation : Violation) (name : String) :
    violation.reported? name = (violation.params.reverse.lookup name).map .string := by
  have written : violation.toJson.field? "params" =
      some (.ofFields (violation.params.map fun param => (param.1, .string param.2))) := rfl
  rw [reported?, written, Option.bind_some]
  apply Json.field?_of_string
  -- The fields are stored in the order of the parameters.
  rw [Json.lookup_foldl_insertField, ← List.map_reverse, lookup_map_string]

/-- The two views agree on a name exactly if the first text under it is also the last. -/
theorem agrees_iff (violation : Violation) (name : String) :
    violation.Agrees name ↔
      violation.params.lookup name = violation.params.reverse.lookup name := by
  -- The JSON form of a text tells the text.
  have strings : Function.Injective (Option.map Json.string) :=
    Option.map_injective fun _ _ same => Json.string.inj same
  rw [Agrees, reported?_eq, param?, strings.eq_iff, eq_comm]

/-! ### How violations are made -/

/-- How a violation is made before anything is added to it. -/
inductive Origin
  | make (code message : String)
  | notNull
  | typeMismatch (code expected actual : String)
  | outOfRange (code what : String) (least greatest actual : Nat)

/-- What may be added to a violation later, any number of times and in any order. -/
inductive Amendment
  | param (name text : String)
  | path (path : String)

/-- The parameter that is added. -/
def Amendment.param? : Amendment → Option (String × String)
  | .param name text => some (name, text)
  | .path _ => none

/-- The violation with one thing added. -/
def amend (violation : Violation) : Amendment → Violation
  | .param name text => violation.withParam name text
  | .path path => violation.withPath path

namespace Origin

/-- The violation as it is made. -/
def violation : Origin → Violation
  | make code message => .make code message
  | notNull => .notNull
  | typeMismatch code expected actual => .typeMismatch code expected actual
  | outOfRange code what least greatest actual => .outOfRange code what least greatest actual

/-- The violation after all that is added. -/
def amended (origin : Origin) (amendments : List Amendment) : Violation :=
  amendments.foldl amend origin.violation

/-- Nothing that makes a violation uses a name twice. -/
theorem names_distinct (origin : Origin) : (origin.violation.params.map (·.1)).Nodup := by
  cases origin with
  | make code message | notNull => exact .nil
  | typeMismatch code expected actual => exact (by decide : ["expected", "actual"].Nodup)
  | outOfRange code what least greatest actual =>
    -- The name of the upper bound is there unless it is open.
    by_cases isOpen : greatest = countLimit
    · simp [violation, Violation.outOfRange, Violation.make, withParam, isOpen]
    · simp [violation, Violation.outOfRange, Violation.make, withParam, isOpen]

/-- Added parameters come behind those that are there, and places are no parameters. -/
theorem params_amended (origin : Origin) (amendments : List Amendment) :
    (origin.amended amendments).params =
      origin.violation.params ++ amendments.filterMap (·.param?) := by
  -- The induction is on the amendments from the last one, which adds a parameter or a place.
  induction amendments using List.reverseRecOn with
  | nil => exact (List.append_nil _).symm
  | append_singleton amendments last behind =>
    rw [amended, List.foldl_append, List.filterMap_append, ← List.append_assoc, ← behind]
    cases last with
    | param name text => rfl
    | path path => exact (List.append_nil _).symm

/-- Asked for a name, a violation gives its first text, and its JSON form the last. -/
theorem views_tell (origin : Origin) (amendments : List Amendment) :
    let violation := origin.amended amendments
    let given := origin.violation.params ++ amendments.filterMap (·.param?)
    (∀ name, violation.param? name = given.lookup name) ∧
    (∀ name, violation.reported? name = (given.reverse.lookup name).map .string) ∧
    -- Both views know the same names.
    (∀ name, (violation.reported? name).isSome = (violation.param? name).isSome) ∧
    -- They agree on a name exactly if its first text is also its last.
    (∀ name, violation.Agrees name ↔ given.lookup name = given.reverse.lookup name) ∧
    (∀ name, (∀ one other, (name, one) ∈ given → (name, other) ∈ given → one = other) →
      violation.Agrees name) ∧
    -- Without added parameters they agree on every name.
    ((∀ amendment ∈ amendments, amendment.param? = none) → ∀ name, violation.Agrees name) := by
  intro violation given
  have params : violation.params = given := params_amended origin amendments
  have agrees (name : String) : violation.Agrees name ↔
      given.lookup name = given.reverse.lookup name := by
    rw [agrees_iff, params]
  refine ⟨fun name => ?first, fun name => ?last, fun name => ?names, agrees,
    fun name alike => ?alike, fun unadded name => ?unadded⟩
  -- The texts that were given decide both views, one from the front and one from the back.
  case first => rw [param?, params]
  case last => rw [reported?_eq, params]
  case names => rw [reported?_eq, Option.isSome_map, Lists.isSome_lookup_reverse, param?]
  case alike => exact (agrees name).mpr (Lists.lookup_eq_lookup_reverse alike)
  case unadded =>
    have own : given = origin.violation.params := by
      simp only [given]
      rw [List.filterMap_eq_nil_iff.mpr unadded, List.append_nil]
    refine (agrees name).mpr (Lists.lookup_eq_lookup_reverse fun one other first second => ?_)
    -- There is one parameter of each name.
    rw [own] at first second
    have same := List.inj_on_of_nodup_map origin.names_distinct first second rfl
    exact congrArg Prod.snd same

/-- A place changes nothing: both views of a count outside its bounds tell the same. -/
theorem views_tell_placed :
    let violation := (outOfRange "size" "size" 1 3 5).amended [.path "items"]
    (∀ amendment ∈ [Amendment.path "items"], amendment.param? = none) ∧
      violation.Agrees "actual" ∧ violation.param? "actual" = some "5" := by
  -- A place is no parameter.
  intro violation
  obtain ⟨first, _, _, _, _, unadded⟩ := views_tell (outOfRange "size" "size" 1 3 5) [.path "items"]
  have places : ∀ amendment ∈ [Amendment.path "items"], amendment.param? = none := by
    simp [Amendment.param?]
  exact ⟨places, unadded places "actual", (first "actual").trans (by decide)⟩

/-- A kind given once more has its first text in one view and its second in the other. -/
theorem views_differ_on_kind :
    let violation := (typeMismatch "min" "a number" "text").amended [.param "actual" "boolean"]
    violation.message = "cannot be applied to text, expected a number" ∧
      violation.param? "actual" = some "text" ∧
      violation.reported? "actual" = some (.string "boolean") ∧ ¬ violation.Agrees "actual" := by
  -- The second text is inserted over the first, which was given under the same name.
  intro violation
  have last : violation.reported? "actual" = some (.string "boolean") :=
    reported?_eq violation "actual"
  refine ⟨by decide, by decide, last, ?_⟩
  rw [agrees_iff]
  decide

end Origin

end Violation

end GraphRules
