import GraphRules.Json.Draft

/-! Settings of extraction and validation: their JSON form and what they must satisfy. -/

namespace GraphRules

/-- Settings of registries and of extraction. -/
structure ExtractionSettings where
  /-- How many containers an extraction opens below the root. -/
  maxDepth : Nat
  /-- Whether registries start with the built-in extractors. -/
  registerDefaults : Bool
deriving DecidableEq

/-- Settings of a validator. -/
structure ValidatorSettings where
  extraction : ExtractionSettings
  /-- Whether objects that need introspection are walked. -/
  cascade : Bool
deriving DecidableEq

/-- A setting that holds an unusable value. -/
structure SettingsError where
  field : String
  reason : String
deriving DecidableEq

/-- The text that reports an unusable setting. -/
def SettingsError.message (error : SettingsError) : String :=
  s!"invalid configuration for '{error.field}': {error.reason}"

namespace ExtractionSettings

/-- The settings where nothing is said. -/
def standard : ExtractionSettings := ⟨64, true⟩

/-- The complaint about settings, if there is one: a depth of zero would open nothing. -/
def complaint? (settings : ExtractionSettings) : Option SettingsError :=
  if settings.maxDepth = 0 then some ⟨"max_depth", "must be positive"⟩ else none

/-- Writes settings. -/
def toJson (settings : ExtractionSettings) : Json :=
  .object [("max_depth", .nat settings.maxDepth),
    ("register_defaults", .bool settings.registerDefaults)]

end ExtractionSettings

namespace ValidatorSettings

/-- The settings where nothing is said. -/
def standard : ValidatorSettings := ⟨.standard, true⟩

/-- The complaint about settings, if there is one. -/
def complaint? (settings : ValidatorSettings) : Option SettingsError :=
  settings.extraction.complaint?

/-- Writes settings. -/
def toJson (settings : ValidatorSettings) : Json :=
  .object [("cascade", .bool settings.cascade), ("extraction", settings.extraction.toJson)]

end ValidatorSettings

/-! ### Reading

Settings are read from an object, in which each setting stands at most once and other fields are
passed over, or from a list of settings in order, of which the last may be left out. -/

namespace JsonDraft

/-- A count that a machine word holds. -/
def count? : JsonDraft → Option Nat
  | .number (some (.integer value)) =>
    if 0 ≤ value ∧ value < (Nat.pow 2 64 : Int) then some value.toNat else none
  | _ => none

def bool? : JsonDraft → Option Bool
  | .bool value => some value
  | _ => none

/-- The value of a field that may be left out, but may not stand twice. -/
def optionalField (fields : List (Option String × JsonDraft)) (name : String)
    (read : JsonDraft → Option α) (standard : α) : Option α :=
  match fields.filter (·.1 == some name) with
  | [] => some standard
  | [(_, value)] => read value
  -- A field that stands twice is refused.
  | _ => none

/-- The value at the head of a list, if it is not left out. -/
def optionalHead (items : List JsonDraft) (read : JsonDraft → Option α) (standard : α) : Option α :=
  match items with
  | [] => some standard
  | value :: _ => read value

/-- Whether the name of every field can be read. -/
def readableNames (fields : List (Option String × JsonDraft)) : Bool :=
  fields.all (·.1.isSome)

end JsonDraft

/-- Reads the settings of extraction. -/
def ExtractionSettings.ofDraft? : JsonDraft → Option ExtractionSettings
  | .object fields =>
    if JsonDraft.readableNames fields then do
      let maxDepth ← JsonDraft.optionalField fields "max_depth" JsonDraft.count? standard.maxDepth
      let registerDefaults ←
        JsonDraft.optionalField fields "register_defaults" JsonDraft.bool? standard.registerDefaults
      return ⟨maxDepth, registerDefaults⟩
    else none
  | .array items =>
    if items.length ≤ 2 then do
      let maxDepth ← JsonDraft.optionalHead items JsonDraft.count? standard.maxDepth
      let registerDefaults ←
        JsonDraft.optionalHead (items.drop 1) JsonDraft.bool? standard.registerDefaults
      return ⟨maxDepth, registerDefaults⟩
    else none
  | _ => none

/-- Reads the settings of a validator. -/
def ValidatorSettings.ofDraft? : JsonDraft → Option ValidatorSettings
  | .object fields =>
    if JsonDraft.readableNames fields then do
      let extraction ←
        JsonDraft.optionalField fields "extraction" ExtractionSettings.ofDraft? standard.extraction
      let cascade ← JsonDraft.optionalField fields "cascade" JsonDraft.bool? standard.cascade
      return ⟨extraction, cascade⟩
    else none
  | .array items =>
    if items.length ≤ 2 then do
      let extraction ←
        JsonDraft.optionalHead items ExtractionSettings.ofDraft? standard.extraction
      let cascade ← JsonDraft.optionalHead (items.drop 1) JsonDraft.bool? standard.cascade
      return ⟨extraction, cascade⟩
    else none
  | _ => none

end GraphRules
