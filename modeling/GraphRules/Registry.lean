import GraphRules.Extractor.Basic
import GraphRules.Settings

/-! Registries: extractors of which later ones take precedence, with a memory of what was found. -/

namespace GraphRules

/-- Extractors in order of registration, and the answers found since the last registration. -/
structure Registry where
  extractors : List Extractor
  cache : List (ExtractorKey × Extractor)

namespace Registry

/-- The registry without extractors. -/
def empty : Registry := ⟨[], []⟩

/-- The registry of the built-in extractors. -/
def withDefaults : Registry := ⟨BuiltinExtractor.all.map .builtin, []⟩

/-- A registry with or without the built-in extractors. -/
def make (withBuiltin : Bool) : Registry := if withBuiltin then withDefaults else empty

/-- The registry that settings ask for, unless they are unusable. -/
def ofSettings (settings : ExtractionSettings) : Except SettingsError Registry :=
  match settings.complaint? with
  | some error => .error error
  | none => .ok (make settings.registerDefaults)

/-- Appends an extractor and forgets every answer, since it may serve their keys. -/
def register (registry : Registry) (extractor : Extractor) : Registry :=
  ⟨registry.extractors ++ [extractor], []⟩

/-- The extractor registered last among those that serve a slot. -/
def resolve? (registry : Registry) (kind : Kind) (slot : Nat) : Option Extractor :=
  -- Later registrations take precedence.
  registry.extractors.reverse.find? (·.appliesTo kind slot)

/-- Finds the extractor for a slot, from memory if it was found before. -/
def find (registry : Registry) (kind : Kind) (slot : Nat) : Option Extractor × Registry :=
  -- Only what is found is remembered, so a miss is searched for again.
  match registry.cache.lookup ⟨kind, slot⟩ with
  | some extractor => (some extractor, registry)
  | none =>
    match registry.resolve? kind slot with
    | some extractor =>
      (some extractor, { registry with cache := registry.cache ++ [(⟨kind, slot⟩, extractor)] })
    | none => (none, registry)

/-- How many extractors are registered. -/
def size (registry : Registry) : Nat := registry.extractors.length

def isEmpty (registry : Registry) : Bool := registry.extractors.isEmpty

/-- How many answers are remembered. -/
def cachedSize (registry : Registry) : Nat := registry.cache.length

/-- The values that the extractors keep alive. -/
def holds (registry : Registry) : List Value := registry.extractors.flatMap Extractor.holds

/-- The counts of a registry as a diagnostic text. -/
def diagnosticText (registry : Registry) : String :=
  "ExtractorRegistry \x7b extractors: " ++ toString registry.size ++ ", cached: " ++
    toString registry.cachedSize ++ " \x7d"

end Registry

end GraphRules
