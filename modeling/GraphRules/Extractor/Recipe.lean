import GraphRules.Extractor.Basic

/-! Extractors put together from a list of steps. -/

namespace GraphRules

/-- One step of a recipe. -/
inductive RecipeStep
  /-- Reports every item of a collection with its position. -/
  | elements (name : String)
  /-- Reports a member of an object, or null when the object has none of that name. -/
  | member (member name : String)
  /-- Reports a fixed value. -/
  | emit (name : String) (index : Option Nat) (value : Value)
  /-- Gives up. -/
  | fail (message : String)

/-- Where a recipe applies. -/
inductive Applicability
  /-- To its slot of every kind assignable to its own. -/
  | covered
  | always
  | never
  /-- To its slot of every kind. -/
  | slotOnly

/-- An extractor as data. -/
structure Recipe where
  key : ExtractorKey
  applicability : Applicability
  steps : List RecipeStep

namespace Recipe

/-- Follows the steps in order until one fails, keeping what was reported before. -/
def follow (key : ExtractorKey) (store : Store) (container : Value) : List RecipeStep → Yield
  | [] => ⟨[], none⟩
  | step :: rest =>
    let unexpected : Yield := .fail (.unexpectedContainer key.kind container.kind)
    let done : Yield := match step, container with
      | .elements name, .node (.collection collection) => .indexed name (store.items collection)
      | .member member name, .node (.object object) =>
        .plain name [(store.member? object member).getD .null]
      | .emit name index value, _ => ⟨[⟨name, index, value⟩], none⟩
      | .fail message, _ => .fail (.failed message)
      | _, _ => unexpected
    match done.failure with
    -- What was reported before the failure is kept.
    | some _ => done
    | none =>
      let later := follow key store container rest
      ⟨done.reported ++ later.reported, later.failure⟩

/-- The values that a step keeps alive. -/
def heldBy : RecipeStep → List Value
  | .emit _ _ value => [value]
  | _ => []

/-- The extractor that follows a recipe. -/
def extractor (recipe : Recipe) : CustomExtractor where
  key := recipe.key
  applies := match recipe.applicability with
    | .covered => recipe.key.covers
    | .always => fun _ _ => true
    | .never => fun _ _ => false
    | .slotOnly => fun _ slot => recipe.key.slot == slot
  extract store container := follow recipe.key store container recipe.steps
  holds := recipe.steps.flatMap heldBy

end Recipe

end GraphRules
