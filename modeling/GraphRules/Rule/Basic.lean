import GraphRules.Store
import GraphRules.Violation

/-! Rules: checks of single values. -/

namespace GraphRules

/-- A check of a value, which sees the store only to measure containers. -/
structure Rule where
  /-- The code that identifies the rule. -/
  code : String
  /-- The violation by a value, if there is one. -/
  check : Store → Value → Option Violation

namespace Rule

/-- A rule that every value violates in the same way. -/
def failing (code : String) (violation : Violation) : Rule :=
  ⟨code, fun _ _ => some violation⟩

/-- Null is the only violation. -/
def notNull : Rule where
  code := "not_null"
  check _ value := if value.isNull then some .notNull else none

end Rule

end GraphRules
