import GraphRules.Rule.Basic
import GraphRules.Text.Blank

/-! Rules on texts. -/

namespace GraphRules

/-- The text that a rule on texts looks at: null has none, and any other value is a mismatch. -/
def Value.textFor (code : String) : Value → Except Violation (Option String)
  | .null => .ok none
  | .text content => .ok (some content)
  | other => .error (.typeMismatch code "text" other.kind.name)

namespace Rule

/-- The number of characters lies within the bounds, both included. -/
def length (least greatest : Nat) : Rule where
  code := "length"
  check _ value :=
    match value.textFor "length" with
    | .error violation => some violation
    | .ok none => none
    | .ok (some content) =>
      if least ≤ content.length ∧ content.length ≤ greatest then none
      else some (.outOfRange "length" "length" least greatest content.length)

/-- Some character is not white space. -/
def notBlank : Rule where
  code := "not_blank"
  check _ value :=
    match value.textFor "not_blank" with
    | .error violation => some violation
    | .ok none => none
    | .ok (some content) =>
      if isBlank content then some (.make "not_blank" "must not be blank") else none

end Rule

end GraphRules
