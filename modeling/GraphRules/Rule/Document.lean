import GraphRules.Rule.Numeric
import GraphRules.Rule.Size
import GraphRules.Rule.Text

/-! Rules and violations read from JSON documents, whose fields are their arguments. -/

namespace GraphRules

namespace Json

/-- The text in a field. -/
def stringField? (json : Json) (name : String) : Option String :=
  match json.field? name with
  | some (.string content) => some content
  | _ => none

/-- The count in a field. -/
def countField? (json : Json) (name : String) : Option Nat :=
  match json.field? name with
  | some (.number (.integer value)) => if 0 ≤ value then some value.toNat else none
  | _ => none

/-- The number in a field: an integer, or a text with decimal places. -/
def decimalField? (json : Json) (name : String) : Option Decimal :=
  match json.field? name with
  | some (.number (.integer value)) => some (.ofInt64 (.ofInt value))
  | some (.string content) => Decimal.ofText? content
  | _ => none

end Json

namespace Violation

/-- Parameters in order, each a list of its name and its text. -/
def ofParams? (violation : Violation) : List Json → Option Violation
  | [] => some violation
  | .array [.string name, .string value] :: rest => (violation.withParam name value).ofParams? rest
  | _ => none

/-- What the document says about the violation apart from its place and further parameters. -/
def ofShape? (json : Json) : Option Violation :=
  match json.stringField? "make" with
  | none => do return make (← json.stringField? "code") (← json.stringField? "message")
  | some "not_null" => some .notNull
  | some "type_mismatch" => do
    return typeMismatch (← json.stringField? "code") (← json.stringField? "expected")
      (← json.stringField? "actual")
  | some "out_of_range" => do
    return outOfRange (← json.stringField? "code") (← json.stringField? "what")
      (← json.countField? "min") (← json.countField? "max") (← json.countField? "actual")
  | some _ => none

/-- Reads a violation. -/
def ofJson? (json : Json) : Option Violation := do
  let violation ← ofShape? json
  -- A place in the document takes the violation there.
  let placed := ((json.stringField? "path").map violation.withPath).getD violation
  match json.field? "params" with
  | none => some placed
  | some (.array params) => placed.ofParams? params
  | some _ => none

end Violation

namespace Rule

/-- Reads a rule. -/
def ofJson? (json : Json) : Option Rule :=
  match json.stringField? "rule" with
  | some "min" => (json.decimalField? "bound").map min
  | some "max" => (json.decimalField? "bound").map max
  | some "length" => do return length (← json.countField? "min") (← json.countField? "max")
  | some "size" => do return size (← json.countField? "min") (← json.countField? "max")
  -- A bound on one side only leaves the other side open.
  | some "min_length" => (json.countField? "min").map (length · countLimit)
  | some "max_length" => (json.countField? "max").map (length 0)
  | some "min_size" => (json.countField? "min").map (size · countLimit)
  | some "max_size" => (json.countField? "max").map (size 0)
  | some "not_null" => some notNull
  | some "not_blank" => some notBlank
  | some "failing" => do
    return failing (← json.stringField? "code") (← Violation.ofJson? (← json.field? "error"))
  | _ => none

end Rule

end GraphRules
