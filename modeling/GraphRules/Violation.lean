import GraphRules.Json.Basic

/-! Violations of rules: a stable code, a message, the place, and the parameters of the message. -/

namespace GraphRules

/-- One failed check. -/
structure Violation where
  code : String
  message : String
  /-- Where the offending value stands; absent for the value under validation itself. -/
  path : Option String
  /-- The parameters of the message in order, possibly with repeated names. -/
  params : List (String × String)
deriving DecidableEq

/-- The largest bound of a count, which stands for no bound at all. -/
def countLimit : Nat := Nat.pow 2 64 - 1

namespace Violation

/-- A violation without a place and without parameters. -/
def make (code message : String) : Violation := ⟨code, message, none, []⟩

/-- The violation at a place. -/
def withPath (violation : Violation) (path : String) : Violation :=
  { violation with path := some path }

/-- The violation with one more parameter. -/
def withParam (violation : Violation) (name value : String) : Violation :=
  { violation with params := violation.params ++ [(name, value)] }

/-- The first parameter of a name. -/
def param? (violation : Violation) (name : String) : Option String :=
  violation.params.lookup name

/-- A value that has to be there is null. -/
def notNull : Violation := make "not_null" "must not be null"

/-- A rule that does not apply to values of a kind. -/
def typeMismatch (code expected actual : String) : Violation :=
  make code s!"cannot be applied to {actual}, expected {expected}"
    |>.withParam "expected" expected
    |>.withParam "actual" actual

/-- A count that lies outside its bounds, of which the upper one may be open. -/
def outOfRange (code what : String) (least greatest actual : Nat) : Violation :=
  -- An open bound is neither told nor passed on as a parameter.
  let isOpen := greatest == countLimit
  let message :=
    if isOpen then s!"{what} must be at least {least}"
    else s!"{what} must be between {least} and {greatest}"
  let violation := (make code message).withParam "min" (toString least)
  let violation := if isOpen then violation else violation.withParam "max" (toString greatest)
  violation.withParam "actual" (toString actual)

/-- Writes a violation; of parameters of one name the last is kept. -/
def toJson (violation : Violation) : Json :=
  .object [
    ("code", .string violation.code),
    ("message", .string violation.message),
    ("params", .ofFields (violation.params.map fun (name, value) => (name, .string value))),
    ("path", .optionalString violation.path)]

/-- The violation on one line. -/
def text (violation : Violation) : String :=
  let place := match violation.path with
    | some path => s!"[{path}] "
    | none => ""
  let params := violation.params.map fun (name, value) => s!"{name}={value}"
  let listed := if params.isEmpty then "" else " (" ++ ", ".intercalate params ++ ")"
  place ++ violation.code ++ ": " ++ violation.message ++ listed

end Violation

end GraphRules
