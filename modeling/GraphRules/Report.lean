import GraphRules.Extraction
import GraphRules.Violation

/-! Reports: the outcome of one validation. -/

namespace GraphRules

/-- Everything that one validation found. -/
structure Report where
  /-- The violations in order of discovery. -/
  violations : List Violation
  /-- The branches that could not be completed, whose values went unchecked. -/
  suppressed : List ExtractionError
  /-- How many values were extracted. -/
  leaves : Nat
  /-- How many objects were looked into. -/
  objectsCascaded : Nat
deriving DecidableEq

namespace Report

/-- Whether no rule was violated. -/
def isValid (report : Report) : Bool := report.violations.isEmpty

/-- Whether no branch was suppressed. -/
def isComplete (report : Report) : Bool := report.suppressed.isEmpty

/-- The violations with a code. -/
def withCode (report : Report) (code : String) : List Violation :=
  report.violations.filter (·.code == code)

/-- Writes a report. -/
def toJson (report : Report) : Json :=
  .object [
    ("leaves", .nat report.leaves),
    ("objects_cascaded", .nat report.objectsCascaded),
    ("suppressed", .array (report.suppressed.map fun error => .string error.message)),
    ("valid", .bool report.isValid),
    ("violations", .array (report.violations.map Violation.toJson))]

/-- The report as numbered lines. -/
def text (report : Report) : String :=
  let found :=
    if report.isValid then s!"valid ({report.leaves} leaves checked)"
    else
      let lines := report.violations.zipIdx.map fun (violation, index) =>
        s!"\n  {index + 1}. {violation.text}"
      s!"{report.violations.length} violation(s):" ++ String.join lines
  -- Suppressed branches are told even when no rule was violated.
  let suppressed := report.suppressed.map fun error => s!"\n  suppressed: {error.message}"
  found ++ String.join suppressed

end Report

end GraphRules
