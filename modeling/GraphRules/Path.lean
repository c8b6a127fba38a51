/-! The location of a value below the value that an extraction starts from. -/

namespace GraphRules

/-- One step from a container to a value inside it. -/
structure PathSegment where
  name : String
  /-- The position, for containers with an order. -/
  index : Option Nat
deriving DecidableEq

/-- The name of the step, and its position in brackets. -/
def PathSegment.text (segment : PathSegment) : String :=
  match segment.index with
  | some index => s!"{segment.name}[{index}]"
  | none => segment.name

/-- The steps from the root to a value, outermost first. -/
structure Path where
  segments : List PathSegment
deriving DecidableEq

namespace Path

/-- The path of the root itself. -/
def root : Path := ⟨[]⟩

/-- The path extended by one step. -/
def child (path : Path) (name : String) (index : Option Nat) : Path :=
  ⟨path.segments ++ [⟨name, index⟩]⟩

def isRoot (path : Path) : Bool := path.segments.isEmpty

/-- How deep the value is nested. -/
def depth (path : Path) : Nat := path.segments.length

/-- The innermost step, if any. -/
def last? (path : Path) : Option PathSegment := path.segments.getLast?

/-- The steps joined by points. -/
def text (path : Path) : String :=
  ".".intercalate (path.segments.map PathSegment.text)

instance : ToString Path := ⟨text⟩

end Path

end GraphRules
