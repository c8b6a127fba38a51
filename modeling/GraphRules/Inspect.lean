import GraphRules.Numeric.DecimalText
import GraphRules.Store
import GraphRules.Text.Quoted

/-! The texts of values, a short one for messages and a diagnostic one that tells shapes apart. -/

namespace GraphRules

namespace Value

/-- The short text of a value, with only kind and identity of what is not a scalar. -/
def display (identityText : NodeId → String) : Value → String
  | .null => "null"
  | .boolean content => if content then "true" else "false"
  | .integer content => toString content.toInt
  | .float content => content.text
  | .decimal content => content.text
  | .text content => content
  -- Boxes have no identity and show their kind alone.
  | other => "<" ++ other.kind.name ++ ((other.identity.map (identityText ·.id)).getD "") ++ ">"

end Value

/-- The name of a built-in kind in diagnostic texts. -/
def BuiltinKind.diagnosticName : BuiltinKind → String
  | .null => "Null"
  | .boolean => "Boolean"
  | .integer => "Integer"
  | .float => "Float"
  | .decimal => "Decimal"
  | .text => "Text"
  | .iterable => "Iterable"
  | .collection => "Collection"
  | .sequence => "Sequence"
  | .set => "Set"
  | .map => "Map"
  | .dictionary => "Dictionary"
  | .optional => "Optional"
  | .reference => "Reference"
  | .weakReference => "WeakReference"
  | .threadScoped => "ThreadScoped"
  | .array => "Array"
  | .object => "Object"

namespace Kind

mutual

/-- The diagnostic text of a kind, which shows a declaration in full. -/
def diagnosticText : Kind → String
  | .builtin kind => kind.diagnosticName
  | .named name supertypes =>
    "Named(TypeName \x7b name: " ++ diagnosticQuote name ++ ", supertypes: [" ++
      ", ".intercalate (diagnosticTexts supertypes) ++ "] \x7d)"

/-- The diagnostic texts of kinds in order. -/
def diagnosticTexts : List Kind → List String
  | [] => []
  | kind :: rest => kind.diagnosticText :: diagnosticTexts rest

end

end Kind

/-- A name followed by labelled parts in braces. -/
def labelledParts (name : String) (parts : List (String × String)) : String :=
  name ++ " \x7b " ++ ", ".intercalate (parts.map fun (label, text) => label ++ ": " ++ text) ++
    " \x7d"

namespace Store

/-- The diagnostic text of a node, which counts what it holds and never looks into it. -/
def diagnosticNode (store : Store) (identityText : NodeId → String) : Node → String
  | .array node =>
    labelledParts "Array" [("element", node.element.diagnosticText),
      ("len", toString (store.itemsAt node.id).length), ("id", identityText node.id)]
  | .collection node =>
    labelledParts "Collection" [("kind", node.kind.diagnosticText),
      ("len", toString (store.items node).length), ("id", identityText node.id)]
  | .map node =>
    labelledParts "Map" [("kind", node.kind.diagnosticText),
      ("len", toString (store.entries node).length), ("id", identityText node.id)]
  | .object node =>
    labelledParts "Object" [("kind", node.kind.diagnosticText),
      ("members", toString (store.members node).length), ("id", identityText node.id)]
  | .threadScoped node =>
    labelledParts "ThreadScoped" [("bindings", toString (store.boundThreads node)),
      ("id", identityText node.id)]

/-- The diagnostic text of a value. -/
def diagnosticText (store : Store) (identityText : NodeId → String) : Value → String
  | .null => "Null"
  | .boolean content => if content then "Boolean(true)" else "Boolean(false)"
  | .integer content => s!"Integer({content.toInt})"
  | .float content => s!"Float({content.text})"
  | .decimal content => s!"Decimal({content.text})"
  | .text content => s!"Text({diagnosticQuote content})"
  | .vacant => "Optional(None)"
  | .present payload => s!"Optional(Some({store.diagnosticText identityText payload}))"
  | .strong referent => s!"Strong({store.diagnosticText identityText referent})"
  | .weak target => if (store.upgrade? target).isSome then "Weak(\"live\")" else "Weak(\"cleared\")"
  | .node node => store.diagnosticNode identityText node

end Store

end GraphRules
