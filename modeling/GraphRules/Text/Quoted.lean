import GraphRules.Json.Basic
import GraphRules.Text.Printable

/-! Texts in quotes for diagnostics, in which every character can be told apart. -/

namespace GraphRules

/-- A character between the quotes of a diagnostic text. -/
def diagnosticChar (c : Char) : String :=
  if c == '\x00' then "\\0"
  else if c == '\t' then "\\t"
  else if c == '\r' then "\\r"
  else if c == '\n' then "\\n"
  else if c == '"' then "\\\""
  else if c == '\\' then "\\\\"
  else if isPrintable c then c.toString
  else "\\u\x7b" ++ Json.hexDigits c.toNat ++ "\x7d"

/-- A text in quotes. -/
def diagnosticQuote (content : String) : String :=
  content.foldl (fun text c => text ++ diagnosticChar c) "\"" ++ "\""

end GraphRules
