import GraphRules.Json.Basic

/-! The tokens of a JSON text, found one character at a time. -/

namespace GraphRules

/-- A part of the content of a quoted text: a character, or a code written as an escape. -/
inductive TextUnit
  | char (c : Char)
  | code (point : Nat)

namespace TextUnit

def isHighSurrogate (point : Nat) : Bool := 0xD800 ≤ point && point < 0xDC00

def isLowSurrogate (point : Nat) : Bool := 0xDC00 ≤ point && point < 0xE000

/-- The characters of some units, unless a surrogate stands without its partner. -/
def decode : List TextUnit → Option (List Char)
  | [] => some []
  | .char c :: rest => (decode rest).map (c :: ·)
  | .code high :: .code low :: rest =>
    if isHighSurrogate high && isLowSurrogate low then
      let point := 0x10000 + (high - 0xD800) * 0x400 + (low - 0xDC00)
      (decode rest).map (Char.ofNat point :: ·)
    else if isHighSurrogate high || isLowSurrogate high then none
    else (decode (.code low :: rest)).map (Char.ofNat high :: ·)
  | .code point :: rest =>
    if isHighSurrogate point || isLowSurrogate point then none
    else (decode rest).map (Char.ofNat point :: ·)

end TextUnit

/-- A token of a JSON text. -/
inductive JsonToken
  | mark (c : Char)
  | word (letters : List Char)
  -- A quoted text may be well formed and still name no characters.
  | quoted (content : Option String)

namespace JsonToken

/-- Where the scan of a text stands, with what it has read of the current token in reverse. -/
inductive Place
  | between
  | inWord (letters : List Char)
  | inText (units : List TextUnit)
  | afterBackslash (units : List TextUnit)
  | inCode (units : List TextUnit) (code missing : Nat)

/-- The tokens found so far, last first, and the place in the text. -/
structure Scan where
  found : List JsonToken
  place : Place

def isBlank (c : Char) : Bool := c == ' ' || c == '\n' || c == '\t' || c == '\r'

def isMark (c : Char) : Bool :=
  c == '[' || c == ']' || c == '\x7b' || c == '\x7d' || c == ':' || c == ','

def isWordChar (c : Char) : Bool := c.isAlphanum || c == '+' || c == '-' || c == '.'

/-- What a single letter after a backslash stands for. -/
def escaped? (c : Char) : Option Char :=
  if c == '"' || c == '\\' || c == '/' then some c
  else if c == 'b' then some '\x08'
  else if c == 'f' then some '\x0c'
  else if c == 'n' then some '\n'
  else if c == 'r' then some '\r'
  else if c == 't' then some '\t'
  else none

def hexValue? (c : Char) : Option Nat :=
  if c.isDigit then some (c.toNat - '0'.toNat)
  else if 'a' ≤ c && c ≤ 'f' then some (c.toNat - 'a'.toNat + 10)
  else if 'A' ≤ c && c ≤ 'F' then some (c.toNat - 'A'.toNat + 10)
  else none

/-- Reads a character that does not continue a token. -/
def start (found : List JsonToken) (c : Char) : Option Scan :=
  if isBlank c then some ⟨found, .between⟩
  else if isMark c then some ⟨.mark c :: found, .between⟩
  else if c == '"' then some ⟨found, .inText []⟩
  else if isWordChar c then some ⟨found, .inWord [c]⟩
  else none

/-- Reads one character. -/
def step (scan : Scan) (c : Char) : Option Scan :=
  match scan.place with
  | .between => start scan.found c
  | .inWord letters =>
    if isWordChar c then some ⟨scan.found, .inWord (c :: letters)⟩
    else start (.word letters.reverse :: scan.found) c
  | .inText units =>
    if c == '"' then
      some ⟨.quoted ((TextUnit.decode units.reverse).map String.ofList) :: scan.found, .between⟩
    else if c == '\\' then some ⟨scan.found, .afterBackslash units⟩
    -- Control characters have to be escaped.
    else if c.toNat < 0x20 then none
    else some ⟨scan.found, .inText (.char c :: units)⟩
  | .afterBackslash units =>
    if c == 'u' then some ⟨scan.found, .inCode units 0 4⟩
    else (escaped? c).map fun character => ⟨scan.found, .inText (.char character :: units)⟩
  | .inCode units code missing =>
    (hexValue? c).map fun value =>
      let code := code * 16 + value
      if missing ≤ 1 then ⟨scan.found, .inText (.code code :: units)⟩
      else ⟨scan.found, .inCode units code (missing - 1)⟩

/-- The tokens of a text, unless it ends inside a quoted text or holds a stray character. -/
def scan? (text : String) : Option (List JsonToken) :=
  match text.toList.foldlM step ⟨[], .between⟩ with
  | some ⟨found, .between⟩ => some found.reverse
  | some ⟨found, .inWord letters⟩ => some (.word letters.reverse :: found).reverse
  | _ => none

end JsonToken

end GraphRules
