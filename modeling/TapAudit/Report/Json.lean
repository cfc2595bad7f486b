import TapAudit.Text.Quoted

/-!
# JSON documents

Documents are written over several lines, two blanks for each level, in characters below 128:
others are escaped by their UTF-16 units.
-/

namespace TapAudit.Report

/-- A JSON document. Objects keep their members in order. -/
inductive Json where
  | null
  | boolean (b : Bool)
  | number (n : Int)
  | string (text : List Char)
  | array (items : List Json)
  | object (members : List (List Char × Json))
  deriving Repr

namespace Json

def escapeUnit (n : Nat) : List Char :=
  '\\' :: 'u' :: Text.hex 4 n

/-- One character of a string. -/
def escapeChar (c : Char) : List Char :=
  if c = '"' ∨ c = '\\' then ['\\', c]
  else if c = '\n' then ['\\', 'n']
  else if c = '\r' then ['\\', 'r']
  else if c = '\t' then ['\\', 't']
  else if c = '\x08' then ['\\', 'b']
  else if c = '\x0c' then ['\\', 'f']
  else if 32 ≤ c.toNat ∧ c.toNat < 127 then [c]
  else if c.toNat < 0x10000 then escapeUnit c.toNat
  else
    let n := c.toNat - 0x10000
    escapeUnit (0xD800 + n / 0x400) ++ escapeUnit (0xDC00 + n % 0x400)

/-- A string between quotation marks. -/
def quote (text : List Char) : List Char :=
  '"' :: (text.flatMap escapeChar ++ ['"'])

/-- A line end and the blanks of a level. -/
def newLine (level : Nat) : List Char :=
  '\n' :: List.replicate (2 * level) ' '

mutual

/-- A document as text; lines after the first are indented by the level. -/
def render (level : Nat) : Json → List Char
  | null => "null".toList
  | boolean b => (if b then "true" else "false").toList
  | number n => (toString n).toList
  | string text => quote text
  | array [] => ['[', ']']
  | array (item :: rest) =>
    '[' :: (newLine (level + 1) ++ render (level + 1) item ++ renderItems (level + 1) rest ++
      newLine level ++ [']'])
  | object [] => ['{', '}']
  | object ((name, value) :: rest) =>
    '{' :: (newLine (level + 1) ++ quote name ++ [':', ' '] ++ render (level + 1) value ++
      renderMembers (level + 1) rest ++ newLine level ++ ['}'])

/-- The items of an array after the first. -/
def renderItems (level : Nat) : List Json → List Char
  | [] => []
  | item :: rest => ',' :: (newLine level ++ render level item ++ renderItems level rest)

/-- The members of an object after the first. -/
def renderMembers (level : Nat) : List (List Char × Json) → List Char
  | [] => []
  | (name, value) :: rest =>
    ',' :: (newLine level ++ quote name ++ [':', ' '] ++ render level value ++
      renderMembers level rest)

end

/-- A document as text, with a line end after it. -/
def toText (document : Json) : List Char :=
  document.render 0 ++ ['\n']

end Json

end TapAudit.Report
