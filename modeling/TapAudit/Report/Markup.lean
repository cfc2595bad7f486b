import TapAudit.Text.Blank
import TapAudit.Text.Lines
import TapAudit.Text.Lower

/-!
# Markup

Headings and names are shown through a markup of tags in square brackets. Tags leave no trace in
plain text, but an end tag has to have a tag to end. Control characters are dropped, and tabs are
filled up with blanks.
-/

namespace TapAudit.Report.Markup

/-- An end tag without a tag that it could end. -/
inductive Fault where
  | unmatched (tag : List Char) (position : Nat)
  | nothingOpen (position : Nat)
  deriving DecidableEq, Repr

def Fault.message : Fault → String
  | unmatched tag position =>
    s!"closing tag '[{String.ofList tag}]' at position {position} doesn't match any open tag"
  | nothingOpen position => s!"closing tag '[/]' at position {position} has nothing to close"

/-- What a marked-up text is made of. -/
inductive Part where
  /-- Text between tags, in which a backslash may stand before a bracket. -/
  | plain (text : List Char)
  /-- Text that is shown as it is. -/
  | literal (text : List Char)
  /-- A tag and the position of its bracket, with the backslashes before it counted in. -/
  | tag (content : List Char) (position : Nat)
  deriving DecidableEq, Repr

/-- The content of the tag that a text starts with. -/
def tagHere? : List Char → Option (List Char)
  | '[' :: c :: rest =>
    if ('a' ≤ c ∧ c ≤ 'z') ∨ c = '#' ∨ c = '/' ∨ c = '@' then
      let more := rest.takeWhile fun c => c != ']' && c != '['
      if rest[more.length]? = some ']' then some (c :: more) else none
    else none
  | _ => none

/-- Puts a character in front of text between tags. -/
def addChar (c : Char) : List Part → List Part
  | .plain text :: rest => .plain (c :: text) :: rest
  | parts => .plain [c] :: parts

/-- The parts of a text from a position on. Backslashes before a tag stand for half as many, and an
odd one makes the tag literal text. The first argument bounds the steps. -/
def partsFrom : Nat → Nat → List Char → List Part
  | 0, _, text => [.plain text]
  | _ + 1, _, [] => []
  | fuel + 1, position, c :: rest =>
    let text := c :: rest
    let slashes := text.takeWhile (· == '\\')
    match tagHere? (text.drop slashes.length) with
    | some content =>
      let size := slashes.length + content.length + 2
      let kept := slashes.length / 2
      let shown := Part.literal (List.replicate kept '\\')
      let part :=
        if slashes.length % 2 = 1 then Part.literal ('[' :: (content ++ [']']))
        else Part.tag content (position + 2 * kept)
      shown :: part :: partsFrom fuel (position + size) (text.drop size)
    | none => addChar c (partsFrom fuel (position + 1) rest)

/-- Attributes that have a short name. -/
def shortNames : List (String × String) :=
  [("b", "bold"), ("d", "dim"), ("i", "italic"), ("u", "underline"), ("uu", "underline2"),
   ("r", "reverse"), ("c", "conceal"), ("s", "strike"), ("o", "overline")]

/-- The name of a tag, without the value it may set. A short name stands for the full one. -/
def tagName (content : List Char) : List Char :=
  let name := Text.lower (Text.strip (content.takeWhile (· != '=')))
  match shortNames.find? (·.1.toList == name) with
  | some (_, full) => full.toList
  | none => name

/-- Text between tags. A backslash before a bracket is dropped. -/
def withoutEscapes : List Char → List Char
  | '\\' :: '[' :: rest => '[' :: withoutEscapes rest
  | c :: rest => c :: withoutEscapes rest
  | [] => []

/-- The tags without the last one of a name. -/
def closeTag? (name : List Char) : List (List Char) → Option (List (List Char))
  | [] => none
  | tag :: rest => if tag = name then some rest else (closeTag? name rest).map (tag :: ·)

/-- The plain text of parts, with the tags that are open, innermost first. -/
def plainText (stack : List (List Char)) : List Part → Except Fault (List Char)
  | [] => .ok []
  | .plain text :: rest => do pure (withoutEscapes text ++ (← plainText stack rest))
  | .literal text :: rest => do pure (text ++ (← plainText stack rest))
  | .tag content position :: rest =>
    match content with
    | '/' :: name =>
      let name := tagName name
      if name = [] then
        match stack with
        | [] => .error (.nothingOpen position)
        | _ :: stack => plainText stack rest
      else
        match closeTag? name stack with
        | none => .error (.unmatched content position)
        | some stack => plainText stack rest
    | _ => plainText (tagName content :: stack) rest

/-- A marked-up text as it is shown. -/
def render (text : List Char) : Except Fault (List Char) :=
  plainText [] (partsFrom (text.length + 1) 0 text)

/-! ## Plain lines -/

def tabWidth : Nat := 8

/-- Tabs filled up with blanks, from a column on. -/
def expandTabs (column : Nat) : List Char → List Char
  | [] => []
  | c :: rest =>
    if c = '\t' then
      let blanks := tabWidth - column % tabWidth
      List.replicate blanks ' ' ++ expandTabs (column + blanks) rest
    else c :: expandTabs (column + 1) rest

/-- Control characters that are dropped. -/
def isDropped (c : Char) : Bool :=
  [0x07, 0x08, 0x0B, 0x0C, 0x0D].contains c.toNat

def shownLines (text : List Char) : List (List Char) :=
  (Text.lines (text.filter (!isDropped ·))).map (expandTabs 0)

end TapAudit.Report.Markup
