/-!
# Search

A reader looks at one position of a text: the character before it and the text from it on. A
search takes the leftmost position where the reader succeeds.
-/

namespace TapAudit.Text

/-- The result of `read` at the leftmost position where it has one. -/
def firstMatch {α : Type} (read : Option Char → List Char → Option α) (before : Option Char) :
    List Char → Option α
  | [] => read before []
  | c :: rest =>
    match read before (c :: rest) with
    | some found => some found
    | none => firstMatch read (some c) rest

/-- The text after `word`, if it starts with it. -/
def after? (word : String) (text : List Char) : Option (List Char) :=
  word.toList.isPrefixOf? text

def startsWith (word : String) (text : List Char) : Bool :=
  word.toList.isPrefixOf text

/-- `needle` stands somewhere in the text. -/
def hasInfix (needle text : List Char) : Bool :=
  (firstMatch (fun _ rest => needle.isPrefixOf? rest) none text).isSome

/-- The text up to the first occurrence of `mark`, or all of it. -/
def upTo (mark : List Char) : List Char → List Char
  | [] => []
  | c :: rest => if mark.isPrefixOf (c :: rest) then [] else c :: upTo mark rest

end TapAudit.Text
