import TapAudit.Script.Literal
import TapAudit.Text.Blank
import TapAudit.Text.Lines
import TapAudit.Text.Word

/-!
# Markers

Four things are looked for in the raw text of a script: the header of a formula class, a use of the
inline data, the line that starts the inline data, and the opening of a heredoc. A marker can be
looked for in the whole text or in each line by itself.
-/

namespace TapAudit.Script

open Text

/-- What can be looked for in a raw text. -/
inductive Marker where
  /-- The header of a formula class, such as `class Foo < Formula`. -/
  | formulaClass
  /-- The word `DATA` on the code side of a line. -/
  | dataUse
  /-- A line `__END__`. -/
  | endLine
  /-- The opening of a heredoc, such as `<<~EOS`. -/
  | heredoc
  deriving DecidableEq, Repr

/-- The text after the blanks that stand here; there must be one. -/
def afterBlanks? : List Char → Option (List Char)
  | [] => none
  | c :: rest => if isBlank c then some (stripStart rest) else none

/-- A class header starts here: `class`, a capitalised name, `<` and a superclass. -/
def startsFormulaClass (text : List Char) : Bool :=
  match (after? "class" (stripStart text)).bind afterBlanks? with
  | some (c :: rest) =>
    'A' ≤ c && c ≤ 'Z' &&
      match stripStart (rest.dropWhile isWord) with
      | '<' :: rest =>
        match stripStart rest with
        | [] => false
        | c :: _ => isWord c || c == ':'
      | _ => false
  | _ => false

/-- The word `DATA` starts here. -/
def startsDataWord (before : Option Char) (text : List Char) : Bool :=
  match after? "DATA" text with
  | some rest => atBoundary before text && !startsWord rest
  | none => false

/-- The word `DATA` comes before any comment sign. -/
def usesDataFrom (before : Option Char) : List Char → Bool
  | [] => false
  | c :: rest => startsDataWord before (c :: rest) || (c != '#' && usesDataFrom (some c) rest)

/-- A line `__END__` starts here. -/
def startsEndLine (text : List Char) : Bool :=
  match after? "__END__" text with
  | some [] => true
  | some (c :: _) => c == '\n'
  | none => false

/-- The terminator of the heredoc that opens here. -/
def heredocHere? (text : List Char) : Option (List Char) := do
  let rest ← after? "<<" text
  let rest :=
    match rest with
    | c :: tail => if c = '~' ∨ c = '-' then tail else rest
    | [] => rest
  let (mark, rest) :=
    match rest with
    | c :: tail => if isQuote c then (some c, tail) else (none, rest)
    | [] => (none, rest)
  let isInitial := fun c : Char => ('A' ≤ c ∧ c ≤ 'Z') ∨ c = '_'
  let name := rest.takeWhile fun c => isInitial c ∨ ('0' ≤ c ∧ c ≤ '9')
  let first ← name.head?
  guard (isInitial first)
  match mark with
  | none => pure name
  | some mark => if (rest.drop name.length).head? = some mark then pure name else none

/-- The terminator of the first heredoc that a line opens. -/
def heredoc? (line : List Char) : Option (List Char) :=
  firstMatch (fun _ rest => heredocHere? rest) none line

/-- A line starts after the character `before`. -/
def atLineStart (before : Option Char) : Bool :=
  before == none || before == some '\n'

namespace Marker

/-- The marker stands at the start of `text`, after the character `before`. -/
def standsAt (before : Option Char) (text : List Char) : Marker → Bool
  | formulaClass => atLineStart before && startsFormulaClass text
  | dataUse => atLineStart before && usesDataFrom before text
  | endLine => atLineStart before && startsEndLine text
  | heredoc => (heredocHere? text).isSome

/-- The marker stands somewhere in `text`. -/
def isIn (marker : Marker) (text : List Char) : Bool :=
  (firstMatch (fun before rest => if marker.standsAt before rest then some () else none)
    none text).isSome

end Marker

/-- The number of the first line with a property, counted from 1. -/
def lineWith? (p : List Char → Bool) (text : List Char) : Option Nat :=
  ((lines text).findIdx? p).map (· + 1)

/-- The text defines a formula class. -/
def isFormula (text : List Char) : Bool :=
  Marker.formulaClass.isIn text

/-- The script uses inline data. -/
def usesData (text : List Char) : Bool :=
  Marker.dataUse.isIn text

/-- The script has a section of inline data. -/
def hasEndLine (text : List Char) : Bool :=
  Marker.endLine.isIn text

/-- The last line is complete. -/
def endsWithLineFeed (text : List Char) : Bool :=
  text.getLast? == some '\n'

/-- The text before the inline data, without the blanks around it. -/
def withoutPatch (text : List Char) : List Char :=
  strip (upTo "\n__END__".toList text)

end TapAudit.Script
