/-!
# Latin letters in either case

Words made of the letters `a` to `z` are recognised whatever the case they are written in. Four more
characters count as a case of one of these letters: the long s, the Kelvin sign, the capital I with
a dot and the small i without one.
-/

namespace TapAudit.Text

/-- The letters beyond `a` to `z` and `A` to `Z` that are a case of one of them. -/
def specialCases : List (Char × Char) :=
  [('\u017F', 's'), ('\u212A', 'k'), ('\u0130', 'i'), ('\u0131', 'i')]

/-- A letter from `a` to `z`, in either case. -/
def isLetter (c : Char) : Bool :=
  c.isAlpha || specialCases.any (·.1 == c)

/-- `c` is the small letter `small` in either case. -/
def isLetterCase (small c : Char) : Bool :=
  c.toLower == small || specialCases.contains (c, small)

/-- The text after a word of small letters, written here in either case. -/
def afterLetters? : List Char → List Char → Option (List Char)
  | [], text => some text
  | _ :: _, [] => none
  | small :: word, c :: text => if isLetterCase small c then afterLetters? word text else none

/-- The first of the words that is written here in either case, and the text after it. -/
def firstWord? (words : List String) (text : List Char) : Option (List Char × List Char) :=
  words.findSome? fun word =>
    (afterLetters? word.toList text).map fun rest => (text.take word.length, rest)

end TapAudit.Text
