import TapAudit.Text.Digit
import TapAudit.Text.Letter
import TapAudit.Text.Search
import TapAudit.Text.Word

/-!
# The shape of versions in names

Two shapes of version are recognised. A bare version stands alone, as a directory or a tag does:
numbers with dots between them and perhaps a lettered end. A stem version follows a separator in the
name of an archive, and only a lettered tail may come after it.
-/

namespace TapAudit.Version

open Text

/-- A number that starts here, and the text after it. -/
def number? (text : List Char) : Option (List Char × List Char) :=
  match text.takeWhile isDigit with
  | [] => none
  | digits => some (digits, text.dropWhile isDigit)

/-- The text without a leading `v` in either case. -/
def dropV (text : List Char) : List Char :=
  (afterLetters? ['v'] text).getD text

/--
The numbers that go on here, each after a separator, and the text after them. The first argument
bounds how many are read; the length of the text is enough.
-/
def moreNumbers (isSeparator : Char → Bool) : Nat → List Char → List Char × List Char
  | 0, text => ([], text)
  | _ + 1, [] => ([], [])
  | fuel + 1, c :: rest =>
    match if isSeparator c then number? rest else none with
    | some (digits, rest) =>
      let (others, rest) := moreNumbers isSeparator fuel rest
      (c :: (digits ++ others), rest)
    | none => ([], c :: rest)

/-! ## Bare versions -/

/-- The lettered end of a bare version: letters after an optional separator, then digits. -/
def letteredEnd (text : List Char) : List Char :=
  let (separator, rest) :=
    match text with
    | c :: tail => if c = '-' ∨ c = '.' then ([c], tail) else ([], text)
    | [] => ([], text)
  match rest.takeWhile isLetter with
  | [] => []
  | letters => separator ++ letters ++ (rest.dropWhile isLetter).takeWhile isDigit

/-- The bare version that starts here, without its `v`, and the text after it. -/
def bareHere? (text : List Char) : Option (List Char × List Char) := do
  let (first, rest) ← number? (dropV text)
  match moreNumbers (· == '.') rest.length rest with
  | ([], _) => none
  | (others, rest) =>
    let ending := letteredEnd rest
    pure (first ++ others ++ ending, rest.drop ending.length)

def bare? (text : List Char) : Option (List Char) :=
  match bareHere? text with
  | some (version, []) => some version
  | _ => none

/-- The first bare version in a text. -/
def bareWithin? (text : List Char) : Option (List Char) :=
  firstMatch (fun _ rest => (bareHere? rest).map (·.1)) none text

/-! ## Stem versions -/

def isStemSeparator (c : Char) : Bool :=
  c == '-' || c == '_' || c == '.'

/-- Words that mark a release that is not the plain one, in the order in which they are tried. -/
def stageWords : List String :=
  ["alpha", "beta", "pre", "rc", "a", "b", "p"]

/-- Nothing follows, or a tail that starts with a letter. A last line feed counts as nothing. -/
def isTail (text : List Char) : Bool :=
  let atEnd := fun rest : List Char => rest == [] || rest == ['\n']
  atEnd text ||
    match text with
    | c :: l :: rest =>
      isStemSeparator c && isLetter l &&
        atEnd (rest.dropWhile fun c => isWord c || c == '.' || c == '+' || c == '-')
    | _ => false

/-- The stage of a release that is named here, and the text after it. -/
def stageHere? (text : List Char) : Option (List Char × List Char) := do
  let (separator, rest) :=
    match text with
    | c :: tail => if isStemSeparator c then ([c], tail) else ([], text)
    | [] => ([], text)
  let (word, rest) ← firstWord? stageWords rest
  pure (separator ++ word ++ rest.takeWhile isDigit, rest.dropWhile isDigit)

/-- The ways a version may end here, the longest reading first. -/
def endings (text : List Char) : List (List Char × List Char) :=
  let fromStage := fun (text : List Char) =>
    match stageHere? text with
    | some (stage, rest) => [(stage, rest), ([], text)]
    | none => [([], text)]
  match text with
  | c :: rest =>
    if isLetter c then
      (fromStage rest).map (fun (stage, rest) => (c :: stage, rest)) ++ fromStage text
    else fromStage text
  | [] => fromStage text

/-- The stem version after the separator that stands here. -/
def stemHere? : List Char → Option (List Char)
  | [] => none
  | c :: rest =>
    if isStemSeparator c then do
      let (first, rest) ← number? (dropV rest)
      let (others, rest) := moreNumbers (fun c => c == '.' || c == '_') rest.length rest
      let (ending, _) ← (endings rest).find? fun (_, rest) => isTail rest
      pure (first ++ others ++ ending)
    else none

/-- The first stem version in the name of an archive. -/
def stem? (name : List Char) : Option (List Char) :=
  firstMatch (fun _ rest => stemHere? rest) none name

end TapAudit.Version
