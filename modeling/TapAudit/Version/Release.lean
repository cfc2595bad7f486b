import TapAudit.Text.Blank
import TapAudit.Text.Letter
import TapAudit.Text.Lines
import TapAudit.Text.Lower
import TapAudit.Text.Search

/-!
# Release versions

The regular form of versions: an epoch, numbers with dots between them, and then, each of them
optional, a pre-release, a post-release, a development stage and a local label. Releases are ordered
by these parts in turn.
-/

namespace TapAudit.Version

open Text

/-- A named stage and its number, such as `rc1`. -/
structure Stage where
  name : List Char
  number : Nat
  deriving DecidableEq, Repr

/-- One part of a local label. -/
inductive LocalPart where
  | word (w : List Char)
  | number (n : Nat)
  deriving DecidableEq, Repr

/-- A version in regular form. -/
structure Release where
  epoch : Nat
  numbers : List Nat
  pre : Option Stage
  post : Option Stage
  dev : Option Stage
  label : Option (List LocalPart)
  deriving DecidableEq, Repr

/-! ## Reading -/

/-- The number that a run of plain digits writes. -/
def plainNumber (digits : List Char) : Nat :=
  digits.foldl (fun n c => 10 * n + (c.toNat - '0'.toNat)) 0

/-- A number in plain digits that starts here. -/
def plainNumber? (text : List Char) : Option (Nat × List Char) :=
  match text.takeWhile Char.isDigit with
  | [] => none
  | digits => some (plainNumber digits, text.dropWhile Char.isDigit)

private def isSeparator (c : Char) : Bool :=
  c == '-' || c == '_' || c == '.'

/-- The text without a separator at its start. -/
def dropSeparator : List Char → List Char
  | [] => []
  | c :: rest => if isSeparator c then rest else c :: rest

/-- The usual name of a stage, where it has several. -/
def usualName (name : List Char) : List Char :=
  if name = "alpha".toList then "a".toList
  else if name = "beta".toList then "b".toList
  else if ["c", "pre", "preview"].any (·.toList == name) then "rc".toList
  else if ["rev", "r"].any (·.toList == name) then "post".toList
  else name

/-- A stage with one of the given names that starts here. Its number may be left out. -/
def stage? (names : List String) (text : List Char) : Option (Stage × List Char) := do
  let (name, rest) ← firstWord? names (dropSeparator text)
  let name := usualName (lower name)
  let rest := dropSeparator rest
  match plainNumber? rest with
  | some (number, rest) => pure (⟨name, number⟩, rest)
  | none => pure (⟨name, 0⟩, rest)

/-- A post-release, which may also be a number after a hyphen. -/
def postStage? (text : List Char) : Option (Stage × List Char) :=
  let short : Option (Stage × List Char) :=
    match text with
    | '-' :: rest =>
      (plainNumber? rest).map fun (number, rest) => (⟨"post".toList, number⟩, rest)
    | _ => none
  short.or (stage? ["post", "rev", "r"] text)

def optionalStage (read : List Char → Option (Stage × List Char)) (text : List Char) :
    Option Stage × List Char :=
  match read text with
  | some (stage, rest) => (some stage, rest)
  | none => (none, text)

/-- The numbers that go on after a dot. The first argument bounds how many are read. -/
def dottedNumbers : Nat → List Char → List Nat × List Char
  | 0, text => ([], text)
  | fuel + 1, text =>
    match text with
    | '.' :: rest =>
      match plainNumber? rest with
      | some (n, rest) =>
        let (others, rest) := dottedNumbers fuel rest
        (n :: others, rest)
      | none => ([], text)
    | _ => ([], text)

private def isLabelChar (c : Char) : Bool :=
  isLetter c || c.isDigit

/-- A part of a local label: a number if it has digits alone. -/
def LocalPart.ofText (text : List Char) : LocalPart :=
  if text.all Char.isDigit then .number (plainNumber text) else .word (lower text)

/-- The parts of the local label after a plus sign, and the text after it. -/
def labelParts? : List Char → Option (List (List Char) × List Char)
  | '+' :: rest =>
    let text := rest.takeWhile fun c => isLabelChar c || isSeparator c
    let parts := splitOn '.' (text.map fun c => if isSeparator c then '.' else c)
    -- A separator at the end belongs to no label.
    if parts.any (·.isEmpty) then none
    else some (parts, rest.drop text.length)
  | _ => none

def label? (text : List Char) : Option (List LocalPart × List Char) :=
  (labelParts? text).map fun (parts, rest) => (parts.map LocalPart.ofText, rest)

def epochHere (text : List Char) : Nat × List Char :=
  match plainNumber? text with
  | some (n, '!' :: rest) => (n, rest)
  | _ => (0, text)

/-- Reads a version in regular form, blanks around it ignored. -/
def Release.ofText? (text : List Char) : Option Release := do
  let text := stripStart text
  let (epoch, rest) := epochHere ((afterLetters? ['v'] text).getD text)
  let (first, rest) ← plainNumber? rest
  let (others, rest) := dottedNumbers rest.length rest
  let (pre, rest) :=
    optionalStage (stage? ["alpha", "a", "beta", "b", "preview", "pre", "c", "rc"]) rest
  let (post, rest) := optionalStage postStage? rest
  let (dev, rest) := optionalStage (stage? ["dev"]) rest
  let (label, rest) :=
    match label? rest with
    | some (label, rest) => (some label, rest)
    | none => (none, rest)
  if rest.all isBlank then
    pure { epoch, numbers := first :: others, pre, post, dev, label }
  else none

/-! ## Order -/

/-- Where a part stands among the parts of its kind: before all stages, at a stage, or after all. -/
abbrev Place := Nat × List Char × Nat

/-- Before every stage. -/
def Place.first : Place := (0, [], 0)

def Place.at (stage : Stage) : Place := (1, stage.name, stage.number)

/-- After every stage. -/
def Place.last : Place := (2, [], 0)

def Place.compare (a b : Place) : Ordering :=
  (Ord.compare a.1 b.1).then ((Ord.compare a.2.1 b.2.1).then (Ord.compare a.2.2 b.2.2))

namespace Release

/-- The numbers without the zeros at the end, which make no difference. -/
def significant (r : Release) : List Nat :=
  (r.numbers.reverse.dropWhile (· == 0)).reverse

/-- A version without a pre-release comes after its pre-releases, but a development stage of it
comes before them. -/
def prePlace (r : Release) : Place :=
  match r.pre with
  | some stage => .at stage
  | none => if r.post.isNone && r.dev.isSome then .first else .last

/-- A version without a post-release comes before its post-releases. -/
def postPlace (r : Release) : Place :=
  match r.post with
  | some stage => .at stage
  | none => .first

/-- A version comes after its development stages. -/
def devPlace (r : Release) : Place :=
  match r.dev with
  | some stage => .at stage
  | none => .last

end Release

/-- Numbers of a label come after words. -/
def LocalPart.place : LocalPart → Place
  | .word w => (0, w, 0)
  | .number n => (1, [], n)

/-- Labels are ordered part by part; a version without a label comes first. -/
def compareLabels : Option (List LocalPart) → Option (List LocalPart) → Ordering
  | none, none => .eq
  | none, some _ => .lt
  | some _, none => .gt
  | some a, some b => List.compareLex Place.compare (a.map LocalPart.place) (b.map LocalPart.place)

def Release.compare (a b : Release) : Ordering :=
  (Ord.compare a.epoch b.epoch).then <|
  (Ord.compare a.significant b.significant).then <|
  (a.prePlace.compare b.prePlace).then <|
  (a.postPlace.compare b.postPlace).then <|
  (a.devPlace.compare b.devPlace).then <|
  compareLabels a.label b.label

end TapAudit.Version
