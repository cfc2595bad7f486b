import TapAudit.Declaration
import TapAudit.Script.Marker

/-!
# Actions

What a statement does when a script is read. The forms are tried in a fixed order: `end`, a class
header, a method, a control structure, a `do` block, and last a call by its first word. Forms that
may hide in an argument are looked for in the code whose literals are empty.
-/

namespace TapAudit.Script

open Text

/-- What a statement does. -/
inductive Action where
  /-- Closes the innermost block. -/
  | close
  /-- Opens a class; it may be the header of a formula. -/
  | openClass (header : List Char) (isFormula : Bool)
  /-- Makes a declaration, which may open a block. -/
  | declare (kind : Kind) (argument : List Char) (opensBlock : Bool)
  /-- Names the head without saying where it is. -/
  | bareHead
  /-- Nothing that an audit looks at. -/
  | skip
  deriving DecidableEq, Repr

/-! ## Words -/

/-- Calls that declare an attribute. -/
def attributeKinds : List (String × Kind) :=
  [("desc", .desc), ("homepage", .homepage), ("url", .url), ("mirror", .mirror),
   ("sha1", .checksum), ("sha256", .checksum), ("revision", .revision),
   ("version_scheme", .versionScheme), ("head", .head), ("keg_only", .kegOnly),
   ("option", .option), ("depends_on", .dependsOn), ("conflicts_with", .conflictsWith),
   ("plist_options", .plist)]

/-- Calls that declare something when a block follows them. -/
def blockKinds : List (String × Kind) :=
  [("stable", .stableBlock), ("devel", .develBlock), ("head", .headBlock),
   ("bottle", .bottleBlock), ("resource", .resource), ("go_resource", .resource),
   ("test", .test)]

/-- Methods that declare something. -/
def methodKinds : List (String × Kind) :=
  [("install", .install), ("caveats", .caveats), ("plist", .plist)]

def kindOf? (table : List (String × Kind)) (word : List Char) : Option Kind :=
  (table.find? fun (name, _) => name.toList == word).map (·.2)

/-- Words that open a control structure at the start of a statement. -/
def controlWords : List String :=
  ["if", "unless", "case", "begin", "while", "until", "for", "module"]

/-- Words that open a control structure whose value is assigned. -/
def assignedControlWords : List String :=
  ["if", "unless", "case", "begin"]

/-! ## Forms -/

/-- The text starts with one of the words, as a whole word. -/
def startsWithWord (words : List String) (text : List Char) : Bool :=
  words.any fun word =>
    match after? word text with
    | some rest => !startsWord rest
    | none => false

/-- The name of a method that starts here. -/
def methodNameHere? : List Char → Option (List Char)
  | [] => none
  | c :: rest =>
    if c.isAlpha ∨ c = '_' then
      let mark :=
        match rest.dropWhile isWord with
        | [] => []
        | m :: _ => if m = '?' ∨ m = '!' ∨ m = '=' then [m] else []
      some (c :: (rest.takeWhile isWord ++ mark))
    else none

/-- The name of the method that a statement defines. A leading `self.` is no part of it. -/
def definedMethod? (statement : List Char) : Option (List Char) := do
  let rest ← (after? "def" statement).bind afterBlanks?
  ((after? "self." rest).bind methodNameHere?).or (methodNameHere? rest)

/-- A control structure starts the code, or its value is assigned. -/
def opensControl (code : List Char) : Bool :=
  startsWithWord controlWords code ||
    (firstMatch (fun _ rest =>
      match rest with
      | '=' :: rest =>
        if startsWithWord assignedControlWords (stripStart rest) then some () else none
      | _ => none) none code).isSome

/-- The code ends in the word `end` after a blank. -/
def closesInline (code : List Char) : Bool :=
  match code.reverse with
  | 'd' :: 'n' :: 'e' :: c :: _ => isBlank c
  | _ => false

/-- Nothing comes after `do` but block parameters. -/
def endsAfterDo (text : List Char) : Bool :=
  text.isEmpty ||
    match stripStart text with
    | '|' :: rest => rest.dropWhile (· != '|') == ['|']
    | _ => false

/-- The word `do` stands here and ends the statement. -/
def startsDo (before : Option Char) (text : List Char) : Bool :=
  match after? "do" text with
  | some rest => !endsWord before && endsAfterDo rest
  | none => false

/-- The text before the `do` that ends it, or all of it. -/
def beforeDo (before : Option Char) : List Char → List Char
  | [] => []
  | c :: rest => if startsDo before (c :: rest) then [] else c :: beforeDo (some c) rest

/-- The code ends in `do`, with or without block parameters. -/
def endsInDo (code : List Char) : Bool :=
  (firstMatch (fun before rest => if startsDo before rest then some () else none)
    none code).isSome

/-- The first word of a statement and the argument after it. -/
def call? : List Char → Option (List Char × List Char)
  | [] => none
  | c :: rest =>
    if ('a' ≤ c ∧ c ≤ 'z') ∨ c = '_' then
      let isNameChar := fun c : Char => c.isAlphanum || c == '_'
      let word := c :: rest.takeWhile isNameChar
      let rest := rest.dropWhile isNameChar
      let (word, rest) :=
        match rest with
        | m :: tail => if m = '?' ∨ m = '!' then (word ++ [m], tail) else (word, rest)
        | [] => (word, rest)
      match rest with
      | [] => some (word, [])
      | b :: tail => if isBlank b then some (word, strip tail) else none
    else none

/-! ## The action of a statement -/

/-- What a call does that no block follows. -/
def callAction (word argument : List Char) : Action :=
  if word = "version".toList then
    if argument.head?.any isQuote then .declare .version argument false else .skip
  else if word = "include".toList then
    if startsWith "Language::" argument then .declare .includeDirective argument false else .skip
  else if word = "bottle".toList then
    if startsWithWord [":unneeded", ":disable"] argument then
      .declare .bottleModifier argument false
    else .skip
  else if word = "head".toList ∧ argument = [] then .bareHead
  else
    match kindOf? attributeKinds word with
    | some kind => .declare kind argument false
    | none => .skip

/-- What a statement does. -/
def action (statement : List Char) : Action :=
  if startsWithWord ["end"] statement then .close
  else if startsWith "class " statement || statement == "class".toList then
    .openClass statement (startsFormulaClass statement)
  else
    match definedMethod? statement with
    | some name => .declare ((kindOf? methodKinds name).getD .otherMethod) name true
    | none =>
      let code := blankLiterals statement
      if opensControl code then .declare .otherBlock statement (!closesInline code)
      else
        let call := call? statement
        if endsInDo code then
          let word := (call.map (·.1)).getD []
          let argument := (call.map (·.2)).getD []
          .declare ((kindOf? blockKinds word).getD .otherBlock)
            (strip (beforeDo none argument)) true
        else
          match call with
          | some (word, argument) => callAction word argument
          | none => .skip

end TapAudit.Script
