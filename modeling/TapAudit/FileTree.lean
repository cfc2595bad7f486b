import TapAudit.Path

/-!
# File trees

A file tree is a list of files with their contents and of directories, each at its location.
Directories that a location leads through are there without being listed. A path is followed step by
step: each component but the last has to be a directory, and a step upwards is taken in the tree.

A link is seen as what it leads to, at the place of the link. What remains of links are those that
lead back to themselves: nothing is there or below, and a path to such a place cannot be resolved.
-/

namespace TapAudit

/-- A tree of files. -/
structure FileTree where
  files : List (Location × List UInt8) := []
  directories : List Location := []
  /-- The links that lead back to themselves. -/
  loops : List Location := []
  deriving Repr

/-- What is at a location. -/
inductive Entry where
  | file (content : List UInt8)
  | directory
  deriving DecidableEq, Repr

/-- Why nothing is found at a path. -/
inductive LookupFault where
  | missing
  | notDirectory
  /-- A directory where a file is read. -/
  | isDirectory
  | nameTooLong
  /-- A link that leads back to itself. -/
  | linkLoop
  /-- The path holds a null character. -/
  | nullCharacter
  deriving DecidableEq, Repr

/-- The message for a path where nothing is found. -/
def LookupFault.message (path : Path) : LookupFault → String
  | missing => s!"[Errno 2] No such file or directory: {String.ofList (Text.quote path.toText)}"
  | notDirectory => s!"[Errno 20] Not a directory: {String.ofList (Text.quote path.toText)}"
  | isDirectory => s!"[Errno 21] Is a directory: {String.ofList (Text.quote path.toText)}"
  | nameTooLong => s!"[Errno 36] File name too long: {String.ofList (Text.quote path.toText)}"
  | linkLoop =>
    s!"[Errno 40] Too many levels of symbolic links: {String.ofList (Text.quote path.toText)}"
  | nullCharacter => PathFault.message .nullCharacter

namespace FileTree

/-- A link that leads back to itself is at the location or on the way to it. -/
def leadsRound (tree : FileTree) (location : Location) : Bool :=
  tree.loops.any (·.isPrefixOf location)

/-- What is at a location, if anything is, links aside. -/
def entry? (tree : FileTree) (location : Location) : Option Entry :=
  match tree.files.find? (·.1 == location) with
  | some (_, content) => some (.file content)
  | none =>
    if location.isEmpty || (tree.directories ++ tree.loops).any location.isPrefixOf ||
        tree.files.any fun (file, _) => location.isPrefixOf file then
      some .directory
    else none

/-- The location that a path leads to, seen from a working directory. Nothing has to be there. -/
def resolve (tree : FileTree) (cwd : Location) (path : Path) : Except PathFault Location :=
  let location := path.locate cwd
  if path.holdsNull then .error .nullCharacter
  else if tree.leadsRound location then .error (.linkLoop location)
  else .ok location

/-- How many octets a text takes. -/
def octetCount (text : List Char) : Nat :=
  text.foldl (fun n c => n + c.utf8Size) 0

/-- The longest name that a directory holds, in octets. -/
def longestName : Nat := 255

/-- The longest path that can be followed, in octets. -/
def longestPath : Nat := 4095

/-- Follows components from a location. -/
def follow (tree : FileTree) (location : Location) : List Name → Except LookupFault Location
  | [] =>
    if tree.leadsRound location then .error .linkLoop
    else if (tree.entry? location).isSome then .ok location
    else .error .missing
  | part :: rest =>
    if tree.leadsRound location then .error .linkLoop
    else
      match tree.entry? location with
      | none => .error .missing
      | some (.file _) => .error .notDirectory
      | some .directory =>
        if longestName < octetCount part then .error .nameTooLong
        else tree.follow (Path.step location part) rest

/-- What a path leads to, seen from a working directory. -/
def lookup (tree : FileTree) (cwd : Location) (path : Path) :
    Except LookupFault (Location × Entry) := do
  if path.holdsNull then throw .nullCharacter
  if longestPath < octetCount path.toText then throw .nameTooLong
  let location ← tree.follow (if path.slashes = 0 then cwd else []) path.parts
  match tree.entry? location with
  | some entry => pure (location, entry)
  | none => throw .missing

/-- The path leads to a directory. Only names that are too long are an error. -/
def isDirectory (tree : FileTree) (cwd : Location) (path : Path) : Except LookupFault Bool :=
  match tree.lookup cwd path with
  | .ok (_, .directory) => .ok true
  | .error .nameTooLong => .error .nameTooLong
  | _ => .ok false

/-- The path leads to a file. Only names that are too long are an error. -/
def isFile (tree : FileTree) (cwd : Location) (path : Path) : Except LookupFault Bool :=
  match tree.lookup cwd path with
  | .ok (_, .file _) => .ok true
  | .error .nameTooLong => .error .nameTooLong
  | _ => .ok false

def isFileAt (tree : FileTree) (location : Location) : Bool :=
  tree.files.any (·.1 == location)

/-- The content of the file that a path leads to. -/
def read (tree : FileTree) (cwd : Location) (path : Path) : Except LookupFault (List UInt8) := do
  match ← tree.lookup cwd path with
  | (_, .file content) => pure content
  | (_, .directory) => throw .isDirectory

/-- Names in order, by their code points. -/
def nameLe (a b : List Name) : Bool :=
  (compare a b).isLE

/-- The files below a location whose names end in `ending`: the names that lead to them, sorted. -/
def filesBelow (tree : FileTree) (location : Location) (ending : List Char) : List (List Name) :=
  let below := tree.files.filterMap fun (file, _) =>
    match location.isPrefixOf? file with
    | some names => if ending.isSuffixOf (names.getLast?.getD []) then some names else none
    | none => none
  below.mergeSort nameLe

/-- The directories below a location: the names that lead to them, sorted. -/
def directoriesBelow (tree : FileTree) (location : Location) : List (List Name) :=
  let holding := tree.files.map (·.1.dropLast) ++ tree.directories ++ tree.loops.map (·.dropLast)
  let below := (holding.filterMap (location.isPrefixOf? ·)).flatMap fun names =>
    (List.range names.length).map fun n => names.take (n + 1)
  below.mergeSort nameLe

end FileTree

end TapAudit
