import TapAudit.Text.Lines
import TapAudit.Text.Quoted

/-!
# Paths

A path is a spelling: the slashes in front and the components, without empty components and single
dots. Seen from a working directory it spells a location, the names from the root down, in which
steps upwards have been taken.
-/

namespace TapAudit

/-- The name of a file or directory. -/
abbrev Name := List Char

/-- A place in the file tree: the names from the root down. -/
abbrev Location := List Name

/-- A path as it was spelled. -/
structure Path where
  /-- The slashes in front: none, one, or exactly two. -/
  slashes : Nat
  /-- The components, steps upwards included. -/
  parts : List Name
  deriving DecidableEq, Repr

/-- Why a path leads to no location. -/
inductive PathFault where
  /-- No path of a file system holds a null character. -/
  | nullCharacter
  /-- The location is reached through a link that leads back to itself. -/
  | linkLoop (location : Location)
  deriving DecidableEq, Repr

namespace Path

open Text

/-- The component that steps upwards. -/
def up : Name := ['.', '.']

def ofText (text : List Char) : Path :=
  let slashes := (text.takeWhile (· == '/')).length
  { slashes := if slashes ≤ 2 then slashes else 1
    parts := (splitOn '/' text).filter fun part => !part.isEmpty && part != ['.'] }

def toText (p : Path) : List Char :=
  match List.replicate p.slashes '/' ++ joinWith ['/'] p.parts with
  | [] => ['.']
  | text => text

def toString (p : Path) : String :=
  String.ofList p.toText

/-- The last component, or the empty text. -/
def name (p : Path) : Name :=
  p.parts.getLast?.getD []

/-- The name without its extension. A dot at either end of the name starts none. -/
def stem (p : Path) : Name :=
  let extension := (p.name.reverse.takeWhile (· != '.')).length
  let front := p.name.length - extension - 1
  if 0 < front ∧ 0 < extension ∧ extension < p.name.length then p.name.take front else p.name

/-- The path of the directory that holds it. -/
def parent (p : Path) : Path :=
  { p with parts := p.parts.dropLast }

/-- The components, the slashes in front counting as the first. -/
def components (p : Path) : List Name :=
  if p.slashes = 0 then p.parts else List.replicate p.slashes '/' :: p.parts

/-- A path below another, unless it starts at the root itself. -/
def join (p q : Path) : Path :=
  if q.slashes = 0 then { p with parts := p.parts ++ q.parts } else q

/-- The path of what is found by `names` from a directory. -/
def below (directory : Path) (names : List Name) : Path :=
  { directory with parts := directory.parts ++ names }

def ofLocation (location : Location) : Path :=
  { slashes := 1, parts := location }

/-- Takes one component from a location. -/
def step (location : Location) (part : Name) : Location :=
  if part = up then location.dropLast else location ++ [part]

/-- The location of a path, seen from a working directory. -/
def locate (cwd : Location) (p : Path) : Location :=
  p.parts.foldl step (if p.slashes = 0 then cwd else [])

/-- No file system can hold the path. -/
def holdsNull (p : Path) : Bool :=
  p.parts.any (·.contains '\x00')

end Path

/-- The message for a path that leads to no location. -/
def PathFault.message : PathFault → String
  | .nullCharacter => "embedded null byte"
  | .linkLoop location =>
    s!"Symlink loop from {String.ofList (Text.quote (Path.ofLocation location).toText)}"

namespace Location

def toString (location : Location) : String :=
  (Path.ofLocation location).toString

/-- The names that lead from `base` to the location, if it lies there or below. -/
def relativeTo? (location base : Location) : Option (List Name) :=
  base.isPrefixOf? location

end Location

end TapAudit
