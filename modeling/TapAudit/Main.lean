import TapAudit.CommandLine.Program

/-!
# Running the program

The files that a command line can name are taken into a file tree, the program is run on it, and
what it shows is printed. No other program can be called from here, so every call of `git` fails and
formulae count as untracked.
-/

namespace TapAudit.Disk

/-- How deep directories are followed. -/
def depthLimit : Nat := 64

/-- The location is reached through a link that leads back to itself. -/
def isLoop (location : Location) : IO Bool := do
  match ← ((← IO.currentDir) / location.toString).metadata.toBaseIO with
  | .error (.invalidArgument _ _ details) => return details == "too many symbolic links encountered"
  | _ => return false

/-- The tree with what is at a location and below it; the first argument bounds the depth. -/
def addBelow : Nat → Location → FileTree → IO FileTree
  | 0, _, tree => pure tree
  | depth + 1, location, tree => do
    let .ok place ← (IO.FS.realPath location.toString).toBaseIO
      | return if ← isLoop location then { tree with loops := location :: tree.loops } else tree
    if ← place.isDir then
      let mut tree := { tree with directories := location :: tree.directories }
      for entry in ← place.readDir do
        tree ← addBelow depth (location ++ [entry.fileName.toList]) tree
      return tree
    else
      let content ← IO.FS.readBinFile place
      return { tree with files := (location, content.toList) :: tree.files }

/-- The locations that the words of a command line can name: a word can be a path, or hold one after
an equals sign. -/
def named (cwd : Location) (words : List (List Char)) : List Location :=
  let values := words.map fun word => (word.dropWhile (· != '=')).drop 1
  ((words ++ values).filter (!·.isEmpty)).map fun text => (Path.ofText text).locate cwd

/-- The configuration files that can be found by walking up. -/
def configFiles (cwd : Location) : List Location :=
  (Config.upwards cwd).map (· ++ [Config.fileName])

/-- The tree that a command line can need. -/
def load (cwd : Location) (words : List (List Char)) : IO FileTree := do
  let words := words.filter (!·.contains '\x00')
  let mut tree : FileTree := { directories := [cwd] }
  for location in configFiles cwd ++ (named cwd words).eraseDups do
    tree ← addBelow depthLimit location tree
  return tree

/-- What a command line is run in. -/
def world (words : List (List Char)) : IO World := do
  let place ← IO.currentDir
  let cwd := (Path.ofText place.toString.toList).locate []
  let tree ← load cwd words
  let git : History.Git := fun _ _ => .failed "no program can be called".toList
  return { tree, cwd, git }

end TapAudit.Disk

/-- Runs the program on a command line. -/
def main (args : List String) : IO UInt32 := do
  let words := args.map String.toList
  match TapAudit.CommandLine.run (← TapAudit.Disk.world words) words with
  | .ok ending =>
    IO.print (String.ofList ending.output)
    for line in ending.report do
      IO.eprintln (String.ofList line)
    return ending.exitCode.toUInt32
  | .error fault =>
    IO.eprintln s!"Error: {fault.message}"
    return fault.exitCode.toUInt32
