import TapAudit.Auditor
import TapAudit.Config

/-!
# Auditing a tap

Paths are expanded into the formula files they stand for, and each file is audited by itself. A file
that cannot be read gets a finding of its own and does not stop the audit of the others.
-/

namespace TapAudit

open History (Source)

/-- What an audit can see. -/
structure World where
  tree : FileTree
  /-- The working directory. -/
  cwd : Location
  git : History.Git

namespace Audit

/-- Why an audit gives no report. -/
inductive Fault where
  | path (fault : PathFault)
  | lookup (path : Path) (fault : LookupFault)
  | formula (fault : Snapshot.Fault)
  deriving DecidableEq, Repr

def Fault.message : Fault → String
  | path fault => fault.message
  | lookup place fault => fault.message place
  | formula fault => fault.message

/-! ## The files of an audit -/

def formulaEnding : List Char :=
  ".rb".toList

def isDirectory (w : World) (path : Path) : Except Fault Bool :=
  (w.tree.isDirectory w.cwd path).mapError (.lookup path)

def isFile (w : World) (path : Path) : Except Fault Bool :=
  (w.tree.isFile w.cwd path).mapError (.lookup path)

/-- Enters directories one after the other. -/
def enterAll (w : World) : List Path → Except Fault Unit
  | [] => .ok ()
  | path :: rest => do
    let _ ← isDirectory w path
    enterAll w rest

/-- The paths that lead to files. -/
def onlyFiles (w : World) : List Path → Except Fault (List Path)
  | [] => .ok []
  | path :: rest => do
    let kept ← isFile w path
    let others ← onlyFiles w rest
    pure (if kept then path :: others else others)

/-- The files below a directory, spelled from its path. All directories below it are entered. -/
def filesOf (w : World) (directory : Path) : Except Fault (List Path) :=
  match w.tree.lookup w.cwd directory with
  | .ok (location, _) => do
    enterAll w ((w.tree.directoriesBelow location).map directory.below)
    onlyFiles w ((w.tree.filesBelow location formulaEnding).map directory.below)
  | .error _ => .ok []

/-- The files that a path stands for. A directory that has a directory of formulae stands for the
files in that one. -/
def expand (w : World) (c : Config) (path : Path) : Except Fault (List Path) := do
  if ← isDirectory w path then
    let inner := path.join (Path.ofText c.formulaDir)
    filesOf w (if ← isDirectory w inner then inner else path)
  else pure [path]

/-- The files that several paths stand for. -/
def expandAll (w : World) (c : Config) : List Path → Except Fault (List Path)
  | [] => .ok []
  | path :: rest => do
    let files ← expand w c path
    let others ← expandAll w c rest
    pure (files ++ others)

/-- The paths without those that lead where an earlier one leads. -/
def distinct (w : World) (seen : List Location) : List Path → Except Fault (List Path)
  | [] => .ok []
  | path :: rest => do
    let location ← (w.tree.resolve w.cwd path).mapError .path
    if seen.contains location then distinct w seen rest
    else
      let others ← distinct w (location :: seen) rest
      pure (path :: others)

/-- The formula files that paths stand for, each of them once. -/
def collect (w : World) (c : Config) (paths : List Path) : Except Fault (List Path) := do
  distinct w [] (← expandAll w c paths)

/-! ## The report -/

/-- The findings of each file, in the order in which the files were audited. -/
abbrev Report := List (Path × List Finding)

/-- Why a file cannot be read. -/
def unreadableMessage (reason : String) : String :=
  s!"Cannot read formula: {reason}"

/-- The text of a formula file, with plain line ends, or why it cannot be read. -/
def readFormula (w : World) (path : Path) : Except String (List Char) :=
  match w.tree.read w.cwd path with
  | .error fault => .error (fault.message path)
  | .ok content =>
    match Text.Utf8.decode content with
    | .error fault => .error fault.message
    | .ok text => .ok (Text.normalizeLineEnds text)

def auditFile {σ : Type} (w : World) (strict : Bool) (source : Source σ) (state : σ)
    (path : Path) : Except Fault (List Finding × σ) :=
  match readFormula w path with
  | .error reason =>
    .ok
      ([{ level := .error, rule := unreadable, file := path,
          message := unreadableMessage reason }], state)
  | .ok text =>
    let auditor : Auditor σ := { formula := Formula.ofText text path, strict, source }
    (auditor.findings state .all).mapError .formula

/-- The findings of files, one after the other. -/
def auditFiles {σ : Type} (w : World) (strict : Bool) (source : Source σ) (state : σ) :
    List Path → Except Fault Report
  | [] => .ok []
  | path :: rest => do
    let (found, state) ← auditFile w strict source state path
    let others ← auditFiles w strict source state rest
    pure ((path, found) :: others)

def repositoryOf (w : World) (c : Config) : Except Fault History.Repository := do
  let root ←
    match c.repository with
    | none => pure none
    | some path => (some <$> w.tree.resolve w.cwd path).mapError .path
  pure
    { git := w.git, tree := w.tree, cwd := w.cwd, root, ref := c.gitRef
      timeout := c.gitTimeout }

/-- The report on the files that paths stand for. -/
def audit (w : World) (c : Config) (paths : List Path) : Except Fault Report := do
  if c.history then
    let repository ← repositoryOf w c
    let files ← collect w c paths
    let source := Source.remembering w.tree w.cwd (Source.ofRepository repository)
    auditFiles w c.strict source ([], []) files
  else
    let files ← collect w c paths
    auditFiles w c.strict (Source.fixed w.tree w.cwd []) () files

end Audit

end TapAudit
