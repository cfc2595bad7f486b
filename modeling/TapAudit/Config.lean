import TapAudit.FileTree
import TapAudit.History.Git
import TapAudit.Number.Literal
import TapAudit.Text.Blank
import TapAudit.Text.Utf8
import TapAudit.Toml.Document

/-!
# Configuration

The settings of an audit, from the table `audit` of a configuration file. The nearest such file is
found by walking up from a directory.
-/

namespace TapAudit

open History (Seconds)

/-- The settings of an audit. -/
structure Config where
  /-- Order, placement and the test block are checked. -/
  strict : Bool := false
  /-- The repository that holds the formulae; none if it has to be asked for. -/
  repository : Option Path := none
  /-- The directory of a tap that holds the formulae. -/
  formulaDir : List Char := "Formula".toList
  /-- The commit to compare with. -/
  gitRef : List Char := "HEAD".toList
  /-- How long a call of `git` may take. -/
  gitTimeout : Seconds := .fraction (.ofInt 10)
  /-- Formulae are compared with the last commit. -/
  history : Bool := true
  deriving DecidableEq, Repr

namespace Config

def fileName : Name :=
  ".formaudit.toml".toList

/-! ## Changes -/

/-- Settings that replace those of a configuration. -/
structure Changes where
  strict : Option Bool := none
  repository : Option Path := none
  formulaDir : Option (List Char) := none
  gitRef : Option (List Char) := none
  gitTimeout : Option Seconds := none
  history : Option Bool := none
  deriving DecidableEq, Repr

def change (c : Config) (changes : Changes) : Config where
  strict := changes.strict.getD c.strict
  repository := changes.repository.or c.repository
  formulaDir := changes.formulaDir.getD c.formulaDir
  gitRef := changes.gitRef.getD c.gitRef
  gitTimeout := changes.gitTimeout.getD c.gitTimeout
  history := changes.history.getD c.history

/-! ## Reading -/

/-- Why a configuration file is rejected. -/
inductive Fault where
  | unreadable (path : Path) (fault : LookupFault)
  | encoding (fault : Text.Utf8.Fault)
  | format (fault : Toml.Fault)
  /-- An integer cannot be read, or it cannot be written where it is taken as a text. -/
  | number (fault : Number.Fault)
  | strictNotBoolean
  | historyNotBoolean
  | repositoryNotText
  | repositoryPath (fault : PathFault)
  | timeoutNotPositive
  /-- The time limit is a text that writes no number. -/
  | timeoutText (text : List Char)
  /-- The time limit is of a kind that has no number. -/
  | timeoutKind (kind : String)
  | timeoutTooLarge
  deriving DecidableEq, Repr

def Fault.message : Fault → String
  | unreadable path fault => fault.message path
  | encoding fault => fault.message
  | format fault => fault.message
  | number fault => fault.message
  | strictNotBoolean => "audit.strict must be a boolean"
  | historyNotBoolean => "audit.history must be a boolean"
  | repositoryNotText => "audit.repository must be a non-empty string"
  | repositoryPath fault => fault.message
  | timeoutNotPositive => "audit.git_timeout must be positive"
  | timeoutText text => s!"could not convert string to float: {String.ofList (Text.quote text)}"
  | timeoutKind kind => s!"float() argument must be a string or a real number, not '{kind}'"
  | timeoutTooLarge => "int too large to convert to float"

/-- The content of the file is rejected. A file that cannot be read has none, and a time limit that
is not a number of the machine or a repository behind a loop of links is no matter of content. -/
def Fault.isRejection : Fault → Bool
  | unreadable .. | repositoryPath (.linkLoop _) | timeoutKind _ | timeoutTooLarge => false
  | _ => true

/-- Why the text of a file is rejected. A long number is noticed without its place. -/
def Fault.ofFormat (fault : Toml.Fault) : Fault :=
  match fault.problem with
  | .number fault => .number fault
  | _ => .format fault

/-- The entries of the table `audit`; anything else under that name counts as an empty table. -/
def auditEntries (entries : Toml.Entries) : Toml.Entries :=
  match entries.find? "audit".toList with
  | some (.table inner) => inner
  | _ => []

def booleanSetting (entries : Toml.Entries) (name : String) (usual : Bool) (fault : Fault) :
    Except Fault Bool :=
  match entries.find? name.toList with
  | none => .ok usual
  | some (.boolean b) => .ok b
  | some _ => .error fault

/-- A setting that is taken as a text, whatever it is. A blank one counts as not given. -/
def textSetting (entries : Toml.Entries) (name : String) (usual : List Char) :
    Except Fault (List Char) :=
  match entries.find? name.toList with
  | none => .ok usual
  | some value =>
    if value.hasLongInteger then .error (.number .writing)
    else
      match Text.strip value.text with
      | [] => .ok usual
      | text => .ok text

/-- The repository, seen from the directory of the configuration file. -/
def repositorySetting (tree : FileTree) (cwd : Location) (directory : Path)
    (entries : Toml.Entries) : Except Fault (Option Path) :=
  match entries.find? "repository".toList with
  | none => .ok none
  | some (.string text) =>
    match Text.strip text with
    | [] => .error .repositoryNotText
    | text =>
      match tree.resolve cwd (directory.join (Path.ofText text)) with
      | .ok location => .ok (some (Path.ofLocation location))
      | .error fault => .error (.repositoryPath fault)
  | some _ => .error .repositoryNotText

def toNumber : Toml.Value → Except Fault Number.Binary64
  | .float x => .ok x
  | .boolean b => .ok (.ofInt (if b then 1 else 0))
  | .integer n =>
    match Number.Binary64.ofInt n with
    | .infinite _ => .error .timeoutTooLarge
    | x => .ok x
  | .string text =>
    match Number.Binary64.ofText? text with
    | some x => .ok x
    | none => .error (.timeoutText text)
  | .date _ => .error (.timeoutKind "datetime.date")
  | .time _ => .error (.timeoutKind "datetime.time")
  | .moment .. => .error (.timeoutKind "datetime.datetime")
  | .array _ => .error (.timeoutKind "list")
  | .table _ => .error (.timeoutKind "dict")

/-- The time limit, which must not be zero or less. -/
def timeoutSetting (entries : Toml.Entries) : Except Fault Seconds := do
  let x ←
    match entries.find? "git_timeout".toList with
    | none => .ok (.ofInt 10)
    | some value => toNumber value
  if x.isNonPositive then throw .timeoutNotPositive
  pure (.fraction x)

/-- The configuration that the entries of a file give. -/
def ofEntries (tree : FileTree) (cwd : Location) (directory : Path) (entries : Toml.Entries) :
    Except Fault Config := do
  let entries := auditEntries entries
  let strict ← booleanSetting entries "strict" false .strictNotBoolean
  let history ← booleanSetting entries "history" true .historyNotBoolean
  let repository ← repositorySetting tree cwd directory entries
  let formulaDir ← textSetting entries "formula_dir" "Formula".toList
  let gitRef ← textSetting entries "git_ref" "HEAD".toList
  let gitTimeout ← timeoutSetting entries
  pure { strict, repository, formulaDir, gitRef, gitTimeout, history }

/-- The configuration in the content of a file. -/
def ofContent (tree : FileTree) (cwd : Location) (path : Path) (content : List UInt8) :
    Except Fault Config := do
  let text ← (Text.Utf8.decode content).mapError .encoding
  let entries ← (Toml.read (Text.normalizeLineEnds text)).mapError .ofFormat
  ofEntries tree cwd path.parent entries

def load (tree : FileTree) (cwd : Location) (path : Path) : Except Fault Config := do
  let content ← (tree.read cwd path).mapError (.unreadable path)
  ofContent tree cwd path content

/-! ## Finding -/

/-- The directories from a location up to the root. -/
def upwards (location : Location) : List Location :=
  (List.range (location.length + 1)).map fun n => location.take (location.length - n)

/-- The nearest configuration file, walking up from a location. -/
def nearest? (tree : FileTree) (start : Location) : Option Location :=
  ((upwards start).map (· ++ [fileName])).find? tree.isFileAt

end Config

end TapAudit
