import TapAudit.CommandLine.Command
import TapAudit.Report.Document
import TapAudit.Report.Explanation
import TapAudit.Report.Summary

/-!
# The program

What the program shows for a command line, and how it ends. Options are looked at in the order in
which they are given. Asking for help or for the version goes before all checks of values, and the
configuration is read before the words after the name of the command.
-/

namespace TapAudit.CommandLine

/-- How a run ends that ends well: the exit code, the output, and the lines for the reader beside
it. -/
structure Ending where
  exitCode : Nat
  output : List Char := []
  report : List (List Char) := []
  deriving DecidableEq, Repr

/-- Ends a run with lines of output. -/
def Ending.ofLines (exitCode : Nat) (lines : List (List Char)) : Ending where
  exitCode
  output := Text.unlines lines

/-- What a path has to lead to. -/
inductive Wanted where
  | file
  | directory
  | anything
  deriving DecidableEq, Repr

def Wanted.label : Wanted → String
  | .file => "File"
  | .directory => "Directory"
  | .anything => "Path"

/-- What is wrong with a value. -/
inductive ValueFault where
  | missing (wanted : Wanted) (text : List Char)
  | isFile (wanted : Wanted) (text : List Char)
  | isDirectory (wanted : Wanted) (text : List Char)
  | noLevel (text : List Char)
  deriving DecidableEq, Repr

def ValueFault.message : ValueFault → String
  | missing wanted text => s!"{wanted.label} {quoted text} does not exist."
  | isFile wanted text => s!"{wanted.label} {quoted text} is a file."
  | isDirectory wanted text => s!"{wanted.label} {quoted text} is a directory."
  | noLevel text => s!"{quoted text} is not one of 'error', 'warning'."
where
  quoted (text : List Char) : String := String.ofList (Text.quote text)

/-- Why a run does not end well. -/
inductive Fault where
  | options (fault : Options.Fault)
  | noCommand
  | unknownCommand (name : List Char)
  | noPaths
  | value (parameter : String) (fault : ValueFault)
  /-- The content of the configuration file is rejected. -/
  | config (path : Path) (fault : Config.Fault)
  /-- The configuration file breaks the run off. -/
  | setting (fault : Config.Fault)
  | path (fault : PathFault)
  | audit (fault : Audit.Fault)
  | markup (fault : Report.Markup.Fault)
  deriving DecidableEq, Repr

namespace Fault

def message : Fault → String
  | options fault => fault.message
  | noCommand => "Missing command."
  | unknownCommand name => s!"No such command {String.ofList (Text.quote name)}."
  | noPaths => "Pass at least one formula file or directory."
  | value parameter fault => s!"Invalid value for '{parameter}': {fault.message}"
  | config place fault => s!"Invalid config {place.toString}: {fault.message}"
  | setting fault => fault.message
  | path fault => fault.message
  | audit fault => fault.message
  | markup fault => fault.message

/-- The exit code for a fault: 2 if the words are to blame, else 1. -/
def exitCode : Fault → Nat
  | options _ | noCommand | unknownCommand _ | noPaths | value .. => 2
  | config .. | setting _ | path _ | audit _ | markup _ => 1

end Fault

/-! ## Values -/

/-- What a text given as a path leads to. A file is not reached through a slash at the end. -/
def entryAt? (w : World) (text : List Char) : Except Fault (Option Entry) :=
  if text.contains '\x00' then .error (.path .nullCharacter)
  else if text.isEmpty then .ok none
  else
    let last := (Text.splitOn '/' text).getLast?
    let asDirectory := last == some [] || last == some ['.']
    match w.tree.lookup w.cwd (Path.ofText text) with
    | .ok (_, .directory) => .ok (some .directory)
    | .ok (_, entry) => .ok (if asDirectory then none else some entry)
    | .error _ => .ok none

/-- Checks that a text given for a parameter leads to what is wanted. -/
def checkPath (w : World) (parameter : String) (wanted : Wanted) (text : List Char) :
    Except Fault Unit := do
  match wanted, ← entryAt? w text with
  | _, none => throw (.value parameter (.missing wanted text))
  | .directory, some (.file _) => throw (.value parameter (.isFile wanted text))
  | .file, some .directory => throw (.value parameter (.isDirectory wanted text))
  | _, some _ => pure ()

def readLevel (text : List Char) : Except Fault Report.FailOn :=
  if text = "error".toList then .ok .error
  else if text = "warning".toList then .ok .warning
  else .error (.value AuditOption.failOn.name (.noLevel text))

/-! ## Running an audit -/

/-- Audits the formulae that paths stand for and reports on them. -/
def runAudit (w : World) (c : Config) (failOn : Report.FailOn) (asJson : Bool)
    (paths : List Path) : Except Fault Ending := do
  let report ← (Audit.audit w c paths).mapError .audit
  if report.isEmpty then pure { exitCode := 0, report := [Report.noFiles.toList] }
  else
    let exitCode := Report.exitCode report failOn
    if asJson then
      pure { exitCode, output := (Report.Json.ofReport c.strict report).toText }
    else
      let lines ← (Report.summaryLines c.strict report).mapError .markup
      pure { exitCode, report := lines }

def runExplanation (rule : List Char) : Except Fault Ending := do
  let explanation ← (Report.explain rule).mapError .markup
  pure (Ending.ofLines explanation.exitCode explanation.lines)

/-! ## The command -/

/-- What the options say on strictness; the last one counts. -/
def strictness (given : Options.Given AuditOption) : Option Bool :=
  (given.options.filterMap fun (option, _) =>
    match option with
    | .strict => some true
    | .noStrict => some false
    | _ => none).getLast?

/-- Runs the command `audit` on the words after its name. -/
def runCommand (w : World) (c : Config) (words : List (List Char)) : Except Fault Ending := do
  let given ← (AuditOption.options.read words).mapError .options
  if given.has .help then return Ending.ofLines 0 auditHelp
  let failOn ← (given.value? .failOn).elim (pure .error) readLevel
  given.words.forM (checkPath w "[PATHS]..." .anything)
  match given.value? .explain with
  | some (c :: rule) => runExplanation (c :: rule)
  | _ =>
    if given.words.isEmpty then throw .noPaths
    let c := c.change
      { strict := strictness given
        history := if given.has .noHistory then some false else none }
    runAudit w c failOn (given.has .json) (given.words.map Path.ofText)

/-! ## The program -/

/-- The answer to the first option that asks for the version or for help. -/
def answer? (given : Options.Given ProgramOption) : Option Ending :=
  given.options.findSome? fun (option, _) =>
    match option with
    | .version => some (Ending.ofLines 0 versionLines)
    | .help => some (Ending.ofLines 0 programHelp)
    | _ => none

/-- Checks the values of the options of the program, in the order in which they are given. -/
def checkOptions (w : World) (given : Options.Given ProgramOption) : Except Fault Unit :=
  given.options.forM fun (option, _) =>
    match option, given.value? option with
    | .config, some text => checkPath w option.name .file text
    | .repo, some text => checkPath w option.name .directory text
    | _, _ => pure ()

/-- The configuration file: the one that is given, or the nearest one. -/
def configPath? (w : World) (given : Options.Given ProgramOption) : Option Path :=
  ((given.value? .config).map Path.ofText).or
    ((Config.nearest? w.tree w.cwd).map Path.ofLocation)

/-- The configuration of a run. -/
def readConfig (w : World) (given : Options.Given ProgramOption) : Except Fault Config := do
  let c ←
    match configPath? w given with
    | none => pure {}
    | some path =>
      (Config.load w.tree w.cwd path).mapError fun fault =>
        if fault.isRejection then .config path fault else .setting fault
  match given.value? .repo with
  | none => pure c
  | some text =>
    let location ← (w.tree.resolve w.cwd (Path.ofText text)).mapError .path
    pure (c.change { repository := some (Path.ofLocation location) })

/-- The first character is neither a letter nor a digit. -/
def startsWithSign (word : List Char) : Bool :=
  word.head?.any (!Text.isAlnum ·)

/-- Runs the program on the words of a command line. -/
def run (w : World) (words : List (List Char)) : Except Fault Ending := do
  if words.isEmpty then return Ending.ofLines 0 programHelp
  let given ← (ProgramOption.options.read words).mapError .options
  if let some ending := answer? given then return ending
  checkOptions w given
  match given.words with
  | [] => throw .noCommand
  | command :: rest =>
    if command = auditCommand then
      runCommand w (← readConfig w given) rest
    else if startsWithSign command then pure (Ending.ofLines 0 programHelp)
    else throw (.unknownCommand command)

end TapAudit.CommandLine
