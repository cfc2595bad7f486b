import TapAudit.CommandLine.Options

/-!
# Commands

The program has one command, `audit`. Options before its name belong to the program, and those after
it to the command.
-/

namespace TapAudit.CommandLine

inductive ProgramOption where
  | version
  | config
  | repo
  | verbose
  | help
  deriving DecidableEq, Repr

namespace ProgramOption

def name : ProgramOption → String
  | version => "--version"
  | config => "--config"
  | repo => "--repo"
  | verbose => "--verbose"
  | help => "--help"

def takesValue : ProgramOption → Bool
  | config | repo => true
  | version | verbose | help => false

/-- The options of the program; the name of the command ends them. -/
def options : Options ProgramOption where
  all := [version, config, repo, verbose, help]
  name
  takesValue
  areMixed := false

end ProgramOption

inductive AuditOption where
  | strict
  | noStrict
  | failOn
  | json
  | noHistory
  | explain
  | help
  deriving DecidableEq, Repr

namespace AuditOption

def name : AuditOption → String
  | strict => "--strict"
  | noStrict => "--no-strict"
  | failOn => "--fail-on"
  | json => "--json"
  | noHistory => "--no-history"
  | explain => "--explain"
  | help => "--help"

def takesValue : AuditOption → Bool
  | failOn | explain => true
  | strict | noStrict | json | noHistory | help => false

/-- The options of the command; they may stand anywhere among the paths. -/
def options : Options AuditOption where
  all := [strict, noStrict, failOn, json, noHistory, explain, help]
  name
  takesValue
  areMixed := true

end AuditOption

def auditCommand : List Char :=
  "audit".toList

/-- The line that tells the version of the program. -/
def versionLines : List (List Char) :=
  ["formaudit, version 0.1.0".toList]

def programHelp : List (List Char) :=
  ["Usage: formaudit [OPTIONS] COMMAND [ARGS]...",
   "",
   "  formaudit - Structural and version audits for formula definitions.",
   "",
   "  Checks declaration order and placement, and compares each formula with its",
   "  last committed revision to catch regressive revision/version changes.",
   "",
   "Options:",
   "  --version         Show the version and exit.",
   "  --config FILE     Path to a .formaudit.toml (defaults to the nearest one above",
   "                    the working directory)",
   "  --repo DIRECTORY  Git repository holding the formulae (defaults to the one",
   "                    containing each file)",
   "  --verbose         Log debug output to stderr",
   "  --help            Show this message and exit.",
   "",
   "Commands:",
   "  audit  Audit formula files."].map String.toList

def auditHelp : List (List Char) :=
  ["Usage: formaudit audit [OPTIONS] [PATHS]...",
   "",
   "  Audit formula files.",
   "",
   "  PATHS may be formula files, a Formula/ directory, or a tap root.",
   "",
   "  Examples:",
   "",
   "      formaudit audit Formula/foo.rb",
   "",
   "      formaudit audit --strict .",
   "",
   "      formaudit audit --explain version-invariant",
   "",
   "Options:",
   "  --strict / --no-strict     Enable ordering, placement and test-block checks",
   "  --fail-on [error|warning]  Exit with error if this level or higher found",
   "  --json                     Output results as JSON",
   "  --no-history               Skip the comparison with the last committed",
   "                             revision",
   "  --explain RULE_ID          Explain a specific rule and exit (e.g., --explain",
   "                             component-order)",
   "  --help                     Show this message and exit."].map String.toList

end TapAudit.CommandLine
