import TapAudit.Path

/-!
# Findings

What an audit reports of a file.
-/

namespace TapAudit

/-- How much a finding matters. -/
inductive Level where
  | error
  | warning
  | info
  deriving DecidableEq, Repr

def Level.label : Level → String
  | .error => "error"
  | .warning => "warning"
  | .info => "info"

def Level.capitals : Level → String
  | .error => "ERROR"
  | .warning => "WARNING"
  | .info => "INFO"

structure Finding where
  level : Level
  /-- The rule it comes from. -/
  rule : String
  /-- The file that was audited. -/
  file : Path
  message : String
  /-- The line it points at, if it points at one. -/
  line : Option Int := none
  deriving DecidableEq, Repr

namespace Finding

/-- The line of a finding; the number zero counts as none. -/
def shownLine? (f : Finding) : Option Int :=
  f.line.filter (· != 0)

def toString (f : Finding) : String :=
  let line := (f.shownLine?.map fun n => s!":{n}").getD ""
  s!"{f.level.capitals}: [{f.rule}] {String.ofList f.file.name}{line} - {f.message}"

end Finding

end TapAudit
