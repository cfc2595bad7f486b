import TapAudit.Finding
import TapAudit.History.Source
import TapAudit.Invariant
import TapAudit.Rule
import TapAudit.Structure.Order
import TapAudit.Structure.Placement

/-!
# Auditing one formula

The checks of a formula: those on the file, those on the class, and the comparison with the last
commit. Each check adds findings to those there are; in strict mode it may add more.
-/

namespace TapAudit

open History (Baseline Source)

/-- A formula file. -/
structure Formula where
  path : Path
  text : List Char
  declarations : List Declaration
  deriving DecidableEq, Repr

namespace Formula

def ofText (text : List Char) (path : Path) : Formula :=
  { path, text, declarations := (Script.declarations text).value }

def name (f : Formula) : Name :=
  f.path.stem

def has (f : Formula) (kind : Kind) : Bool :=
  f.declarations.any (·.kind == kind)

/-- The positions of the declarations in the class body. -/
def topLevel (f : Formula) : List Nat :=
  (List.range f.declarations.length).filter fun i =>
    (f.declarations[i]?).any (·.isTopLevel)

/-- The version fields of the formula, if the file defines one. -/
def snapshot (f : Formula) : Except Snapshot.Fault (Option Snapshot) :=
  if Script.isFormula f.text then
    (Snapshot.read f.declarations).map fun s => some s.value
  else .ok none

end Formula

/-- The checks of a formula. -/
inductive Check where
  | file
  | classBody
  | history
  /-- All three, in this order. -/
  | all
  deriving DecidableEq, Repr

/-- The audit of one formula. -/
structure Auditor (σ : Type) where
  formula : Formula
  strict : Bool
  source : Source σ

namespace Auditor

variable {σ : Type}

def finding (a : Auditor σ) (rule : Rule) (message : String) (line : Option Int := none)
    (level : Level := .error) : Finding :=
  { level, rule := rule.id, file := a.formula.path, message, line }

/-- The findings on the end of the file and on the inline data. -/
def textFindings (a : Auditor σ) : List Finding :=
  let text := a.formula.text
  let usesData := Script.usesData text
  let hasEnd := Script.hasEndLine text
  (if Script.endsWithLineFeed text then []
    else [a.finding .trailingNewline "File should end with a newline"]) ++
  (if usesData && !hasEnd then [a.finding .dataEnd "'DATA' was found, but no '__END__'"]
    else []) ++
  (if hasEnd && !usesData then
      [a.finding .dataEnd "'__END__' was found, but 'DATA' is not used"]
    else [])

/-- The findings on the order and the placement of declarations. -/
def structureFindings (a : Auditor σ) : List Finding :=
  let all := a.formula.declarations
  (Structure.violations all).map (fun v =>
    a.finding .componentOrder v.message (some v.later.line)) ++
  (Structure.containmentProblems all).map (a.finding .stableContainment ·) ++
  (Structure.exclusionProblems all).map (a.finding .mutualExclusion ·)

def fileFindings (a : Auditor σ) : List Finding :=
  a.textFindings ++ if a.strict then a.structureFindings else []

def classFindings (a : Auditor σ) : List Finding :=
  if a.strict then
    (Structure.testProblems a.formula.declarations).map
      (a.finding .missingTest · none .warning)
  else []

/-- The snapshot of a committed text. What is untracked or defines no formula has none. -/
def baselineSnapshot : Baseline → Except Snapshot.Fault (Option Snapshot)
  | .untracked => .ok none
  | .text text => (Snapshot.readScript text).map (·.value)

/-- The findings of the comparison with the last commit. A source that fails counts as having
nothing. -/
def historyFindings (a : Auditor σ) (state : σ) :
    Except Snapshot.Fault (List Finding × σ) := do
  match ← a.formula.snapshot with
  | none => pure ([], state)
  | some current =>
    let (answer, state) := a.source.lastCommitted a.formula.path state
    let baseline :=
      match answer with
      | .ok answer => answer.value
      | .error _ => .untracked
    let historical ← baselineSnapshot baseline
    let problems ← (Invariant.checkedProblems current historical).mapError .number
    pure (problems.map (a.finding .versionInvariant ·), state)

def findings (a : Auditor σ) (state : σ) : Check → Except Snapshot.Fault (List Finding × σ)
  | .file => .ok (a.fileFindings, state)
  | .classBody => .ok (a.classFindings, state)
  | .history => a.historyFindings state
  | .all => do
    let (found, state) ← a.historyFindings state
    pure (a.fileFindings ++ a.classFindings ++ found, state)

/-- What an audit has found so far, and the state of its source. -/
structure Progress (σ : Type) where
  results : List Finding := []
  source : σ

/-- Adds the findings of a check. -/
def run (a : Auditor σ) (p : Progress σ) (check : Check) : Except Snapshot.Fault (Progress σ) := do
  let (found, source) ← a.findings p.source check
  pure { results := p.results ++ found, source }

end Auditor

end TapAudit
