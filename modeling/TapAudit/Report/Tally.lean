import TapAudit.Audit

/-!
# Tallies

How many findings of each level and of each rule a report has.
-/

namespace TapAudit.Report

open Audit (Report)

def findings (report : Report) : List Finding :=
  report.flatMap (·.2)

/-- The number of findings of a level. -/
def countOf (report : Report) (level : Level) : Nat :=
  (findings report).countP (·.level == level)

/-- The number of files that have findings. -/
def filesWithFindings (report : Report) : Nat :=
  report.countP fun (_, found) => !found.isEmpty

/-- Counts a rule once more; a new one is put at the end. -/
def countRule (rule : String) : List (String × Nat) → List (String × Nat)
  | [] => [(rule, 1)]
  | (name, n) :: rest =>
    if name = rule then (name, n + 1) :: rest else (name, n) :: countRule rule rest

/-- The rules that occur, in the order of their first findings, with the number of findings. -/
def byRule (report : Report) : List (String × Nat) :=
  (findings report).foldl (fun counts f => countRule f.rule counts) []

/-- The level from which on findings make an audit fail. -/
inductive FailOn where
  | error
  | warning
  deriving DecidableEq, Repr

/-- The exit code of an audit: 1 if it fails, else 0. -/
def exitCode (report : Report) (failOn : FailOn) : Nat :=
  let hasErrors := 0 < countOf report .error
  match failOn with
  | .error => if hasErrors then 1 else 0
  | .warning => if hasErrors || 0 < countOf report .warning then 1 else 0

end TapAudit.Report
