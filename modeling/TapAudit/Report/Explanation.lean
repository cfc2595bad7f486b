import TapAudit.Report.Markup
import TapAudit.Rule
import TapAudit.Text.Lower

/-!
# Explaining a rule
-/

namespace TapAudit.Report

/-- What is shown of a rule, or of an identifier that no rule has, and the exit code. -/
structure Explanation where
  exitCode : Nat
  lines : List (List Char)
  deriving DecidableEq, Repr

/-- When a rule is applied. -/
def modeOf (rule : Rule) : String :=
  if rule.isStrict then "strict mode only" else "always active"

/-- The identifiers of all rules, in alphabetical order. -/
def sortedIds : List String :=
  (Rule.all.map Rule.id).mergeSort (· ≤ ·)

/-- Explains the rule with an identifier, written in any case and with blanks around it. -/
def explain (id : List Char) : Except Markup.Fault Explanation :=
  let id := Text.strip (Text.lower id)
  match Rule.ofId? (String.ofList id) with
  | some rule =>
    .ok
      { exitCode := 0
        lines :=
          [s!"{rule.title} ({rule.id})".toList, [], rule.summary.toList, [], (modeOf rule).toList] }
  | none => do
    let first ← Markup.render ("Unknown rule: ".toList ++ id)
    pure
      { exitCode := 1
        lines :=
          Markup.shownLines first ++ [[], "Known rules:".toList] ++
            sortedIds.map fun known => s!"  - {known}".toList }

end TapAudit.Report
