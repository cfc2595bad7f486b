import TapAudit.Report.Markup
import TapAudit.Report.Tally

/-!
# The report for readers

The findings of each file under its name, a table with the summary, and a closing line for each
level that occurs.
-/

namespace TapAudit.Report

open Audit (Report)

/-- What is said of an audit without files. -/
def noFiles : String :=
  "No formula files found."

/-- The word in front of a finding. -/
def levelWord : Level → String
  | .error => "ERROR"
  | .warning => "WARN"
  | .info => "INFO"

def findingLines (f : Finding) : List (List Char) :=
  let place := (f.shownLine?.map fun n => s!" (line {n})").getD ""
  Markup.shownLines s!"  {levelWord f.level}: [{f.rule}]{place} {f.message}".toList

/-- The lines of a file: its name after an empty line, and its findings. -/
def fileLines (path : Path) (found : List Finding) : Except Markup.Fault (List (List Char)) :=
  if found.isEmpty then .ok []
  else do
    let heading ← Markup.render ('\n' :: (path.name ++ [':']))
    pure (Markup.shownLines heading ++ found.flatMap findingLines)

/-- The lines of all files. -/
def reportLines : Report → Except Markup.Fault (List (List Char))
  | [] => .ok []
  | (path, found) :: rest => do
    let first ← fileLines path found
    let others ← reportLines rest
    pure (first ++ others)

/-! ## The table -/

private def rule (left middle right : Char) (a b : Nat) : List Char :=
  left :: (List.replicate (a + 2) '─' ++ middle :: List.replicate (b + 2) '─' ++ [right])

private def row (a b : Nat) (name value : List Char) : List Char :=
  "│ ".toList ++ name ++ List.replicate (a - name.length) ' ' ++ " │ ".toList ++
    List.replicate (b - value.length) ' ' ++ value ++ " │".toList

def summaryTitle : List Char :=
  "Audit Summary".toList

/-- A table of two columns under its title, names to the left and values to the right. -/
def table (rows : List (List Char × List Char)) : List (List Char) :=
  let a := (rows.map (·.1.length)).foldl max 0
  let b := (rows.map (·.2.length)).foldl max 0
  let width := a + b + 7
  (List.replicate ((width - summaryTitle.length) / 2) ' ' ++ summaryTitle) ::
    rule '┌' '┬' '┐' a b ::
    (rows.map (fun (name, value) => row a b name value) ++ [rule '└' '┴' '┘' a b])

def summaryTable (strict : Bool) (report : Report) : List (List Char) :=
  table
    [("Formulae".toList, Text.decimal report.length),
     ("With problems".toList, Text.decimal (filesWithFindings report)),
     ("Mode".toList, (if strict then "strict" else "default").toList)]

/-- The closing lines: one for each level that occurs, and a good word if there is neither an error
nor a warning. -/
def closingLines (report : Report) : List (List Char) :=
  let errors := countOf report .error
  let warnings := countOf report .warning
  let infos := countOf report .info
  (if 0 < errors then [s!"❌ {errors} error(s)".toList] else []) ++
  (if 0 < warnings then [s!"⚠️  {warnings} warning(s)".toList] else []) ++
  (if 0 < infos then [s!"ℹ️  {infos} info(s)".toList] else []) ++
  (if errors = 0 ∧ warnings = 0 then ["✅ No errors or warnings".toList] else [])

def summaryLines (strict : Bool) (report : Report) : Except Markup.Fault (List (List Char)) := do
  let files ← reportLines report
  pure (files ++ [[]] ++ summaryTable strict report ++ [[]] ++ closingLines report)

end TapAudit.Report
