import TapAudit.Report.Json
import TapAudit.Report.Tally

/-!
# The report as a JSON document
-/

namespace TapAudit.Report

open Audit (Report)

def Json.ofFinding (f : Finding) : Json :=
  .object
    [("level".toList, .string f.level.label.toList),
     ("rule".toList, .string f.rule.toList),
     ("message".toList, .string f.message.toList),
     ("line".toList, match f.line with
       | some n => .number n
       | none => .null)]

def Json.ofTally (report : Report) : Json :=
  .object
    [("formulae".toList, .number report.length),
     ("errors".toList, .number (countOf report .error)),
     ("warnings".toList, .number (countOf report .warning)),
     ("info".toList, .number (countOf report .info)),
     ("by_rule".toList,
      .object ((byRule report).map fun (rule, n) => (rule.toList, .number n)))]

/-- A report: the mode, the findings of each file, and their numbers. -/
def Json.ofReport (strict : Bool) (report : Report) : Json :=
  .object
    [("strict".toList, .boolean strict),
     ("files".toList,
      .object (report.map fun (path, found) => (path.toText, .array (found.map Json.ofFinding)))),
     ("summary".toList, Json.ofTally report)]

end TapAudit.Report
