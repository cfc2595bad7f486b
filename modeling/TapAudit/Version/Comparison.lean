import TapAudit.Log
import TapAudit.Number.Limit
import TapAudit.Text.Quoted
import TapAudit.Version.Release
import TapAudit.Version.Segments

/-!
# Comparing versions

Two versions in regular form are compared as releases. As soon as one of them is not, both are
compared by their segments, provided that both start with a number. Numbers count at any length; the
checked comparisons are those that are run, and they fail at the first number that is too long to be
read.
-/

namespace TapAudit.Version

/-- How a version stands to another one. -/
inductive Comparison where
  | less
  | equal
  | greater
  | incomparable
  deriving DecidableEq, Repr

namespace Comparison

def label : Comparison → String
  | less => "less"
  | equal => "equal"
  | greater => "greater"
  | incomparable => "incomparable"

def ofOrdering : Ordering → Comparison
  | .lt => less
  | .eq => equal
  | .gt => greater

end Comparison

/-- Compares two versions by their segments. -/
def compareBySegments (current historical : List Char) : Logged Comparison :=
  let a := segments current
  let b := segments historical
  if startsWithNumber a && startsWithNumber b then
    pure (.ofOrdering (compareSegments a b))
  else do
    let quoted := fun text => String.ofList (Text.quote text)
    Logged.warning
      s!"Cannot order versions {quoted current} and {quoted historical}; version rules skipped"
    pure .incomparable

/-- Compares two versions, either of which may be missing. -/
def compare : Option (List Char) → Option (List Char) → Logged Comparison
  | some current, some historical =>
    if current = historical then pure .equal
    else
      match Release.ofText? current, Release.ofText? historical with
      | some a, some b => pure (.ofOrdering (a.compare b))
      | _, _ => compareBySegments current historical
  | _, _ => pure .incomparable

/-! ## The numbers that are read -/

/-- What is read as a number in a version in regular form: the runs of digits in front of the label,
and the parts of the label that have digits alone. -/
def releaseNumerals (version : List Char) : List (List Char) :=
  let front := version.takeWhile (· != '+')
  let parts := ((labelParts? (version.dropWhile (· != '+'))).map (·.1)).getD []
  numerals front ++ parts.filter (·.all Char.isDigit)

/-- The numerals that are read to compare two versions by their segments, in this order. -/
def segmentNumerals (current historical : List Char) : List (List Char) :=
  numerals current ++ numerals historical

/-- The numerals that are read to compare two versions, in this order. The historical version is
looked at only when the current one has been read, and a version that is the same is not read. -/
def comparedNumerals : Option (List Char) → Option (List Char) → List (List Char)
  | some current, some historical =>
    if current = historical then []
    else
      match Release.ofText? current, Release.ofText? historical with
      | some _, some _ => releaseNumerals current ++ releaseNumerals historical
      | some _, none => releaseNumerals current ++ segmentNumerals current historical
      | none, _ => segmentNumerals current historical
  | _, _ => []

/-- Compares two versions by their segments, if their numbers can be read. -/
def checkedCompareBySegments (current historical : List Char) :
    Except Number.Fault (Logged Comparison) :=
  Number.afterReading (segmentNumerals current historical) (compareBySegments current historical)

/-- Compares two versions, if their numbers can be read. -/
def checkedCompare (current historical : Option (List Char)) :
    Except Number.Fault (Logged Comparison) :=
  Number.afterReading (comparedNumerals current historical) (compare current historical)

end TapAudit.Version
