import TapAudit.Snapshot
import TapAudit.Version.Comparison

/-!
# Version invariants

What may change between the last commit of a formula and its present state. The version scheme stays
or grows by one. The stable version does not drop, unless the version scheme grows. The revision
stays or grows by one while the version is the same, and is gone after the version has grown.

The checked problems are those that are looked for in a run: there are none to be had if a number is
too long to be read in a version or to be written in a message.
-/

namespace TapAudit.Invariant

open Version (Comparison)

def schemeProblems (current historical : Snapshot) : List String :=
  let before := historical.effectiveScheme
  let now := current.effectiveScheme
  if now < before then [s!"version_scheme should not decrease (from {before} to {now})"]
  else if before + 1 < now then ["version_schemes should only increment by 1"]
  else []

/-- The text of a version in messages. -/
def versionText : Option (List Char) → String
  | some version => String.ofList version
  | none => "None"

def versionProblems (current historical : Snapshot) (delta : Comparison) : List String :=
  if delta = .less ∧ ¬ historical.effectiveScheme < current.effectiveScheme then
    [s!"stable version should not decrease (from {versionText historical.version} " ++
      s!"to {versionText current.version})"]
  else []

/-- The message for steps of the revision that are too big. -/
def revisionStep : String :=
  "revisions should only increment by 1"

def revisionProblems (current historical : Snapshot) (delta : Comparison) : List String :=
  let before := historical.effectiveRevision
  let now := current.effectiveRevision
  match delta with
  | .equal =>
    if now < before then [s!"revision should not decrease (from {before} to {now})"]
    else if before + 1 < now then [revisionStep]
    else []
  | .greater =>
    let removed := s!"'revision {now}' should be removed"
    if now = 0 then []
    else if now = before then [removed]
    else if 1 < now then [revisionStep, removed]
    else [removed]
  | _ => []

/-- The problems of a state of a formula, given the last committed one, with numbers of any length.
Without a committed state there are none. -/
def problems (current : Snapshot) : Option Snapshot → List String
  | none => []
  | some historical =>
    let delta := (Version.compare current.version historical.version).value
    schemeProblems current historical ++ versionProblems current historical delta ++
      revisionProblems current historical delta

/-- The integers that messages are made with. The message that asks to remove a revision is made in
any case when the version has grown. -/
def writtenNumbers (current historical : Snapshot) (delta : Comparison) : List Int :=
  let schemes :=
    if current.effectiveScheme < historical.effectiveScheme then
      [historical.effectiveScheme, current.effectiveScheme]
    else []
  let revisions :=
    match delta with
    | .equal =>
      if current.effectiveRevision < historical.effectiveRevision then
        [historical.effectiveRevision, current.effectiveRevision]
      else []
    | .greater => [current.effectiveRevision]
    | _ => []
  schemes ++ revisions

/-- The problems of a state of a formula, if its version can be compared with the committed one and
the messages can be written. -/
def checkedProblems (current : Snapshot) : Option Snapshot → Except Number.Fault (List String)
  | none => .ok []
  | some historical => do
    let delta ← Version.checkedCompare current.version historical.version
    Number.afterWriting (writtenNumbers current historical delta.value)
      (problems current (some historical))

end TapAudit.Invariant
