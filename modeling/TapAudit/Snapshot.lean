import TapAudit.Declaration
import TapAudit.Log
import TapAudit.Number.Limit
import TapAudit.Script.Walk
import TapAudit.Version.Download

/-!
# Snapshots

The three fields of a formula that are followed from one commit to the next: its revision, its
version scheme and its stable version. A field that is not declared is kept apart from zero, though
both count as zero when they are compared.

What declarations say is told for integers of any length. A snapshot that is read fails at the first
of them that is too long, also if a later declaration would replace it.
-/

namespace TapAudit

open Text

/-- The version fields of one state of a formula. -/
structure Snapshot where
  revision : Option Int := none
  versionScheme : Option Int := none
  version : Option (List Char) := none
  deriving DecidableEq, Repr

namespace Snapshot

/-- The revision, zero if it is not declared. -/
def effectiveRevision (s : Snapshot) : Int :=
  s.revision.getD 0

/-- The version scheme, zero if it is not declared. -/
def effectiveScheme (s : Snapshot) : Int :=
  s.versionScheme.getD 0

/-- The digits at the start of an argument, if they end with a word boundary. -/
def leadingDigits? (argument : List Char) : Option (List Char) :=
  match argument.takeWhile isDigit with
  | [] => none
  | digits => if startsWord (argument.dropWhile isDigit) then none else some digits

/-- The integer that these digits write, at any length. -/
def leadingInteger? (argument : List Char) : Option Int :=
  (leadingDigits? argument).map fun digits => numeral digits

def declaredInteger (d : Declaration) : Logged (Option Int) :=
  match leadingInteger? d.argument with
  | some n => pure (some n)
  | none => do
    Logged.debug s!"Ignoring non-integer `{d.kind.label}` on line {d.line}"
    pure none

/-- The declaration stands in the class body or in a stable block of the class body. -/
def isStable (all : List Declaration) (d : Declaration) : Bool :=
  match d.parent with
  | none => true
  | some i => (all[i]?).any fun p => p.kind == .stableBlock && p.isTopLevel

/-- The class body has a stable block. -/
def hasStableBlock (all : List Declaration) : Bool :=
  all.any fun d => d.kind == .stableBlock && d.isTopLevel

/-- The declaration tells of the stable download. In the class body it does so only if there is no
stable block. -/
def describesStable (all : List Declaration) (d : Declaration) : Bool :=
  isStable all d && !(hasStableBlock all && d.isTopLevel)

/-- What has been collected on the way through the declarations. -/
structure Fields where
  revision : Option Int := none
  versionScheme : Option Int := none
  /-- The first usable version that is declared. -/
  version : Option (List Char) := none
  /-- The argument of the first URL. -/
  url : Option (List Char) := none
  deriving DecidableEq, Repr

/-- Takes one declaration into account. -/
def Fields.add (all : List Declaration) (f : Fields) (d : Declaration) : Logged Fields :=
  match d.kind with
  | .revision =>
    if d.isTopLevel then do pure { f with revision := ← declaredInteger d } else pure f
  | .versionScheme =>
    if d.isTopLevel then do pure { f with versionScheme := ← declaredInteger d } else pure f
  | .url =>
    pure <| if describesStable all d && f.url.isNone then { f with url := some d.argument } else f
  | .version =>
    pure <|
      if describesStable all d && f.version.isNone then
        { f with version := Script.firstQuoted? d.argument }
      else f
  | _ => pure f

/-- Takes declarations into account one after the other. -/
def Fields.addAll (all : List Declaration) (f : Fields) : List Declaration → Logged Fields
  | [] => pure f
  | d :: rest => do
    let f ← f.add all d
    f.addAll all rest

/-- The version of a download: that of its tag, else that of its URL. -/
def downloadVersion (argument : List Char) :
    Except Url.Fault (Logged (Option (List Char))) :=
  match Version.ofTag? argument with
  | some version => .ok (pure (some version))
  | none =>
    match Script.firstQuoted? argument with
    | none | some [] => .ok (pure none)
    | some url => Version.ofUrl url

/-- The snapshot that declarations give. A declared version counts before the download. -/
def ofDeclarations (all : List Declaration) : Except Url.Fault (Logged Snapshot) :=
  let fields := Fields.addAll all {} all
  let f := fields.value
  let ofVersion := fun (version : Logged (Option (List Char))) => do
    let f ← fields
    let version ← version
    pure { revision := f.revision, versionScheme := f.versionScheme, version }
  match f.version, f.url with
  | some version, _ => .ok (ofVersion (pure (some version)))
  | none, none => .ok (ofVersion (pure none))
  | none, some argument => (downloadVersion argument).map ofVersion

/-- The snapshot of a script, if it defines a formula. -/
def ofScript (text : List Char) : Except Url.Fault (Logged (Option Snapshot)) :=
  if Script.isFormula text then
    let declarations := Script.declarations text
    (ofDeclarations declarations.value).map fun snapshot => do
      let _ ← declarations
      let snapshot ← snapshot
      pure (some snapshot)
  else
    .ok do
      Logged.debug "Text does not define a formula class; no field snapshot"
      pure none

/-! ## Reading -/

/-- The integer of the declaration is read: it is the revision or the version scheme of the class
body. -/
def isRead (d : Declaration) : Bool :=
  (d.kind == .revision || d.kind == .versionScheme) && d.isTopLevel

/-- The numerals that are read in declarations, one after the other. -/
def numerals (all : List Declaration) : List (List Char) :=
  (all.filter isRead).filterMap fun d => leadingDigits? d.argument

/-- Why a snapshot is not read. -/
inductive Fault where
  | number (fault : Number.Fault)
  | url (fault : Url.Fault)
  deriving DecidableEq, Repr

def Fault.message : Fault → String
  | number fault => fault.message
  | url fault => fault.message

/-- What is made of declarations whose integers are read one after the other. -/
def afterReading {α : Type} (numerals : List (List Char)) (result : Except Url.Fault α) :
    Except Fault α := do
  let result ← (Number.afterReading numerals result).mapError .number
  result.mapError .url

/-- The snapshot that declarations give, if their integers can be read. -/
def read (all : List Declaration) : Except Fault (Logged Snapshot) :=
  afterReading (numerals all) (ofDeclarations all)

/-- The numerals that are read in a script; none if it does not define a formula. -/
def scriptNumerals (text : List Char) : List (List Char) :=
  if Script.isFormula text then numerals (Script.declarations text).value else []

/-- The snapshot of a script, if its integers can be read. -/
def readScript (text : List Char) : Except Fault (Logged (Option Snapshot)) :=
  afterReading (scriptNumerals text) (ofScript text)

end Snapshot

end TapAudit
