import TapAudit.Log
import TapAudit.Path
import TapAudit.Script.Literal
import TapAudit.Text.Blank
import TapAudit.Text.Lower
import TapAudit.Url
import TapAudit.Version.Shape

/-!
# Versions of downloads

The version of a download is read off its tag or its URL. In a URL the name of the archive counts
first, and after it the directories, from the innermost one outwards.
-/

namespace TapAudit.Version

open Text

/-- Extensions of archives, longer ones before those they end in. -/
def archiveExtensions : List String :=
  [".tar.bz2", ".tar.gz", ".tar.lz", ".tar.xz", ".tar.zst", ".tbz2", ".tar", ".tbz", ".tgz", ".txz",
   ".zip", ".bz2", ".gem", ".jar", ".dmg", ".pkg", ".rar", ".7z", ".gz", ".xz"]

/-- A file name without the extension of an archive, in whatever case it is written. -/
def withoutArchiveExtension (name : List Char) : List Char :=
  match archiveExtensions.find? fun ext => ext.toList.isSuffixOf (lower name) with
  | some ext => name.take (name.length - ext.length)
  | none => name

/-- A version with underscores for dots is given its dots back. -/
def restoreDots (version : List Char) : List Char :=
  if version.contains '.' then version else version.map fun c => if c = '_' then '.' else c

/-- The value of a tag option that starts here, such as `tag: "v1.2"`. -/
def tagHere? (before : Option Char) (text : List Char) : Option (List Char) := do
  let rest ←
    ((after? ":tag" text).bind fun rest => after? "=>" (stripStart rest)).or
      (if endsWord before then none else after? "tag:" text)
  Script.quotedHere? (stripStart rest)

/-- The version in the tag of a URL declaration. -/
def ofTag? (argument : List Char) : Option (List Char) :=
  (firstMatch tagHere? none argument).bind bareWithin?

/-- The version in a file path: that of the archive, or of the nearest directory that is one. -/
def ofPath? (path : Path) : Option (List Char) :=
  let stem := withoutArchiveExtension path.name
  let inName := (bare? stem).or ((stem? stem).map restoreDots)
  inName.or (path.components.dropLast.reverse.findSome? bare?)

def ofUrl (url : List Char) : Except Url.Fault (Logged (Option (List Char))) := do
  let path ← Url.path url
  pure <|
    match ofPath? (Path.ofText (Url.unescape path)) with
    | some version => pure (some version)
    | none => do
      Logged.debug s!"No version found in URL {String.ofList url}"
      pure none

end TapAudit.Version
