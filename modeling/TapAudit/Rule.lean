/-!
# Rules

The rules of an audit: their identifiers, and what is said when one is to be explained.
-/

namespace TapAudit

inductive Rule where
  | trailingNewline
  | dataEnd
  | componentOrder
  | mutualExclusion
  | stableContainment
  | missingTest
  | versionInvariant
  deriving DecidableEq, Repr

namespace Rule

def all : List Rule :=
  [trailingNewline, dataEnd, componentOrder, mutualExclusion, stableContainment, missingTest,
   versionInvariant]

def id : Rule → String
  | trailingNewline => "trailing-newline"
  | dataEnd => "data-end"
  | componentOrder => "component-order"
  | mutualExclusion => "mutual-exclusion"
  | stableContainment => "stable-containment"
  | missingTest => "missing-test"
  | versionInvariant => "version-invariant"

def title : Rule → String
  | trailingNewline => "Trailing Newline"
  | dataEnd => "DATA / END Pairing"
  | componentOrder => "Component Order"
  | mutualExclusion => "Mutual Exclusion"
  | stableContainment => "Stable Containment"
  | missingTest => "Missing Test"
  | versionInvariant => "Version Invariants"

/-- What a rule asks for. -/
def summary : Rule → String
  | trailingNewline => "Formula files must end with a newline."
  | dataEnd =>
    "An inline patch :DATA needs an __END__ section, and __END__ is only allowed when DATA is used."
  | componentOrder =>
    "Declarations follow the canonical order (desc, homepage, url, ... , test). " ++
      "Contents of stable/devel/head blocks are ordered the same way."
  | mutualExclusion =>
    "head with head do, or bottle :unneeded/:disable with bottle do, must not appear together."
  | stableContainment =>
    "When a stable do block exists, url/checksum/mirror belong inside it."
  | missingTest => "Every formula should have a test do block."
  | versionInvariant =>
    "Compared with the last commit: version_scheme and revision never decrease and step by at " ++
      "most 1, revision resets on a version bump, and the stable version only decreases " ++
      "together with a version_scheme increase."

/-- The rule is applied in strict mode only. -/
def isStrict : Rule → Bool
  | componentOrder | mutualExclusion | stableContainment | missingTest => true
  | trailingNewline | dataEnd | versionInvariant => false

def ofId? (id : String) : Option Rule :=
  all.find? (·.id == id)

end Rule

/-- The rule identifier of files that cannot be read. -/
def unreadable : String :=
  "unreadable"

end TapAudit
