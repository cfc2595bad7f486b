import TapAudit.Declaration

/-!
# The placement of declarations

Rules on what the class body may hold: pairs that exclude each other, downloads that belong into a
stable block, and the test block that should be there.
-/

namespace TapAudit.Structure

def inClassBody (all : List Declaration) (kind : Kind) : Bool :=
  all.any fun d => d.isTopLevel && d.kind == kind

/-- Two kinds that exclude each other in the class body. -/
structure Exclusion where
  first : Kind
  second : Kind
  message : String
  deriving DecidableEq, Repr

/-- The kinds that exclude each other. -/
def exclusions : List Exclusion :=
  [⟨.head, .headBlock, "Should not have both `head` and `head do`"⟩,
   ⟨.bottleModifier, .bottleBlock,
    "Should not have `bottle :unneeded/:disable` and `bottle do`"⟩]

/-- The messages for kinds that stand together and exclude each other. -/
def exclusionProblems (all : List Declaration) : List String :=
  (exclusions.filter fun e => inClassBody all e.first && inClassBody all e.second).map (·.message)

/-- Downloads belong into the stable block, if there is one. -/
def stableKinds : List Kind :=
  [.url, .checksum, .mirror]

/-- The messages for downloads beside a stable block. -/
def containmentProblems (all : List Declaration) : List String :=
  if inClassBody all .stableBlock then
    (stableKinds.filter (inClassBody all)).map fun kind =>
      s!"`{kind.label}` should be put inside `{Kind.stableBlock.label}`"
  else []

/-- The message for a missing test block. -/
def missingTest : String :=
  "A `test do` test block should be added"

/-- The message for a missing test block, if it is missing. -/
def testProblems (all : List Declaration) : List String :=
  if inClassBody all .test then [] else [missingTest]

end TapAudit.Structure
