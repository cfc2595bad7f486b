import TapAudit.Declaration

/-!
# The order of declarations

Each kind of declaration that has a place in the canonical order belongs to a tier. Within a scope
(the class body, or a block of a source variant in the class body) declarations are to come in the
order of their tiers; one that comes late is reported together with the nearest declaration before
it that should have come after.
-/

namespace TapAudit.Structure

/-- The tiers of the canonical order, first to last. Kinds in one tier may come in any order. -/
def tiers : List (List Kind) :=
  [[.includeDirective], [.desc], [.homepage], [.url], [.mirror], [.version], [.checksum],
   [.revision], [.versionScheme], [.head], [.stableBlock], [.bottleBlock], [.develBlock],
   [.headBlock], [.bottleModifier], [.kegOnly], [.option], [.dependsOn], [.conflictsWith],
   [.resource], [.install], [.caveats], [.plist], [.test]]

/-- The tier of a kind, if it has a place in the canonical order. -/
def rank? (kind : Kind) : Option Nat :=
  tiers.findIdx? (·.contains kind)

/-- Blocks of a source variant; what they hold is ordered like the class body. -/
def isVariantBlock (kind : Kind) : Bool :=
  kind == .stableBlock || kind == .develBlock || kind == .headBlock

/-- The declaration stands in the class body or in a variant block of the class body. -/
def isOrdered (all : List Declaration) (d : Declaration) : Bool :=
  match d.parent with
  | none => true
  | some i => (all[i]?).any fun p => isVariantBlock p.kind && p.isTopLevel

/-- Two declarations in the wrong order. -/
structure Violation where
  /-- The declaration that comes first and should not. -/
  earlier : Declaration
  /-- The declaration that should come before it. -/
  later : Declaration
  deriving DecidableEq, Repr

def Violation.message (v : Violation) : String :=
  s!"`{v.later.kind.label}` (line {v.later.line}) should be put before " ++
    s!"`{v.earlier.kind.label}` (line {v.earlier.line})"

/-- What has been seen of a scope. -/
structure Scope where
  /-- The block that makes the scope; none for the class body. -/
  block : Option Nat
  /-- The highest tier so far. -/
  highest : Nat
  /-- The declarations so far with their tiers, latest first. -/
  seen : List (Nat × Declaration)
  deriving DecidableEq, Repr

namespace Scope

/-- Adds a declaration to a scope. It violates the order if a higher tier has been reached. -/
def add (s : Scope) (rank : Nat) (d : Declaration) : List Violation × Scope :=
  let seen := (rank, d) :: s.seen
  if rank < s.highest then
    match s.seen.find? (rank < ·.1) with
    | some (_, earlier) => ([⟨earlier, d⟩], { s with seen })
    | none => ([], { s with seen })
  else ([], { s with highest := rank, seen })

/-- Adds a declaration to its scope, which is opened if need be. -/
def addTo (scopes : List Scope) (rank : Nat) (d : Declaration) : List Violation × List Scope :=
  match scopes with
  | [] => ([], [{ block := d.parent, highest := rank, seen := [(rank, d)] }])
  | s :: rest =>
    if s.block = d.parent then
      let (found, s) := s.add rank d
      (found, s :: rest)
    else
      let (found, rest) := addTo rest rank d
      (found, s :: rest)

end Scope

/-- The violations among declarations that follow, given the scopes so far. -/
def violationsFrom (all : List Declaration) (scopes : List Scope) :
    List Declaration → List Violation
  | [] => []
  | d :: rest =>
    match rank? d.kind with
    | some rank =>
      if isOrdered all d then
        let (found, scopes) := Scope.addTo scopes rank d
        found ++ violationsFrom all scopes rest
      else violationsFrom all scopes rest
    | none => violationsFrom all scopes rest

/-- The declarations that come too late, in source order. -/
def violations (all : List Declaration) : List Violation :=
  violationsFrom all [] all

end TapAudit.Structure
