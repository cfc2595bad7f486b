/-!
# Declarations

What a formula declares, in source order. Declarations inside a block point at the declaration that
opened it, by its position in the list.
-/

namespace TapAudit

/-- The kinds of declaration a formula is made of. -/
inductive Kind where
  | includeDirective
  | desc
  | homepage
  | url
  | mirror
  | version
  | checksum
  | revision
  | versionScheme
  | head
  | stableBlock
  | bottleBlock
  | develBlock
  | headBlock
  | bottleModifier
  | kegOnly
  | option
  | dependsOn
  | conflictsWith
  | resource
  | install
  | caveats
  | plist
  | test
  /-- Any other block; it only nests. -/
  | otherBlock
  /-- Any other method; it only nests. -/
  | otherMethod
  deriving DecidableEq, Repr

namespace Kind

/-- The name of a kind in messages. -/
def label : Kind → String
  | includeDirective => "include directive"
  | desc => "desc"
  | homepage => "homepage"
  | url => "url"
  | mirror => "mirror"
  | version => "version"
  | checksum => "checksum"
  | revision => "revision"
  | versionScheme => "version_scheme"
  | head => "head"
  | stableBlock => "stable block"
  | bottleBlock => "bottle block"
  | develBlock => "devel block"
  | headBlock => "head block"
  | bottleModifier => "bottle modifier"
  | kegOnly => "keg_only"
  | option => "option"
  | dependsOn => "depends_on"
  | conflictsWith => "conflicts_with"
  | resource => "resource"
  | install => "install method"
  | caveats => "caveats method"
  | plist => "plist block"
  | test => "test block"
  | otherBlock => "block"
  | otherMethod => "method"

def all : List Kind :=
  [includeDirective, desc, homepage, url, mirror, version, checksum, revision, versionScheme, head,
   stableBlock, bottleBlock, develBlock, headBlock, bottleModifier, kegOnly, option, dependsOn,
   conflictsWith, resource, install, caveats, plist, test, otherBlock, otherMethod]

/-- The kind with a given name. -/
def ofLabel? (label : String) : Option Kind :=
  all.find? (·.label == label)

end Kind

/-- One declaration of a formula. -/
structure Declaration where
  kind : Kind
  /-- The line it stands on, counted from 1. -/
  line : Nat
  /-- The position of the declaration whose block holds it; none in the class body. -/
  parent : Option Nat := none
  /-- The text after the keyword. -/
  argument : List Char := []
  /-- It holds what follows, up to its `end`. -/
  opensBlock : Bool := false
  deriving DecidableEq, Repr

/-- A declaration of the class body. -/
def Declaration.isTopLevel (d : Declaration) : Bool :=
  d.parent.isNone

end TapAudit
