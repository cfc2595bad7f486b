import TapAudit.Declaration
import TapAudit.Proofs.Script.Action
import TapAudit.Text.Lines

/-!
# Outlines of formulae

A formula as a tree: attributes, and blocks, methods and control structures with what stands inside
them. An outline has two readings. `Outline.render` writes it down, one statement on a line and
every block closed by its own `end`; `Outline.declarations` lists its nodes in preorder, each with
the position of the node that holds it.
-/

namespace TapAudit.Script

open Text

/-! ## Parts of statements -/

/-- The content of a quoted argument. It stays on its line and opens no heredoc. -/
structure Argument where
  text : List Char
  isContent : IsContent text
  onOneLine : '\n' ∉ text
  noHeredoc : ¬ "<<".toList <:+: text

/-- The word of a call: no word that starts a statement of another form. -/
structure CallWord where
  text : List Char
  isCallName : isCallName text = true
  isFree : text ∉ reservedWords.map String.toList

/-- The name of a method, with the mark it may end in. -/
structure MethodName where
  base : List Char
  isName : isName base = true
  mark : List Char
  isMark : mark = [] ∨ mark = ['?'] ∨ mark = ['!'] ∨ mark = ['=']

def MethodName.text (n : MethodName) : List Char :=
  n.base ++ n.mark

structure ControlWord where
  text : String
  isControl : text ∈ controlWords

/-- What a control structure asks for: a word other than `end`. -/
structure Subject where
  text : List Char
  ne_nil : text ≠ []
  areWord : ∀ c ∈ text, isWord c = true
  isNotEnd : text ≠ "end".toList

structure ClassName where
  initial : Char
  isCapital : initial.isUpper = true
  rest : List Char
  areWord : ∀ c ∈ rest, isWord c = true

/-! ## Nodes -/

/-- An attribute: one of the known words with a quoted argument. -/
structure Attribute where
  word : String
  kind : Kind
  isKnown : (word, kind) ∈ attributeKinds
  argument : Argument

/-- What opens a block. -/
inductive Opener where
  /-- A call with or without a quoted argument, such as `test do` or `resource "x" do`. -/
  | call (word : CallWord) (argument : Option Argument)
  | method (name : MethodName)
  | control (word : ControlWord) (subject : Subject)

/-- What stands in a block, in order. -/
inductive Body where
  | done
  | attr (a : Attribute) (rest : Body)
  | block (o : Opener) (inner rest : Body)

/-- A formula class. -/
structure Outline where
  name : ClassName
  body : Body

/-! ## Writing -/

def Attribute.statement (a : Attribute) : List Char :=
  a.word.toList ++ ' ' :: literal a.argument.text

/-- The text between the word of a call and its block. -/
def quotedArgument : Option Argument → List Char
  | none => []
  | some a => literal a.text ++ [' ']

def Opener.statement : Opener → List Char
  | .call word argument => word.text ++ ' ' :: (quotedArgument argument ++ "do".toList)
  | .method name => "def".toList ++ ' ' :: name.text
  | .control word subject => word.text.toList ++ ' ' :: subject.text

def closing : List Char :=
  "end".toList

/-- The statements of a body, one for each line. -/
def Body.statements : Body → List (List Char)
  | done => []
  | attr a rest => a.statement :: rest.statements
  | block o inner rest => o.statement :: (inner.statements ++ closing :: rest.statements)

def Outline.header (o : Outline) : List Char :=
  "class".toList ++ ' ' :: o.name.initial :: (o.name.rest ++ " < Formula".toList)

/-- The statements of a formula, one for each line. -/
def Outline.statements (o : Outline) : List (List Char) :=
  o.header :: (o.body.statements ++ [closing])

/-- Blanks in front of a statement. -/
structure Indent where
  text : List Char
  areBlank : ∀ c ∈ text, isBlank c = true
  onOneLine : '\n' ∉ text

/-- The text of a formula, each line indented in its own way, the last line feed written or not. -/
def Outline.render (o : Outline) (indent : Nat → Indent) (lastFeed : Bool) : List Char :=
  joinWith ['\n'] (o.statements.mapIdx fun i statement => (indent i).text ++ statement) ++
    if lastFeed then ['\n'] else []

example :
    Outline.render
      { name :=
          { initial := 'T', isCapital := by decide, rest := "ap".toList
            areWord := List.all_eq_true.mp (by decide) }
        body :=
          .block
            (.call { text := "test".toList, isCallName := by decide, isFree := by decide } none)
            (.block
              (.control { text := "if", isControl := by decide }
                { text := "ok".toList, ne_nil := by decide
                  areWord := List.all_eq_true.mp (by decide), isNotEnd := by decide })
              .done .done)
            .done }
      (fun i =>
        { text := List.replicate i ' '
          areBlank := fun _ hmem => List.eq_of_mem_replicate hmem ▸ isBlank_space
          onOneLine := fun hmem => absurd (List.eq_of_mem_replicate hmem) (by decide) })
      true =
    "class Tap < Formula\n test do\n  if ok\n   end\n    end\n     end\n".toList := by
  decide

/-! ## Listing -/

/-- The kind of declaration that an opener makes. -/
def Opener.kind : Opener → Kind
  | .call word _ => (kindOf? blockKinds word.text).getD .otherBlock
  | .method name => (kindOf? methodKinds name.text).getD .otherMethod
  | .control _ _ => .otherBlock

/-- The argument that is kept of an opener. -/
def Opener.argument : Opener → List Char
  | .call _ none => []
  | .call _ (some a) => literal a.text
  | .method name => name.text
  | .control word subject => word.text.toList ++ ' ' :: subject.text

/--
The nodes of a body in preorder, given the line of its first statement, the position of its first
node in the list, and the position of the node that holds it.
-/
def Body.declarations (line first : Nat) (parent : Option Nat) : Body → List Declaration
  | done => []
  | attr a rest =>
    { kind := a.kind, line, parent, argument := literal a.argument.text, opensBlock := false } ::
      rest.declarations (line + 1) (first + 1) parent
  | block o inner rest =>
    let inside := inner.declarations (line + 1) (first + 1) (some first)
    { kind := o.kind, line, parent, argument := o.argument, opensBlock := true } ::
      (inside ++
        rest.declarations (line + 1 + inner.statements.length + 1) (first + 1 + inside.length)
          parent)

/-- The nodes of a formula in preorder. The class itself is no node; what stands directly in it has
no parent. -/
def Outline.declarations (o : Outline) : List Declaration :=
  o.body.declarations 2 0 none

end TapAudit.Script
