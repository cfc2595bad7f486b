import TapAudit.Log
import TapAudit.Script.Action
import TapAudit.Script.Statement

/-!
# Walking a script

A script is read line by line. Comments, the bodies of heredocs and everything from the line
`__END__` on are passed over; every other line is cut into statements, and each of them acts on the
stack of open blocks. The state between two lines is a value, so a walk can start anywhere.
-/

namespace TapAudit.Script

open Text

/-- What a walk knows between two lines. -/
structure Walk where
  /-- How many lines have been read. -/
  line : Nat := 0
  /-- How many declarations have been made. -/
  declared : Nat := 0
  /-- The open blocks, innermost first: the position of the opening declaration, or none for the
  class body. -/
  stack : List (Option Nat) := []
  /-- The class of the formula has been opened. -/
  seenClass : Bool := false
  /-- The terminator of the heredoc that is being passed over. -/
  heredoc : Option (List Char) := none
  /-- The inline data has begun. -/
  stopped : Bool := false
  deriving DecidableEq, Repr

namespace Walk

/-- The block that holds the next declaration. -/
def parent (w : Walk) : Option Nat :=
  w.stack.head?.join

def declare (w : Walk) (kind : Kind) (argument : List Char) (opensBlock : Bool) :
    List Declaration × Walk :=
  ([{ kind, line := w.line, parent := w.parent, argument, opensBlock }],
   { w with
     declared := w.declared + 1
     stack := if opensBlock then some w.declared :: w.stack else w.stack })

/-- What an action declares, and what it does to the open blocks. -/
def act (w : Walk) : Action → Logged (List Declaration × Walk)
  | .close =>
    match w.stack with
    | _ :: stack => pure ([], { w with stack })
    | [] => do
      Logged.debug s!"Unbalanced `end` on line {w.line}"
      pure ([], w)
  | .openClass header isFormula =>
    if !w.seenClass && w.stack.isEmpty && isFormula then
      pure ([], { w with seenClass := true, stack := [none] })
    else pure (w.declare .otherBlock header true)
  | .declare kind argument opensBlock => pure (w.declare kind argument opensBlock)
  | .bareHead => do
    Logged.debug s!"Bare `head` without a URL on line {w.line}"
    pure ([], w)
  | .skip => pure ([], w)

def readStatements (w : Walk) : List (List Char) → Logged (List Declaration × Walk)
  | [] => pure ([], w)
  | statement :: rest => do
    let (first, w) ← w.act (action statement)
    let (others, w) ← w.readStatements rest
    pure (first ++ others, w)

def readLine (w : Walk) (raw : List Char) : Logged (List Declaration × Walk) :=
  let w := { w with line := w.line + 1 }
  let text := strip raw
  if w.stopped then pure ([], w)
  else
    match w.heredoc with
    | some terminator =>
      pure ([], if text = terminator then { w with heredoc := none } else w)
    | none =>
      if text = "__END__".toList then pure ([], { w with stopped := true })
      else if text.isEmpty || text.head? == some '#' then pure ([], w)
      else do
        let (declarations, w) ← w.readStatements (statements text)
        pure (declarations, { w with heredoc := heredoc? text })

/-- Reads lines one after the other. -/
def readLines (w : Walk) : List (List Char) → Logged (List Declaration × Walk)
  | [] => pure ([], w)
  | raw :: rest => do
    let (first, w) ← w.readLine raw
    let (others, w) ← w.readLines rest
    pure (first ++ others, w)

end Walk

/-- The declarations of a script, in source order. -/
def declarations (text : List Char) : Logged (List Declaration) := do
  let (found, w) ← Walk.readLines {} (lines text)
  if !w.stack.isEmpty then
    Logged.debug s!"{w.stack.length} block(s) left open at end of file"
  pure found

end TapAudit.Script
