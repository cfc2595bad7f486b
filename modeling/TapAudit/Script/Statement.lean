import TapAudit.Script.Literal
import TapAudit.Text.Blank

/-!
# Statements

A line is cut into statements at each semicolon outside quotes, and ends at a comment sign outside
quotes. Blanks around a statement are dropped, and so are empty statements.
-/

namespace TapAudit.Script

/-- Where a position of a line stands with respect to quotes. -/
inductive Quoting where
  /-- Outside quotes. -/
  | code
  /-- Between quotes of one kind. -/
  | quoted (mark : Char)
  /-- Between quotes, after a backslash. -/
  | escaped (mark : Char)
  deriving DecidableEq, Repr

/-- How quoting goes on after a character. -/
def Quoting.after (c : Char) : Quoting → Quoting
  | .code => if isQuote c then .quoted c else .code
  | .quoted mark => if c = '\\' then .escaped mark else if c = mark then .code else .quoted mark
  | .escaped mark => .quoted mark

/-- A character in front of the first of the parts that follow it. -/
def extendFirst (c : Char) : List (List Char) → List (List Char)
  | [] => [[c]]
  | part :: parts => (c :: part) :: parts

/-- The parts of a line between semicolons, up to a comment. -/
def statementParts (q : Quoting) : List Char → List (List Char)
  | [] => [[]]
  | c :: rest =>
    if q = .code ∧ c = '#' then [[]]
    else if q = .code ∧ c = ';' then [] :: statementParts .code rest
    else extendFirst c (statementParts (q.after c) rest)

def statements (line : List Char) : List (List Char) :=
  ((statementParts .code line).map Text.strip).filter (!·.isEmpty)

end TapAudit.Script
