import TapAudit.Text.Search

/-!
# String literals

A literal runs from a quote to the next quote of the same kind. Within code a backslash takes the
character after it along; within an argument it does not.
-/

namespace TapAudit.Script

/-- The two quotes. -/
def isQuote (c : Char) : Bool :=
  c == '\'' || c == '"'

/-- The code after the quote that closes a literal opened by `mark`. -/
def afterLiteral? (mark : Char) : List Char → Option (List Char)
  | [] => none
  | ['\\'] => none
  | '\\' :: _ :: rest => afterLiteral? mark rest
  | c :: rest => if c = mark then some rest else afterLiteral? mark rest

theorem length_afterLiteral? {mark : Char} {text rest : List Char}
    (h : afterLiteral? mark text = some rest) : rest.length < text.length := by
  fun_induction afterLiteral? mark text with
  | case1 => simp at h
  | case2 => simp at h
  | case3 _ _ ih => have := ih h; simp; omega
  | case4 => simp_all
  | case5 _ _ _ _ _ ih => have := ih h; simp; omega

/-- Code in which every closed literal is made empty. -/
def blankLiterals : List Char → List Char
  | [] => []
  | c :: rest =>
    if isQuote c then
      match _h : afterLiteral? c rest with
      | some tail => '"' :: '"' :: blankLiterals tail
      | none => c :: blankLiterals rest
    else c :: blankLiterals rest
termination_by text => text.length
decreasing_by
  · have := length_afterLiteral? _h
    simp; omega
  · simp
  · simp

/-- The text up to the quote `mark`, which must stand on the same line. -/
def upToQuote? (mark : Char) : List Char → Option (List Char)
  | [] => none
  | c :: rest =>
    if c = mark then some []
    else if c = '\n' then none
    else (upToQuote? mark rest).map (c :: ·)

/-- The content of a quoted text that starts here. -/
def quotedHere? : List Char → Option (List Char)
  | [] => none
  | c :: rest => if isQuote c then upToQuote? c rest else none

/-- The content of the first quoted text of an argument. -/
def firstQuoted? (argument : List Char) : Option (List Char) :=
  Text.firstMatch (fun _ rest => quotedHere? rest) none argument

end TapAudit.Script
