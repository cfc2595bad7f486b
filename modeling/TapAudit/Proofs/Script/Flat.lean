import TapAudit.Proofs.Script.Rendering
import TapAudit.Proofs.Text.Numeral

/-!
# Formulae without blocks

A formula whose class body holds nothing but calls that each declare one thing: attributes with a
quoted argument, and numbers such as the revision.

- `Call.number`: a number is such a call.
- `Flat.declarations_text`: the declarations of such a formula are those of its calls.
- `Flat.isFormula_text`: it is a formula.
-/

namespace TapAudit.Script

open Text

/-! ## Calls -/

/-- A statement that declares one thing and opens no block. -/
structure Call where
  statement : List Char
  kind : Kind
  argument : List Char
  isLine : IsLine statement
  action_eq : action statement = .declare kind argument false

/-- An attribute is a call. -/
def Attribute.call (a : Attribute) : Call where
  statement := a.statement
  kind := a.kind
  argument := literal a.argument.text
  isLine := a.isLine
  action_eq := a.action_statement

/-- A word and a number. -/
def numberStatement (word : String) (n : Numeral) : List Char :=
  word.toList ++ ' ' :: n.digits

section

variable (n : Numeral)

theorem isWord_of_mem_digits : ∀ c ∈ n.digits, isWord c = true :=
  fun c hc => isWord_of_isDigit (n.areDigits c hc)

theorem getLast?_digits : ∃ c, n.digits.getLast? = some c ∧ c.isDigit = true :=
  ⟨n.digits.getLast n.ne_nil, List.getLast?_eq_getLast_of_ne_nil n.ne_nil,
    n.areDigits _ (List.getLast_mem n.ne_nil)⟩

theorem strip_digits : strip n.digits = n.digits := by
  refine strip_eq_self ?_ ?_
  · intro c hc
    exact isBlank_of_isWord (isWord_of_mem_digits n c (List.mem_of_mem_head? hc))
  · intro c hc
    exact isBlank_of_isWord (isWord_of_mem_digits n c (List.mem_of_getLast? hc))

variable {word : String} {kind : Kind} (hknown : (word, kind) ∈ attributeKinds)

include hknown

theorem isLine_number : IsLine (numberStatement word n) := by
  obtain ⟨hname, -⟩ := attributeKinds_facts _ hknown
  have hword := isWord_of_mem_digits n
  obtain ⟨c, hlast, hdigit⟩ := getLast?_digits n
  refine isLine_append (isWord_of_mem_callName hname) (ne_nil_of_isCallName hname)
    ⟨c, hlast, isBlank_of_isWord (isWord_of_isDigit hdigit)⟩
    (statementParts_of_plain fun c hc => isPlain_of_isWord (hword c hc))
    (noHeredoc_of_not_mem fun hmem => ?_) (fun hmem => ?_)
  all_goals exact absurd (hword _ hmem) (by decide)

theorem action_number : action (numberStatement word n) = .declare kind n.digits false := by
  obtain ⟨hname, hfree, -⟩ := attributeKinds_facts _ hknown
  obtain ⟨c, hlast, hdigit⟩ := getLast?_digits n
  have hcode : blankLiterals n.digits = n.digits :=
    blankLiterals_of_unquoted fun c hc =>
      isQuote_of_isPlain (isPlain_of_isWord (isWord_of_mem_digits n c hc))
  have hassigned : '=' ∉ n.digits := fun hmem => absurd (n.areDigits _ hmem) (by decide)
  have hend : (word.toList ++ ' ' :: n.digits).getLast? = some c := by
    rw [List.getLast?_append, List.getLast?_cons, hlast]
    rfl
  rw [numberStatement, action_call hname hfree (hcode.symm ▸ hassigned), hcode, endsInDo_eq_false,
    if_neg Bool.false_ne_true, strip_digits, callAction_attribute hknown n.ne_nil]
  · rw [hend]
    rintro ⟨⟩
    exact absurd hdigit (by decide)
  · rintro ⟨front, hfront⟩
    have hdo := congrArg List.getLast? hfront
    rw [hend, List.getLast?_append] at hdo
    cases hdo
    exact absurd hdigit (by decide)

end

/-- A number is a call. -/
def Call.number (word : String) (kind : Kind) (hknown : (word, kind) ∈ attributeKinds)
    (n : Numeral) : Call where
  statement := numberStatement word n
  kind := kind
  argument := n.digits
  isLine := isLine_number n hknown
  action_eq := action_number n hknown

/-! ## Walking over calls -/

/-- What calls declare, given the line of the first one and the block that holds them. -/
def Call.declarations (line : Nat) (parent : Option Nat) : List Call → List Declaration
  | [] => []
  | c :: rest =>
    { kind := c.kind, line, parent, argument := c.argument } ::
      Call.declarations (line + 1) parent rest

namespace Walk

theorem readLine_call {w : Walk} (c : Call) (hstopped : w.stopped = false)
    (hheredoc : w.heredoc = none) :
    w.readLine c.statement =
      pure ([{ kind := c.kind, line := w.line + 1, parent := w.parent, argument := c.argument }],
        w.moved 1 1) := by
  rw [readLine_statement c.isLine hstopped hheredoc, c.action_eq]
  rfl

theorem readLines_calls (calls : List Call) (w : Walk) (hstopped : w.stopped = false)
    (hheredoc : w.heredoc = none) :
    w.readLines (calls.map Call.statement) =
      pure (Call.declarations (w.line + 1) w.parent calls,
        w.moved calls.length calls.length) := by
  induction calls generalizing w with
  | nil => rfl
  | cons c calls ih =>
    have hfirst := readLine_call c hstopped hheredoc
    have hrest := ih (w.moved 1 1) hstopped hheredoc
    rw [List.map_cons, readLines_cons_eq hfirst hrest, moved_moved, Nat.add_comm 1]
    rfl

end Walk

/-! ## Formulae -/

/-- A formula of calls. -/
structure Flat where
  name : ClassName
  calls : List Call

namespace Flat

def header (f : Flat) : List Char :=
  Outline.header { name := f.name, body := .done }

def statements (f : Flat) : List (List Char) :=
  f.header :: (f.calls.map Call.statement ++ [closing])

/-- The text of the formula, the calls indented. -/
def text (f : Flat) : List Char :=
  unlines (f.header :: (f.calls.map (' ' :: ' ' :: ·.statement) ++ [closing]))

/-- What the formula declares. The class itself is no declaration. -/
def declarations (f : Flat) : List Declaration :=
  Call.declarations 2 none f.calls

theorem isLine_header (f : Flat) : IsLine f.header :=
  Outline.isLine_header _

theorem action_header (f : Flat) : action f.header = .openClass f.header true :=
  Outline.action_header _

theorem map_strip_lines_text (f : Flat) :
    (lines f.text).map strip = f.statements ++ [[]] := by
  have honeLine : ∀ line ∈ f.header :: (f.calls.map (' ' :: ' ' :: ·.statement) ++ [closing]),
      '\n' ∉ line := by
    simp only [List.forall_mem_cons, List.forall_mem_append, List.forall_mem_map]
    refine ⟨f.isLine_header.onOneLine, fun c _ => ?_, isLine_closing.onOneLine, by simp⟩
    simp [c.isLine.onOneLine]
  have hstrip : ∀ c ∈ f.calls, (strip ∘ (' ' :: ' ' :: ·.statement)) c = Call.statement c := by
    have hblanks : ∀ d ∈ [' ', ' '], isBlank d = true := List.all_eq_true.mp (by decide)
    exact fun c _ => (strip_blanks_append hblanks c.statement).trans c.isLine.strip_eq
  rw [text, lines, splitOn_unlines honeLine, List.map_append, List.map_cons, List.map_append,
    f.isLine_header.strip_eq, List.map_map, List.map_singleton, isLine_closing.strip_eq, statements,
    List.map_congr_left hstrip]
  rfl

/-- The declarations of the formula are those of its calls, and reading it leaves no note. -/
theorem declarations_text (f : Flat) : Script.declarations f.text = pure f.declarations := by
  have hcalls := Walk.readLines_calls f.calls
    { line := 1, stack := [none], seenClass := true } rfl rfl
  have hclass := Walk.readLines_class f.isLine_header f.action_header hcalls
  have hblank : Walk.readLines
      { line := f.calls.length + 2, declared := f.calls.length, seenClass := true } [[]] =
        pure ([], { line := f.calls.length + 3, declared := f.calls.length, seenClass := true }) :=
    Walk.readLines_cons_eq (Walk.readLine_blank rfl rfl rfl) (Walk.readLines_nil _)
  rw [Script.declarations, ← Walk.readLines_map_strip, f.map_strip_lines_text, statements,
    Walk.readLines_append_eq hclass hblank, List.append_nil]
  rfl

theorem isFormula_text (f : Flat) : isFormula f.text = true := by
  have hstarts : startsFormulaClass f.text = true := by
    have htext : f.text = "class".toList ++ ' ' :: f.name.initial ::
        (f.name.rest ++ (" < Formula".toList ++
          '\n' :: unlines (f.calls.map (' ' :: ' ' :: ·.statement) ++ [closing]))) := by
      simp [text, header, Outline.header, unlines]
    rw [htext]
    exact startsFormulaClass_append f.name.isCapital f.name.areWord _
  have hstands : Marker.formulaClass.standsAt none f.text = true := hstarts
  rw [isFormula, Marker.isIn, ← List.nil_append f.text]
  refine isSome_firstMatch_append ?_
  rw [List.getLast?_nil, Option.or_none, if_pos hstands]
  rfl

end Flat

end TapAudit.Script
