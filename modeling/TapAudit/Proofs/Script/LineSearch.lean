import TapAudit.Proofs.Text.Blank
import TapAudit.Proofs.Text.Lines
import TapAudit.Proofs.Text.Search
import TapAudit.Script.Marker

/-!
# Searching from line to line

The header of a formula class, the use of inline data and the line `__END__` can stand only at the
start of a line. So the search for one of them looks at what is left of the text from each of its
lines on.

- `Marker.isIn_iff`: the search finds a marker that stands at the start of some line.
- `isFormula_iff`: a class header may go on behind the line on which it starts.
- `usesData_iff`: the use of inline data may not, so some line by itself is one.
-/

namespace TapAudit.Script

open Text

/-- The text from a line on. -/
def textFrom (text : List Char) (k : Nat) : List Char :=
  joinWith ['\n'] ((lines text).drop k)

theorem textFrom_zero (text : List Char) : textFrom text 0 = text :=
  joinWith_splitOn text

theorem lines_textFrom {text : List Char} {k : Nat} (h : k < (lines text).length) :
    lines (textFrom text k) = (lines text).drop k :=
  splitOn_joinWith (List.ne_nil_of_length_pos (by rw [List.length_drop]; omega))
    fun _ hpart => not_mem_of_mem_splitOn (List.mem_of_mem_drop hpart)

section

variable {marker : Marker} {P : List Char → Prop}

/-- The search looks at the first line if it is the start of one, and at the start of every other
line. -/
theorem isSome_search_iff
    (hmarker : ∀ before text, marker.standsAt before text = true ↔
      atLineStart before = true ∧ P text)
    {text line : List Char} {rest : List (List Char)} (before : Option Char)
    (h : lines text = line :: rest) :
    (firstMatch (fun before rest => if marker.standsAt before rest then some () else none)
        before text).isSome = true ↔
      atLineStart before = true ∧ P text ∨
        ∃ k < rest.length, P (joinWith ['\n'] (rest.drop k)) := by
  have hread (before : Option Char) (text : List Char) :
      (if marker.standsAt before text then some () else none).isSome = true ↔
        atLineStart before = true ∧ P text := by
    rw [Option.isSome_ite, hmarker]
  induction text generalizing before line rest with
  | nil =>
    cases h
    rw [firstMatch, hread, or_iff_left]
    rintro ⟨k, hk, -⟩
    exact absurd hk (Nat.not_lt_zero k)
  | cons c text ih =>
    obtain ⟨first, others, hlines⟩ := List.exists_cons_of_ne_nil (splitOn_ne_nil '\n' text)
    rw [isSome_firstMatch_cons, Bool.or_eq_true, hread]
    refine (or_congr_right (ih (some c) hlines)).trans ?_
    by_cases hc : c = '\n'
    · subst hc
      rw [lines, splitOn_cons_self, hlines] at h
      cases h
      have htext : joinWith ['\n'] (first :: others) = text := hlines ▸ joinWith_splitOn text
      rw [List.length_cons, Nat.exists_lt_succ_left, List.drop_zero, htext]
      simp [atLineStart]
    · rw [lines, splitOn_cons_of_ne hc hlines] at h
      cases h
      simp [atLineStart, hc]

theorem Marker.isIn_iff
    (hmarker : ∀ before text, marker.standsAt before text = true ↔
      atLineStart before = true ∧ P text) (text : List Char) :
    marker.isIn text = true ↔ ∃ k < (lines text).length, P (textFrom text k) := by
  obtain ⟨line, rest, hlines⟩ := List.exists_cons_of_ne_nil (splitOn_ne_nil '\n' text)
  have hlines : lines text = line :: rest := hlines
  rw [Marker.isIn, isSome_search_iff hmarker none hlines, hlines, List.length_cons,
    Nat.exists_lt_succ_left, textFrom_zero]
  simp [atLineStart, textFrom, hlines]

end

/-! ## The class header -/

theorem isFormula_iff {text : List Char} :
    isFormula text = true ↔
      ∃ k < (lines text).length, startsFormulaClass (textFrom text k) = true := by
  have hmarker (before : Option Char) (text : List Char) :
      Marker.formulaClass.standsAt before text = true ↔
        atLineStart before = true ∧ startsFormulaClass text = true := by
    rw [Marker.standsAt, Bool.and_eq_true]
  exact Marker.isIn_iff hmarker text

/-! ## The use of inline data -/

theorem startsWord_append_feed (text tail : List Char) :
    startsWord (text ++ '\n' :: tail) = startsWord text := by
  cases text with
  | nil => exact isWord_of_isBlank (by decide)
  | cons c text => rfl

theorem startsDataWord_append_feed (before : Option Char) (text tail : List Char) :
    startsDataWord before (text ++ '\n' :: tail) = startsDataWord before text := by
  have hafter : after? "DATA" (text ++ '\n' :: tail) =
      (after? "DATA" text).map (· ++ '\n' :: tail) := isPrefixOf?_append_sep (by decide) text tail
  rw [startsDataWord, startsDataWord, hafter, atBoundary, atBoundary, startsWord_append_feed]
  cases after? "DATA" text with
  | none => rfl
  | some rest => rw [Option.map_some]; dsimp only; rw [startsWord_append_feed]

theorem usesDataFrom_append_feed (before : Option Char) (line tail : List Char) :
    usesDataFrom before (line ++ '\n' :: tail) = true ↔
      usesDataFrom before line = true ∨ '#' ∉ line ∧ usesDataFrom (some '\n') tail = true := by
  induction line generalizing before with
  | nil =>
    have hword : startsDataWord before ('\n' :: tail) = false :=
      startsDataWord_append_feed before [] tail
    simp [usesDataFrom, hword]
  | cons c line ih =>
    rw [List.cons_append, usesDataFrom, ← List.cons_append, startsDataWord_append_feed,
      usesDataFrom, Bool.or_eq_true, Bool.and_eq_true, ih, Bool.or_eq_true, Bool.and_eq_true,
      List.mem_cons, not_or, bne_iff_ne, ne_comm (a := c)]
    tauto

theorem usesDataFrom_feed (text : List Char) :
    usesDataFrom (some '\n') text = usesDataFrom none text := by
  have hfeed : endsWord (some '\n') = endsWord none := isWord_of_isBlank (by decide)
  cases text with
  | nil => rfl
  | cons c text =>
    rw [usesDataFrom, usesDataFrom, startsDataWord, startsDataWord, atBoundary, atBoundary, hfeed]

theorem usesDataFrom_joinWith {line : List Char} {rest : List (List Char)} :
    usesDataFrom none (joinWith ['\n'] (line :: rest)) = true ↔
      usesDataFrom none line = true ∨
        rest ≠ [] ∧ '#' ∉ line ∧ usesDataFrom none (joinWith ['\n'] rest) = true := by
  by_cases hrest : rest = []
  · subst hrest
    exact (or_iff_left fun h => h.1 rfl).symm
  · rw [joinWith_cons hrest, usesDataFrom_append_feed, usesDataFrom_feed,
      and_iff_right (a := rest ≠ []) hrest]

theorem exists_usesDataFrom {parts : List (List Char)}
    (h : usesDataFrom none (joinWith ['\n'] parts) = true) :
    ∃ line ∈ parts, usesDataFrom none line = true := by
  induction parts with
  | nil => cases h
  | cons line rest ih =>
    rw [List.exists_mem_cons_iff]
    exact (usesDataFrom_joinWith.mp h).imp_right fun hrest => ih hrest.2.2

/-- **A script uses inline data if one of its lines, by itself, does.** -/
theorem usesData_iff {text : List Char} :
    usesData text = true ↔ ∃ line ∈ lines text, usesDataFrom none line = true := by
  have hmarker (before : Option Char) (text : List Char) :
      Marker.dataUse.standsAt before text = true ↔
        atLineStart before = true ∧ usesDataFrom none text = true := by
    rw [Marker.standsAt, Bool.and_eq_true]
    refine and_congr_right fun hbefore => ?_
    rw [atLineStart, Bool.or_eq_true, beq_iff_eq, beq_iff_eq] at hbefore
    rcases hbefore with rfl | rfl
    · rfl
    · rw [usesDataFrom_feed]
  rw [usesData, Marker.isIn_iff hmarker]
  constructor
  · rintro ⟨k, -, huses⟩
    obtain ⟨line, hline, huses⟩ := exists_usesDataFrom huses
    exact ⟨line, List.mem_of_mem_drop hline, huses⟩
  · rintro ⟨line, hline, huses⟩
    obtain ⟨k, hk, rfl⟩ := List.getElem_of_mem hline
    refine ⟨k, hk, ?_⟩
    rw [textFrom, List.drop_eq_getElem_cons hk]
    exact usesDataFrom_joinWith.mpr (.inl huses)

theorem usesData_append (front back : List Char) :
    usesData (front ++ '\n' :: back) = (usesData front || usesData back) := by
  rw [Bool.eq_iff_iff, Bool.or_eq_true, usesData_iff, usesData_iff, usesData_iff, lines,
    splitOn_append_sep]
  simp only [List.mem_append, or_and_right, exists_or]
  rfl

end TapAudit.Script
