import Mathlib.Data.List.Forall2
import TapAudit.Proofs.Text.Blank
import TapAudit.Proofs.Text.Lines
import TapAudit.Text.Search

/-!
# Line ends

A text may end its lines with line feeds or with carriage returns before them. If every carriage
return stands before a line feed, making the line ends plain takes those carriage returns away and
does nothing else: the lines of the two texts are the same but for blanks at their ends.

- `plain_normalizeLineEnds`: what becomes of a text without lone carriage returns.
- `map_strip_lines`: its lines stay the same, the blanks around them left aside.
-/

namespace TapAudit.Text

/-- Some carriage return does not stand before a line feed. -/
def HasLoneReturn (text : List Char) : Prop :=
  ∃ before after, text = before ++ '\r' :: after ∧ after.head? ≠ some '\n'

/-- The first text is the second one, with carriage returns before some of its line feeds. -/
inductive Plain : List Char → List Char → Prop
  | nil : Plain [] []
  | lineEnd {s t : List Char} (h : Plain s t) : Plain ('\r' :: '\n' :: s) ('\n' :: t)
  | char {c : Char} {s t : List Char} (hc : c ≠ '\r') (h : Plain s t) : Plain (c :: s) (c :: t)

theorem HasLoneReturn.cons {text : List Char} (c : Char) (h : HasLoneReturn text) :
    HasLoneReturn (c :: text) := by
  obtain ⟨before, after, rfl, hafter⟩ := h
  exact ⟨c :: before, after, rfl, hafter⟩

theorem plain_normalizeLineEnds {text : List Char} (h : ¬ HasLoneReturn text) :
    Plain text (normalizeLineEnds text) := by
  fun_induction normalizeLineEnds text with
  | case1 => exact .nil
  | case2 rest ih => exact .lineEnd (ih fun hrest => h ((hrest.cons _).cons _))
  | case3 rest hrest ih =>
    refine absurd ⟨[], rest, rfl, fun hhead => ?_⟩ h
    obtain ⟨tail, rfl⟩ := List.head?_eq_some_iff.mp hhead
    exact hrest tail rfl
  | case4 c rest _ hc ih => exact .char hc (ih fun hrest => h (hrest.cons _))

theorem normalizeLineEnds_eq_self {text : List Char} (h : '\r' ∉ text) :
    normalizeLineEnds text = text := by
  fun_induction normalizeLineEnds text with
  | case1 => rfl
  | case2 rest _ => exact absurd List.mem_cons_self h
  | case3 rest _ _ => exact absurd List.mem_cons_self h
  | case4 c rest _ _ ih => rw [ih fun hmem => h (List.mem_cons_of_mem c hmem)]

namespace Plain

theorem forall₂_lines {s t : List Char} (h : Plain s t) :
    List.Forall₂ (fun raw line => raw = line ∨ raw = line ++ ['\r']) (lines s) (lines t) := by
  induction h with
  | nil => exact .cons (.inl rfl) .nil
  | lineEnd _ ih =>
    rw [lines, lines, splitOn_cons_self,
      splitOn_cons_of_ne (by decide) (splitOn_cons_self ..)]
    exact .cons (.inr rfl) ih
  | @char c s t _ _ ih =>
    by_cases hc : c = '\n'
    · subst hc
      rw [lines, lines, splitOn_cons_self, splitOn_cons_self]
      exact .cons (.inl rfl) ih
    · cases hs : splitOn '\n' s with
      | nil => exact absurd hs (splitOn_ne_nil '\n' s)
      | cons raw raws =>
        rw [lines, hs] at ih
        cases ht : splitOn '\n' t with
        | nil => exact absurd ht (splitOn_ne_nil '\n' t)
        | cons line others =>
          rw [lines, ht] at ih
          obtain ⟨hfirst, hrest⟩ := List.forall₂_cons.mp ih
          rw [lines, lines, splitOn_cons_of_ne hc hs, splitOn_cons_of_ne hc ht]
          exact .cons (hfirst.imp (congrArg _) (congrArg _)) hrest

theorem map_strip_lines {s t : List Char} (h : Plain s t) :
    (lines s).map strip = (lines t).map strip := by
  have hstrip : List.Forall₂ (fun raw line => strip raw = strip line) (lines s) (lines t) := by
    refine h.forall₂_lines.imp ?_
    rintro raw line (rfl | rfl)
    · rfl
    · exact strip_append_blanks line (List.forall_mem_singleton.mpr (by decide))
  rw [← List.forall₂_eq_eq_eq, List.forall₂_map_left_iff, List.forall₂_map_right_iff]
  exact hstrip

/-! ## Readers -/

theorem dropWhile {p : Char → Bool} (hreturn : p '\r' = false) (hfeed : p '\n' = false)
    {s t : List Char} (h : Plain s t) : Plain (s.dropWhile p) (t.dropWhile p) := by
  induction h with
  | nil => exact .nil
  | lineEnd h _ =>
    rw [List.dropWhile_cons_of_neg (by simp [hreturn]),
      List.dropWhile_cons_of_neg (by simp [hfeed])]
    exact .lineEnd h
  | @char c s t hc h ih =>
    rw [List.dropWhile_cons, List.dropWhile_cons]
    split
    · exact ih
    · exact .char hc h

theorem stripStart {s t : List Char} (h : Plain s t) : Plain (stripStart s) (stripStart t) := by
  induction h with
  | nil => exact .nil
  | lineEnd _ ih =>
    rw [stripStart_cons_of_blank (by decide), stripStart_cons_of_blank (by decide),
      stripStart_cons_of_blank (by decide)]
    exact ih
  | @char c s t hc h ih =>
    cases hblank : isBlank c with
    | true =>
      rw [stripStart_cons_of_blank hblank, stripStart_cons_of_blank hblank]
      exact ih
    | false =>
      rw [stripStart_cons hblank, stripStart_cons hblank]
      exact .char hc h

theorem isPrefixOf? {word : List Char} (hreturn : '\r' ∉ word) (hfeed : '\n' ∉ word)
    {s t : List Char} (h : Plain s t) :
    Option.Rel Plain (word.isPrefixOf? s) (word.isPrefixOf? t) := by
  induction word generalizing s t with
  | nil => exact .some h
  | cons c word ih =>
    rw [List.mem_cons, not_or] at hreturn hfeed
    cases h with
    | nil => exact .none
    | lineEnd h =>
      rw [List.isPrefixOf?, List.isPrefixOf?, if_neg (by simpa using Ne.symm hreturn.1),
        if_neg (by simpa using Ne.symm hfeed.1)]
      exact .none
    | @char d s t _ h =>
      rw [List.isPrefixOf?, List.isPrefixOf?]
      split
      · exact ih hreturn.2 hfeed.2 h
      · exact .none

theorem after? {word : String} (hreturn : '\r' ∉ word.toList) (hfeed : '\n' ∉ word.toList)
    {s t : List Char} (h : Plain s t) : Option.Rel Plain (after? word s) (after? word t) :=
  h.isPrefixOf? hreturn hfeed

end Plain

end TapAudit.Text
