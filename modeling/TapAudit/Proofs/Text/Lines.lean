import Mathlib.Data.List.Infix
import Mathlib.Tactic.Common
import TapAudit.Text.Lines
import TapAudit.Text.Search

/-!
# Lines of a text

- `splitOn_joinWith`: parts that hold no separator are what their join is split into.
- `joinWith_splitOn`: a text is the join of what it is split into.
- `splitOn_append_sep`: the parts of two texts with a separator between them.
- `upTo_cons_sep`: a text up to a mark at the start of a part.
-/

namespace TapAudit.Text

variable {sep : Char}

theorem splitOn_cons_self (rest : List Char) :
    splitOn sep (sep :: rest) = [] :: splitOn sep rest := by
  rw [splitOn, if_pos rfl]

theorem splitOn_cons_of_ne {c : Char} {rest part : List Char} {parts : List (List Char)}
    (hc : c ≠ sep) (hrest : splitOn sep rest = part :: parts) :
    splitOn sep (c :: rest) = (c :: part) :: parts := by
  rw [splitOn, if_neg hc, hrest]

theorem splitOn_eq_singleton {part : List Char} (h : sep ∉ part) : splitOn sep part = [part] := by
  induction part with
  | nil => rfl
  | cons c part ih =>
    rw [List.mem_cons, not_or] at h
    rw [splitOn, if_neg (Ne.symm h.1), ih h.2]

theorem splitOn_append_cons {part : List Char} (h : sep ∉ part) (rest : List Char) :
    splitOn sep (part ++ sep :: rest) = part :: splitOn sep rest := by
  induction part with
  | nil => rw [List.nil_append, splitOn, if_pos rfl]
  | cons c part ih =>
    rw [List.mem_cons, not_or] at h
    rw [List.cons_append, splitOn, if_neg (Ne.symm h.1), ih h.2]

theorem splitOn_joinWith_append {parts : List (List Char)} (hne : parts ≠ [])
    (h : ∀ part ∈ parts, sep ∉ part) (rest : List Char) :
    splitOn sep (joinWith [sep] parts ++ sep :: rest) = parts ++ splitOn sep rest := by
  induction parts with
  | nil => exact absurd rfl hne
  | cons part parts ih =>
    have hpart := h part (by simp)
    cases parts with
    | nil => exact splitOn_append_cons hpart rest
    | cons next parts =>
      rw [joinWith, List.append_assoc, List.append_assoc, List.singleton_append,
        splitOn_append_cons hpart, ih (by simp) fun part hmem => h part (by simp [hmem])]
      · rfl
      · simp

theorem splitOn_unlines {lines : List (List Char)} (h : ∀ line ∈ lines, '\n' ∉ line) :
    splitOn '\n' (unlines lines) = lines ++ [[]] := by
  induction lines with
  | nil => rfl
  | cons line lines ih =>
    rw [List.forall_mem_cons] at h
    rw [unlines, List.flatMap_cons, List.append_assoc, List.singleton_append,
      splitOn_append_cons h.1, ← unlines, ih h.2, List.cons_append]

theorem splitOn_joinWith {parts : List (List Char)} (hne : parts ≠ [])
    (h : ∀ part ∈ parts, sep ∉ part) : splitOn sep (joinWith [sep] parts) = parts := by
  induction parts with
  | nil => exact absurd rfl hne
  | cons part parts ih =>
    have hpart := h part (by simp)
    cases parts with
    | nil => exact splitOn_eq_singleton hpart
    | cons next parts =>
      rw [joinWith, List.append_assoc, List.singleton_append, splitOn_append_cons hpart,
        ih (by simp) fun part hmem => h part (by simp [hmem])]
      simp

theorem splitOn_eq_cons {text part : List Char} {parts : List (List Char)}
    (h : splitOn sep text = part :: parts) :
    sep ∉ part ∧ (parts = [] ∧ text = part ∨
      ∃ rest, text = part ++ sep :: rest ∧ splitOn sep rest = parts) := by
  induction text generalizing part with
  | nil =>
    cases h
    exact ⟨List.not_mem_nil, .inl ⟨rfl, rfl⟩⟩
  | cons c text ih =>
    by_cases hc : c = sep
    · subst hc
      rw [splitOn_cons_self] at h
      cases h
      exact ⟨List.not_mem_nil, .inr ⟨text, rfl, rfl⟩⟩
    · obtain ⟨first, others, hrest⟩ := List.exists_cons_of_ne_nil (splitOn_ne_nil sep text)
      rw [splitOn_cons_of_ne hc hrest] at h
      cases h
      obtain ⟨hfirst, hothers⟩ := ih hrest
      refine ⟨fun hmem => ?_, ?_⟩
      · rcases List.mem_cons.mp hmem with heq | hmem
        · exact hc heq.symm
        · exact hfirst hmem
      · rcases hothers with ⟨hnil, rfl⟩ | ⟨rest, rfl, hsplit⟩
        · exact .inl ⟨hnil, rfl⟩
        · exact .inr ⟨rest, rfl, hsplit⟩

/-- Nothing but separators is lost when a text is split. -/
theorem exists_mem_splitOn_iff {c : Char} (hc : c ≠ sep) {text : List Char} :
    (∃ part ∈ splitOn sep text, c ∈ part) ↔ c ∈ text := by
  induction text with
  | nil => simp [splitOn]
  | cons d text ih =>
    rw [List.mem_cons, ← ih]
    by_cases hd : d = sep
    · subst hd
      rw [splitOn_cons_self, List.exists_mem_cons_iff]
      simp [hc]
    · obtain ⟨first, others, hrest⟩ := List.exists_cons_of_ne_nil (splitOn_ne_nil sep text)
      rw [splitOn_cons_of_ne hd hrest, hrest, List.exists_mem_cons_iff, List.exists_mem_cons_iff,
        List.mem_cons, or_assoc]

theorem joinWith_cons {part : List Char} {parts : List (List Char)} (h : parts ≠ []) :
    joinWith [sep] (part :: parts) = part ++ sep :: joinWith [sep] parts := by
  obtain ⟨next, parts, rfl⟩ := List.exists_cons_of_ne_nil h
  rw [joinWith, List.append_assoc, List.singleton_append]
  exact fun hnil => absurd hnil (by simp)

theorem joinWith_append {front back : List (List Char)} (hfront : front ≠ []) (hback : back ≠ []) :
    joinWith [sep] (front ++ back) = joinWith [sep] front ++ sep :: joinWith [sep] back := by
  induction front with
  | nil => exact absurd rfl hfront
  | cons part front ih =>
    cases front with
    | nil => exact joinWith_cons hback
    | cons next front =>
      rw [List.cons_append, joinWith_cons (by simp), ih (List.cons_ne_nil next front),
        joinWith_cons (List.cons_ne_nil next front), List.append_assoc, List.cons_append]

theorem of_mem_joinWith {p : Char → Bool} (hsep : p sep = true) {parts : List (List Char)}
    (h : ∀ part ∈ parts, ∀ c ∈ part, p c = true) :
    ∀ c ∈ joinWith [sep] parts, p c = true := by
  induction parts with
  | nil => exact fun _ hc => absurd hc List.not_mem_nil
  | cons part parts ih =>
    rw [List.forall_mem_cons] at h
    cases parts with
    | nil => exact h.1
    | cons next parts =>
      rw [joinWith_cons (List.cons_ne_nil next parts), List.forall_mem_append,
        List.forall_mem_cons]
      exact ⟨h.1, hsep, ih h.2⟩

theorem prefix_joinWith (sep part : List Char) (parts : List (List Char)) :
    part <+: joinWith sep (part :: parts) := by
  cases parts with
  | nil => exact List.prefix_rfl
  | cons next parts =>
    rw [joinWith, List.append_assoc]
    · exact List.prefix_append part _
    · exact List.cons_ne_nil next parts

theorem joinWith_splitOn (text : List Char) : joinWith [sep] (splitOn sep text) = text := by
  induction hsplit : splitOn sep text generalizing text with
  | nil => exact absurd hsplit (splitOn_ne_nil sep text)
  | cons part parts ih =>
    rcases (splitOn_eq_cons hsplit).2 with ⟨rfl, rfl⟩ | ⟨rest, rfl, hrest⟩
    · rfl
    · have hne : parts ≠ [] := hrest ▸ splitOn_ne_nil sep rest
      rw [joinWith_cons hne, ih rest hrest]

theorem not_mem_of_mem_splitOn {text part : List Char} (h : part ∈ splitOn sep text) :
    sep ∉ part := by
  induction hsplit : splitOn sep text generalizing text with
  | nil => exact absurd hsplit (splitOn_ne_nil sep text)
  | cons first parts ih =>
    obtain ⟨hfirst, hrest⟩ := splitOn_eq_cons hsplit
    rw [hsplit] at h
    rcases List.mem_cons.mp h with rfl | h
    · exact hfirst
    · rcases hrest with ⟨rfl, -⟩ | ⟨rest, -, hparts⟩
      · cases h
      · exact ih (hparts ▸ h) hparts

theorem splitOn_append_sep (front rest : List Char) :
    splitOn sep (front ++ sep :: rest) = splitOn sep front ++ splitOn sep rest := by
  have hsplit := splitOn_joinWith_append (splitOn_ne_nil sep front)
    (fun _ => not_mem_of_mem_splitOn) rest
  rwa [joinWith_splitOn] at hsplit

theorem isPrefixOf?_append_sep {mark : List Char} (hmark : sep ∉ mark) (text rest : List Char) :
    mark.isPrefixOf? (text ++ sep :: rest) = (mark.isPrefixOf? text).map (· ++ sep :: rest) := by
  induction mark generalizing text with
  | nil => rfl
  | cons c mark ih =>
    rw [List.mem_cons, not_or] at hmark
    cases text with
    | nil =>
      have hne : (c == sep) = false := by simpa using Ne.symm hmark.1
      simp [List.isPrefixOf?, hne]
    | cons d text =>
      rw [List.cons_append, List.isPrefixOf?, List.isPrefixOf?, ih hmark.2]
      split <;> rfl

theorem isPrefixOf_splitOn {text part mark : List Char} {parts : List (List Char)}
    (hmark : sep ∉ mark) (h : splitOn sep text = part :: parts) :
    mark.isPrefixOf text = mark.isPrefixOf part := by
  rw [Bool.eq_iff_iff, List.isPrefixOf_iff_prefix, List.isPrefixOf_iff_prefix]
  rcases (splitOn_eq_cons h).2 with ⟨-, rfl⟩ | ⟨rest, rfl, -⟩
  · rfl
  · refine ⟨fun hstarts => ?_, fun hstarts => hstarts.trans (List.prefix_append part _)⟩
    rcases List.prefix_or_prefix_of_prefix hstarts (List.prefix_append part (sep :: rest)) with
      hpart | ⟨tail, rfl⟩
    · exact hpart
    · rw [List.prefix_append_right_inj] at hstarts
      cases tail with
      | nil => rw [List.append_nil]
      | cons c tail =>
        obtain ⟨rfl, -⟩ := List.cons_prefix_cons.mp hstarts
        exact absurd (List.mem_append_right part List.mem_cons_self) hmark

/-- The first part and those after it that do not start with a mark. -/
def partsBefore (mark : List Char) : List (List Char) → List (List Char)
  | [] => []
  | part :: parts => part :: parts.takeWhile fun part => !mark.isPrefixOf part

theorem upTo_cons_sep {mark : List Char} (hmark : sep ∉ mark) (text : List Char) :
    upTo (sep :: mark) text = joinWith [sep] (partsBefore mark (splitOn sep text)) := by
  induction text with
  | nil => rfl
  | cons c text ih =>
    obtain ⟨part, parts, hsplit⟩ := List.exists_cons_of_ne_nil (splitOn_ne_nil sep text)
    rw [hsplit] at ih
    by_cases hc : c = sep
    · subst hc
      rw [splitOn_cons_self, hsplit, upTo, List.isPrefixOf_cons_cons_self,
        isPrefixOf_splitOn hmark hsplit]
      split
      · next hstarts => simp [partsBefore, hstarts, joinWith]
      · next hstarts =>
        rw [ih, partsBefore, partsBefore, List.takeWhile_cons_of_pos (by simp [hstarts])]
        rfl
    · have hstarts : (sep :: mark).isPrefixOf (c :: text) = false := by
        simp [List.isPrefixOf, Ne.symm hc]
      rw [splitOn_cons_of_ne hc hsplit, upTo, hstarts, if_neg Bool.false_ne_true, ih, partsBefore,
        partsBefore]
      cases parts.takeWhile fun part => !mark.isPrefixOf part <;> rfl

end TapAudit.Text
