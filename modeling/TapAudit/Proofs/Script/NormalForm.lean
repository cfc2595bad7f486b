import TapAudit.Proofs.Script.Statement
import TapAudit.Proofs.Text.Lines

/-!
# The normal form of statements

A statement is a text without blanks around it that nothing cuts: outside its quotes stand neither a
semicolon nor a comment sign (`IsUncut`). Cutting such a text leaves it as it is
(`IsStatement.statements_eq`), and cutting any line gives such texts (`isStatement_of_mem`). All of
them but the last end outside quotes (`isClosed_of_mem_dropLast`), so a semicolon behind one of them
ends it and they are found again when they are joined (`statements_joinWith`).

The last one may end within quotes that are never closed. There the blanks at its end are dropped
too, which changes nothing, because no character follows them.
-/

namespace TapAudit.Script

open Text

/-! ## Quoting over a text -/

/-- How quoting goes on over a text. -/
def Quoting.over (q : Quoting) (text : List Char) : Quoting :=
  text.foldl (fun q c => q.after c) q

theorem Quoting.over_cons (q : Quoting) (c : Char) (text : List Char) :
    q.over (c :: text) = (q.after c).over text := rfl

/-- The marks that open a quotation are quotes. -/
def Quoting.IsProper : Quoting → Prop
  | .code => True
  | .quoted mark => isQuote mark = true
  | .escaped mark => isQuote mark = true

theorem Quoting.isProper_code : Quoting.code.IsProper := trivial

theorem Quoting.IsProper.after {q : Quoting} (h : q.IsProper) (c : Char) :
    (q.after c).IsProper := by
  cases q with
  | code =>
    rw [Quoting.after]
    split
    · next hc => exact hc
    · trivial
  | quoted mark =>
    rw [Quoting.after]
    split
    · exact h
    · split
      · trivial
      · exact h
  | escaped mark => exact h

theorem Quoting.eq_code_of_after_blank {q : Quoting} (h : q.IsProper) {c : Char}
    (hc : isBlank c = true) (hafter : q.after c = .code) : q = .code := by
  cases q with
  | code => rfl
  | quoted mark =>
    have hmark : c ≠ mark := by
      rintro rfl
      rw [isBlank_of_isQuote h] at hc
      cases hc
    have hslash : c ≠ '\\' := by
      rintro rfl
      exact absurd hc (by decide)
    rw [Quoting.after_plain hslash hmark] at hafter
    cases hafter
  | escaped mark => cases hafter

/-- The text ends outside quotes. -/
def IsClosed (text : List Char) : Prop :=
  Quoting.code.over text = .code

theorem isClosed_stripStart {text : List Char} (h : IsClosed text) :
    IsClosed (stripStart text) := by
  induction text with
  | nil => exact h
  | cons c text ih =>
    cases hc : isBlank c with
    | false => rwa [stripStart_cons hc]
    | true =>
      rw [IsClosed, Quoting.over_cons, Quoting.after_code (isQuote_of_isBlank hc)] at h
      rw [stripStart_cons_of_blank hc]
      exact ih h

theorem over_stripEnd {q : Quoting} (hq : q.IsProper) {text : List Char} (h : q.over text = .code) :
    q.over (stripEnd text) = .code := by
  induction text generalizing q with
  | nil => exact h
  | cons c text ih =>
    have hrest := ih (hq.after c) h
    rw [stripEnd_cons_eq]
    split
    · next hblank =>
      rw [hblank.2] at hrest
      exact Quoting.eq_code_of_after_blank hq hblank.1 hrest
    · exact hrest

theorem IsClosed.strip {text : List Char} (h : IsClosed text) : IsClosed (strip text) :=
  over_stripEnd Quoting.isProper_code (isClosed_stripStart h)

/-! ## Texts that nothing cuts -/

/-- Read on from a given quoting, the text has neither a semicolon nor a comment sign outside
quotes. -/
inductive IsUncut : Quoting → List Char → Prop
  | nil (q : Quoting) : IsUncut q []
  | cons {q : Quoting} {c : Char} {rest : List Char} (hc : q = .code → c ≠ '#' ∧ c ≠ ';')
      (h : IsUncut (q.after c) rest) : IsUncut q (c :: rest)

theorem IsUncut.stripStart {text : List Char} (h : IsUncut .code text) :
    IsUncut .code (stripStart text) := by
  induction text with
  | nil => exact h
  | cons c text ih =>
    cases hc : isBlank c with
    | false => rwa [stripStart_cons hc]
    | true =>
      obtain - | ⟨-, hrest⟩ := h
      rw [Quoting.after_code (isQuote_of_isBlank hc)] at hrest
      rw [stripStart_cons_of_blank hc]
      exact ih hrest

theorem IsUncut.stripEnd {q : Quoting} {text : List Char} (h : IsUncut q text) :
    IsUncut q (stripEnd text) := by
  induction h with
  | nil q => exact .nil q
  | cons hc _ ih =>
    rw [stripEnd_cons_eq]
    split
    · exact .nil _
    · exact .cons hc ih

theorem IsUncut.statementParts_append {q : Quoting} {front rest part : List Char}
    {parts : List (List Char)} (h : IsUncut q front)
    (hrest : statementParts (q.over front) rest = part :: parts) :
    statementParts q (front ++ rest) = (front ++ part) :: parts := by
  induction h with
  | nil => exact hrest
  | cons hc _ ih =>
    rw [List.cons_append, statementParts, if_neg fun h => (hc h.1).1 h.2,
      if_neg fun h => (hc h.1).2 h.2, ih hrest]
    rfl

theorem IsUncut.statementParts_eq {q : Quoting} {text : List Char} (h : IsUncut q text) :
    statementParts q text = [text] := by
  have hrest : statementParts (q.over text) [] = [[]] := rfl
  simpa using h.statementParts_append hrest

theorem IsUncut.statementParts_append_semicolon {front : List Char} (h : IsUncut .code front)
    (hclosed : IsClosed front) (rest : List Char) :
    statementParts .code (front ++ ';' :: rest) = front :: statementParts .code rest := by
  have hsemicolon : statementParts (Quoting.code.over front) (';' :: rest) =
      [] :: statementParts .code rest := by
    rw [show Quoting.code.over front = .code from hclosed]
    rfl
  rw [h.statementParts_append hsemicolon, List.append_nil]

/-! ## The parts of a line -/

/-- Nothing cuts the first part, and if others follow it, it ends outside quotes. -/
theorem statementParts_eq_cons {q : Quoting} {text part : List Char} {parts : List (List Char)}
    (h : statementParts q text = part :: parts) :
    IsUncut q part ∧
      (parts = [] ∨ q.over part = .code ∧ ∃ rest, parts = statementParts .code rest) := by
  induction text generalizing q part parts with
  | nil =>
    cases h
    exact ⟨.nil q, .inl rfl⟩
  | cons c text ih =>
    rw [statementParts] at h
    split at h
    · cases h
      exact ⟨.nil q, .inl rfl⟩
    · next hcomment =>
      split at h
      · next hend =>
        cases h
        exact ⟨.nil q, .inr ⟨hend.1, text, rfl⟩⟩
      · next hend =>
        obtain ⟨first, others, hrest⟩ := exists_statementParts (q.after c) text
        rw [hrest, extendFirst] at h
        cases h
        obtain ⟨hfirst, hothers⟩ := ih hrest
        exact ⟨.cons (fun hq => ⟨fun hc => hcomment ⟨hq, hc⟩, fun hc => hend ⟨hq, hc⟩⟩) hfirst,
          hothers⟩

theorem forall_statementParts (text : List Char) :
    (∀ part ∈ statementParts .code text, IsUncut .code part) ∧
      ∀ part ∈ (statementParts .code text).dropLast, IsClosed part := by
  induction hparts : statementParts .code text generalizing text with
  | nil => simp
  | cons part parts ih =>
    obtain ⟨hpart, hothers⟩ := statementParts_eq_cons hparts
    rcases hothers with rfl | ⟨hclosed, rest, hrest⟩
    · simpa using hpart
    · obtain ⟨huncut, hall⟩ := ih rest hrest.symm
      have hne : parts ≠ [] := by
        obtain ⟨first, others, hcons⟩ := exists_statementParts .code rest
        rw [hrest, hcons]
        exact List.cons_ne_nil first others
      rw [List.dropLast_cons_of_ne_nil hne, List.forall_mem_cons, List.forall_mem_cons]
      exact ⟨⟨hpart, huncut⟩, hclosed, hall⟩

/-! ## Statements -/

/-- A statement in normal form. -/
structure IsStatement (s : List Char) : Prop where
  ne_nil : s ≠ []
  strip_eq : strip s = s
  isUncut : IsUncut .code s

theorem isStatement_of_mem {line s : List Char} (h : s ∈ statements line) : IsStatement s := by
  obtain ⟨hmem, hne⟩ := List.mem_filter.mp h
  obtain ⟨part, hpart, rfl⟩ := List.mem_map.mp hmem
  have huncut := (forall_statementParts line).1 part hpart
  exact ⟨by simpa using hne, strip_strip part, huncut.stripStart.stripEnd⟩

theorem sublist_dropLast {α : Type} {l l' : List α} (h : l.Sublist l') :
    l.dropLast.Sublist l'.dropLast := by
  have htail := h.reverse.tail
  rwa [List.tail_reverse, List.tail_reverse, List.reverse_sublist] at htail

theorem isClosed_of_mem_dropLast {line s : List Char} (h : s ∈ (statements line).dropLast) :
    IsClosed s := by
  have hmem := (sublist_dropLast List.filter_sublist).subset h
  rw [← List.map_dropLast] at hmem
  obtain ⟨part, hpart, rfl⟩ := List.mem_map.mp hmem
  exact ((forall_statementParts line).2 part hpart).strip

theorem statements_of_parts {line : List Char} {ss : List (List Char)}
    (h : ∀ s ∈ ss, IsStatement s) (hparts : statementParts .code line = ss) :
    statements line = ss := by
  have hstrip : ss.map strip = ss :=
    (List.map_congr_left fun s hs => (h s hs).strip_eq).trans (List.map_id ss)
  rw [statements, hparts, hstrip, List.filter_eq_self]
  intro s hs
  simpa using (h s hs).ne_nil

theorem IsStatement.statements_eq {s : List Char} (h : IsStatement s) : statements s = [s] :=
  statements_of_parts (by simpa using h) h.isUncut.statementParts_eq

theorem statementParts_joinWith {ss : List (List Char)} (hne : ss ≠ [])
    (h : ∀ s ∈ ss, IsUncut .code s) (hclosed : ∀ s ∈ ss.dropLast, IsClosed s) :
    statementParts .code (joinWith [';'] ss) = ss := by
  induction ss with
  | nil => contradiction
  | cons s ss ih =>
    rw [List.forall_mem_cons] at h
    by_cases hnil : ss = []
    · subst hnil
      exact h.1.statementParts_eq
    · rw [List.dropLast_cons_of_ne_nil hnil, List.forall_mem_cons] at hclosed
      rw [joinWith_cons hnil, h.1.statementParts_append_semicolon hclosed.1,
        ih hnil h.2 hclosed.2]

theorem statements_joinWith {ss : List (List Char)} (h : ∀ s ∈ ss, IsStatement s)
    (hclosed : ∀ s ∈ ss.dropLast, IsClosed s) : statements (joinWith [';'] ss) = ss := by
  cases ss with
  | nil => rfl
  | cons s ss =>
    exact statements_of_parts h
      (statementParts_joinWith (List.cons_ne_nil s ss) (fun s hs => (h s hs).isUncut) hclosed)

/--
**Statements are in normal form.** None of the statements of a line is empty or has blanks around
it, each of them is its own only statement, all but the last end outside quotes, and joined by
semicolons they are cut into the same statements again.
-/
theorem statements_normalForm (line : List Char) :
    (∀ s ∈ statements line, s ≠ [] ∧ strip s = s ∧ statements s = [s]) ∧
      (∀ s ∈ (statements line).dropLast, Quoting.code.over s = .code) ∧
        statements (joinWith [';'] (statements line)) = statements line := by
  have hall : ∀ s ∈ statements line, IsStatement s := fun s => isStatement_of_mem
  have hclosed : ∀ s ∈ (statements line).dropLast, IsClosed s := fun s => isClosed_of_mem_dropLast
  refine ⟨fun s hs => ?_, hclosed, statements_joinWith hall hclosed⟩
  have hs := hall s hs
  exact ⟨hs.ne_nil, hs.strip_eq, hs.statements_eq⟩

/-- The last statement may end within quotes, and after a backslash. -/
example : statements "url \"a; b\" ;; x = 'c \\  # d".toList =
    ["url \"a; b\"".toList, "x = 'c \\  # d".toList] := by
  decide

end TapAudit.Script
