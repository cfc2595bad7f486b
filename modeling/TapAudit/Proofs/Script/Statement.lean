import Mathlib.Tactic.Common
import TapAudit.Proofs.Text.Blank
import TapAudit.Proofs.Text.Search
import TapAudit.Script.Marker
import TapAudit.Script.Statement

/-!
# Statements of a line

A closed literal stays in one statement, whatever it encloses (`statementParts_closed`), and making
it empty touches nothing else (`blankLiterals_closed`). So a line made of plain code and closed
literals is a single statement. The blanks around a line are no part of its statements
(`statements_strip`).
-/

namespace TapAudit.Script

open Text

/-! ## Quotes -/

theorem eq_of_isQuote {mark : Char} (h : isQuote mark = true) : mark = '\'' ∨ mark = '"' := by
  rwa [isQuote, Bool.or_eq_true, beq_iff_eq, beq_iff_eq] at h

theorem isBlank_of_isQuote {mark : Char} (h : isQuote mark = true) : isBlank mark = false := by
  rcases eq_of_isQuote h with rfl | rfl <;> decide

theorem isWord_of_isQuote {mark : Char} (h : isQuote mark = true) : isWord mark = false := by
  rcases eq_of_isQuote h with rfl | rfl <;> decide

theorem ne_slash_of_isQuote {mark : Char} (h : isQuote mark = true) : mark ≠ '\\' := by
  rintro rfl
  exact absurd h (by decide)

theorem isQuote_of_isBlank {c : Char} (h : isBlank c = true) : isQuote c = false := by
  cases hc : isQuote c with
  | false => rfl
  | true => rw [isBlank_of_isQuote hc] at h; cases h

theorem ne_of_isBlank {c d : Char} (h : isBlank c = true) (hd : d = '#' ∨ d = ';') : c ≠ d := by
  rintro rfl
  rcases hd with rfl | rfl <;> exact absurd h (by decide)

/-- No quote stands in the text. -/
def isUnquoted (text : List Char) : Bool :=
  text.all fun c => !isQuote c

theorem of_isUnquoted {text : List Char} (h : isUnquoted text = true) :
    ∀ c ∈ text, isQuote c = false := by
  intro c hc
  have hquote := List.all_eq_true.mp h c hc
  rwa [Bool.not_eq_true'] at hquote

/-! ## Quoting -/

theorem Quoting.after_code {c : Char} (h : isQuote c = false) : Quoting.code.after c = .code := by
  simp [Quoting.after, h]

theorem Quoting.after_quote {c : Char} (h : isQuote c = true) :
    Quoting.code.after c = .quoted c := by
  simp [Quoting.after, h]

theorem Quoting.after_mark {mark : Char} (h : mark ≠ '\\') :
    (Quoting.quoted mark).after mark = .code := by
  simp [Quoting.after, h]

theorem Quoting.after_plain {mark c : Char} (hc : c ≠ '\\') (hmark : c ≠ mark) :
    (Quoting.quoted mark).after c = .quoted mark := by
  simp [Quoting.after, hc, hmark]

/-! ## Literals -/

/-- A text that can stand between two marks of one kind: no mark in it is bare, and no backslash
takes the closing mark along. -/
inductive Enclosed (mark : Char) : List Char → Prop
  | nil : Enclosed mark []
  | escaped (c : Char) {rest : List Char} (h : Enclosed mark rest) :
      Enclosed mark ('\\' :: c :: rest)
  | plain {c : Char} {rest : List Char} (hslash : c ≠ '\\') (hmark : c ≠ mark)
      (h : Enclosed mark rest) : Enclosed mark (c :: rest)

theorem enclosed_of_forall {mark : Char} {content : List Char}
    (h : ∀ c ∈ content, c ≠ mark ∧ c ≠ '\\') : Enclosed mark content := by
  induction content with
  | nil => exact .nil
  | cons c content ih =>
    obtain ⟨hmark, hslash⟩ := h c List.mem_cons_self
    exact .plain hslash hmark (ih fun d hd => h d (List.mem_cons_of_mem _ hd))

/-- A text that can stand between double quotes. -/
def IsContent (text : List Char) : Prop :=
  ∀ c ∈ text, c ≠ '"' ∧ c ≠ '\\'

instance (text : List Char) : Decidable (IsContent text) :=
  List.decidableBAll (fun c => c ≠ '"' ∧ c ≠ '\\') text

theorem IsContent.enclosed {content : List Char} (h : IsContent content) :
    Enclosed '"' content :=
  enclosed_of_forall h

/-- A text between double quotes. -/
def literal (content : List Char) : List Char :=
  '"' :: (content ++ ['"'])

theorem afterLiteral?_cons {mark c : Char} (hc : c ≠ '\\') (rest : List Char) :
    afterLiteral? mark (c :: rest) = if c = mark then some rest else afterLiteral? mark rest := by
  rw [afterLiteral?]
  · rintro rfl
    exact absurd rfl hc
  · rintro _ _ rfl
    exact absurd rfl hc

theorem Enclosed.afterLiteral? {mark : Char} {content : List Char} (hmark : mark ≠ '\\')
    (h : Enclosed mark content) (rest : List Char) :
    afterLiteral? mark (content ++ mark :: rest) = some rest := by
  induction h with
  | nil => rw [List.nil_append, afterLiteral?_cons hmark, if_pos rfl]
  | escaped c _ ih =>
    rw [List.cons_append, List.cons_append, Script.afterLiteral?]
    exact ih
  | plain hslash hne _ ih =>
    rw [List.cons_append, afterLiteral?_cons hslash, if_neg hne]
    exact ih

theorem blankLiterals_cons {c : Char} (hc : isQuote c = false) (rest : List Char) :
    blankLiterals (c :: rest) = c :: blankLiterals rest := by
  rw [blankLiterals, if_neg (by simp [hc])]

theorem blankLiterals_closed {c : Char} {rest tail : List Char} (hc : isQuote c = true)
    (h : afterLiteral? c rest = some tail) :
    blankLiterals (c :: rest) = '"' :: '"' :: blankLiterals tail := by
  rw [blankLiterals, if_pos hc]
  split
  · next found hfound =>
    rw [h, Option.some.injEq] at hfound
    rw [hfound]
  · next hnone =>
    rw [h] at hnone
    cases hnone

theorem blankLiterals_literal {content : List Char} (h : IsContent content) (rest : List Char) :
    blankLiterals (literal content ++ rest) = '"' :: '"' :: blankLiterals rest := by
  have hafter := h.enclosed.afterLiteral? (by decide) rest
  rw [literal, List.cons_append, List.append_assoc, List.singleton_append]
  exact blankLiterals_closed (by decide) hafter

theorem blankLiterals_append {front : List Char} (h : ∀ c ∈ front, isQuote c = false)
    (rest : List Char) : blankLiterals (front ++ rest) = front ++ blankLiterals rest := by
  induction front with
  | nil => rfl
  | cons c front ih =>
    rw [List.cons_append, blankLiterals_cons (h c (by simp)), ih fun d hd => h d (by simp [hd]),
      List.cons_append]

theorem blankLiterals_of_unquoted {text : List Char} (h : ∀ c ∈ text, isQuote c = false) :
    blankLiterals text = text := by
  have hnil : blankLiterals [] = [] := by rw [blankLiterals]
  simpa [hnil] using blankLiterals_append h []

/-! ## Statements -/

theorem exists_statementParts (q : Quoting) (text : List Char) :
    ∃ part parts, statementParts q text = part :: parts := by
  cases text with
  | nil => exact ⟨[], [], rfl⟩
  | cons c rest =>
    rw [statementParts]
    split
    · exact ⟨[], [], rfl⟩
    · split
      · exact ⟨[], _, rfl⟩
      · cases statementParts (q.after c) rest with
        | nil => exact ⟨[c], [], rfl⟩
        | cons part parts => exact ⟨c :: part, parts, rfl⟩

theorem prefix_of_statementParts {q : Quoting} {text part : List Char} {parts : List (List Char)}
    (h : statementParts q text = part :: parts) : part <+: text := by
  induction text generalizing q part parts with
  | nil =>
    cases h
    exact List.prefix_rfl
  | cons c text ih =>
    rw [statementParts] at h
    split at h
    · cases h
      exact List.nil_prefix
    · split at h
      · cases h
        exact List.nil_prefix
      · obtain ⟨first, others, hrest⟩ := exists_statementParts (q.after c) text
        rw [hrest, extendFirst] at h
        cases h
        exact List.cons_prefix_cons.mpr ⟨rfl, ih hrest⟩

theorem statementParts_blank {c : Char} (hc : isBlank c = true) (q : Quoting)
    (text : List Char) :
    statementParts q (c :: text) = extendFirst c (statementParts (q.after c) text) := by
  rw [statementParts, if_neg fun h => ne_of_isBlank hc (.inl rfl) h.2,
    if_neg fun h => ne_of_isBlank hc (.inr rfl) h.2]

theorem statementParts_enclosed {mark : Char} {content rest part : List Char}
    {parts : List (List Char)} (hmark : mark ≠ '\\') (h : Enclosed mark content)
    (hrest : statementParts .code rest = part :: parts) :
    statementParts (.quoted mark) (content ++ mark :: rest) =
      (content ++ mark :: part) :: parts := by
  have hstep (q : Quoting) (c : Char) (text : List Char) (hq : q ≠ .code) :
      statementParts q (c :: text) = extendFirst c (statementParts (q.after c) text) := by
    rw [statementParts, if_neg fun h => hq h.1, if_neg fun h => hq h.1]
  induction h with
  | nil =>
    rw [List.nil_append, hstep _ _ _ (by simp), Quoting.after_mark hmark, hrest]
    rfl
  | escaped c _ ih =>
    rw [List.cons_append, List.cons_append, hstep _ _ _ (by simp)]
    rw [show (Quoting.quoted mark).after '\\' = .escaped mark from rfl, hstep _ _ _ (by simp)]
    rw [show (Quoting.escaped mark).after c = .quoted mark from rfl, ih]
    rfl
  | plain hslash hne _ ih =>
    rw [List.cons_append, hstep _ _ _ (by simp), Quoting.after_plain hslash hne, ih]
    rfl

theorem statementParts_closed {mark : Char} {content rest part : List Char}
    {parts : List (List Char)} (hmark : isQuote mark = true) (h : Enclosed mark content)
    (hrest : statementParts .code rest = part :: parts) :
    statementParts .code (mark :: (content ++ mark :: rest)) =
      (mark :: (content ++ mark :: part)) :: parts := by
  rw [statementParts, if_neg, if_neg, Quoting.after_quote hmark,
    statementParts_enclosed (ne_slash_of_isQuote hmark) h hrest, extendFirst]
  all_goals
    rintro ⟨-, rfl⟩
    exact absurd hmark (by decide)

/-- Characters of code that neither quote nor end a statement. -/
def isPlain (c : Char) : Bool :=
  !isQuote c && c != '#' && c != ';'

theorem isQuote_of_isPlain {c : Char} (h : isPlain c = true) : isQuote c = false := by
  simp only [isPlain, Bool.and_eq_true, Bool.not_eq_true'] at h
  exact h.1.1

theorem isPlain_of_isWord {c : Char} (h : isWord c = true) : isPlain c = true := by
  have hmarks : (['\'', '"', '#', ';'].all fun d => !isWord d) = true := by decide
  have hne : ∀ d ∈ ['\'', '"', '#', ';'], c ≠ d := by
    rintro d hd rfl
    have hmark := List.all_eq_true.mp hmarks c hd
    rw [h] at hmark
    cases hmark
  simp [isPlain, isQuote, hne]

theorem isPlain_of_isBlank {c : Char} (h : isBlank c = true) : isPlain c = true := by
  simp [isPlain, isQuote_of_isBlank h, ne_of_isBlank h]

theorem statementParts_plain {c : Char} {rest part : List Char} {parts : List (List Char)}
    (hc : isPlain c = true) (h : statementParts .code rest = part :: parts) :
    statementParts .code (c :: rest) = (c :: part) :: parts := by
  simp only [isPlain, Bool.and_eq_true, Bool.not_eq_true', bne_iff_ne, ne_eq] at hc
  obtain ⟨⟨hquote, hcomment⟩, hend⟩ := hc
  rw [statementParts, if_neg (by simp [hcomment]), if_neg (by simp [hend])]
  simp [Quoting.after, hquote, h, extendFirst]

theorem statementParts_plain_append {front rest part : List Char} {parts : List (List Char)}
    (hfront : ∀ c ∈ front, isPlain c = true) (h : statementParts .code rest = part :: parts) :
    statementParts .code (front ++ rest) = (front ++ part) :: parts := by
  induction front with
  | nil => exact h
  | cons c front ih =>
    exact statementParts_plain (hfront c (by simp)) (ih fun d hd => hfront d (by simp [hd]))

theorem statementParts_literal_append {content rest : List Char} (hcontent : IsContent content)
    (h : statementParts .code rest = [rest]) :
    statementParts .code (literal content ++ rest) = [literal content ++ rest] := by
  rw [literal, List.cons_append, List.append_assoc, List.singleton_append]
  exact statementParts_closed (by decide) hcontent.enclosed h

theorem statementParts_of_plain {text : List Char} (h : ∀ c ∈ text, isPlain c = true) :
    statementParts .code text = [text] := by
  have hnil : statementParts .code [] = [[]] := rfl
  simpa using statementParts_plain_append h hnil

theorem statementParts_literal {content : List Char} (h : IsContent content) :
    statementParts .code (literal content) = [literal content] := by
  have hnil : statementParts .code [] = [[]] := rfl
  simpa using statementParts_literal_append h hnil

/-! ## Blanks around a line -/

theorem map_strip_stripStart (text : List Char) :
    (statementParts .code (stripStart text)).map strip =
      (statementParts .code text).map strip := by
  induction text with
  | nil => rfl
  | cons c text ih =>
    cases hc : isBlank c with
    | false => rw [stripStart_cons hc]
    | true =>
      obtain ⟨part, parts, hparts⟩ := exists_statementParts .code text
      rw [stripStart_cons_of_blank hc, ih, statementParts_blank hc,
        Quoting.after_code (isQuote_of_isBlank hc), hparts, extendFirst, List.map_cons,
        List.map_cons, strip, strip, stripStart_cons_of_blank hc]

theorem map_stripEnd_extendFirst (c : Char) {ps qs : List (List Char)}
    (h : ps.map stripEnd = qs.map stripEnd) :
    (extendFirst c ps).map stripEnd = (extendFirst c qs).map stripEnd := by
  cases ps with
  | nil =>
    rw [List.map_eq_nil_iff.mp h.symm]
  | cons p ps =>
    cases qs with
    | nil => cases h
    | cons q qs =>
      obtain ⟨hfirst, hrest⟩ := List.cons.inj h
      rw [extendFirst, extendFirst, List.map_cons, List.map_cons, stripEnd_cons_eq,
        stripEnd_cons_eq, hfirst, hrest]

theorem map_stripEnd_stripEnd (q : Quoting) (text : List Char) :
    (statementParts q (stripEnd text)).map stripEnd =
      (statementParts q text).map stripEnd := by
  induction text generalizing q with
  | nil => rfl
  | cons c text ih =>
    rw [stripEnd_cons_eq]
    split
    · next h =>
      have hrest := ih (q.after c)
      rw [h.2] at hrest
      rw [statementParts_blank h.1, ← map_stripEnd_extendFirst c hrest]
      simp [statementParts, extendFirst, stripEnd, h.1]
    · rw [statementParts, statementParts]
      split
      · rfl
      · split
        · rw [List.map_cons, List.map_cons, ih]
        · exact map_stripEnd_extendFirst c (ih _)

theorem map_strip_eq (parts : List (List Char)) :
    parts.map strip = (parts.map stripEnd).map stripStart := by
  rw [List.map_map]
  exact List.map_congr_left fun part _ => strip_eq_stripStart_stripEnd part

theorem statements_strip (raw : List Char) : statements (strip raw) = statements raw := by
  rw [statements, statements, strip_eq_stripStart_stripEnd, map_strip_stripStart, map_strip_eq,
    map_stripEnd_stripEnd, ← map_strip_eq]

/-! ## Heredocs -/

theorem heredoc?_eq_none {line : List Char} (h : ¬ "<<".toList <:+: line) :
    heredoc? line = none := by
  refine firstMatch_eq_none none fun suffix hsuffix _ => ?_
  have hnone : after? "<<" suffix = none := by
    cases hafter : after? "<<" suffix with
    | none => rfl
    | some rest =>
      have hstarts : "<<".toList <+: suffix :=
        ⟨rest, (after?_eq_some_iff.mp hafter).symm⟩
      exact absurd (hstarts.isInfix.trans hsuffix.isInfix) h
  rw [heredocHere?, hnone]
  rfl

end TapAudit.Script
