import Mathlib.Data.List.Forall2
import TapAudit.Proofs.Script.Action
import TapAudit.Proofs.Script.Contents
import TapAudit.Proofs.Text.Lines

/-!
# Rewording a line

A line is reworded when the contents of closed literals and of its comment are replaced, or a
comment is put at its end (`Reworded`). Its statements stay the same up to the contents of literals
(`statements_reworded`), so they act alike on the open blocks (`readStatements_requoted`).

The line can still change what follows it, because the opening of a heredoc is looked for in the
whole of the line, literals and comment included. That is the only way: the declarations on all
other lines stay, whatever lines follow, exactly if the reworded line opens the same heredoc as
before (`leavesElsewhere_iff`).
-/

namespace TapAudit.Script

open Text

/-- Two lines that differ at most in the contents of literals and of a comment, read on from a given
quoting. The second may have a comment where the first has none. -/
inductive Reworded : Quoting → List Char → List Char → Prop
  | nil (q : Quoting) : Reworded q [] []
  | char {q : Quoting} (c : Char) (hc : ¬ (q = .code ∧ c = '#')) {s t : List Char}
      (h : Reworded (q.after c) s t) : Reworded q (c :: s) (c :: t)
  | literal {mark : Char} {old new s t : List Char} (hmark : isQuote mark = true)
      (hold : Enclosed mark old) (hnew : Enclosed mark new) (h : Reworded .code s t) :
      Reworded .code (mark :: (old ++ mark :: s)) (mark :: (new ++ mark :: t))
  | comment (s t : List Char) : Reworded .code ('#' :: s) ('#' :: t)
  | added {blanks : List Char} (hblanks : ∀ c ∈ blanks, isBlank c = true) (t : List Char) :
      Reworded .code [] (blanks ++ '#' :: t)

theorem Reworded.append {front s t : List Char}
    (hfront : (front.all fun c => !isQuote c && c != '#') = true) (h : Reworded .code s t) :
    Reworded .code (front ++ s) (front ++ t) := by
  induction front with
  | nil => exact h
  | cons c front ih =>
    simp only [List.all_cons, Bool.and_eq_true, Bool.not_eq_true', bne_iff_ne] at hfront
    obtain ⟨⟨hquote, hcomment⟩, hfront⟩ := hfront
    refine .char c (fun hc => hcomment hc.2) ?_
    rw [Quoting.after_code hquote]
    exact ih (by simpa using hfront)

/-! ## Parts -/

/-- Parts of two lines that are the same up to the contents of literals. -/
inductive RequotedParts : Quoting → List (List Char) → List (List Char) → Prop
  | cons {q : Quoting} {s t : List Char} {ss ts : List (List Char)} (hfirst : Requoted q s t)
      (hrest : List.Forall₂ (Requoted .code) ss ts) : RequotedParts q (s :: ss) (t :: ts)

variable {q : Quoting} {s t : List Char}

theorem Requoted.isEmpty_eq (h : Requoted q s t) : s.isEmpty = t.isEmpty := by
  cases h <;> rfl

theorem Requoted.stripEnd_cons {c : Char} (h : Requoted (q.after c) (stripEnd s) (stripEnd t)) :
    Requoted q (stripEnd (c :: s)) (stripEnd (c :: t)) := by
  have hnil : stripEnd s = [] ↔ stripEnd t = [] := by
    rw [← List.isEmpty_iff, h.isEmpty_eq, List.isEmpty_iff]
  simp only [stripEnd_cons_eq, hnil]
  split
  · exact .nil q
  · exact .char c h

theorem Requoted.stripStart (h : Requoted .code s t) :
    Requoted .code (stripStart s) (stripStart t) := by
  generalize hq : Quoting.code = q at h
  induction h with
  | nil => exact .nil _
  | @char q c s t h ih =>
    subst hq
    cases hc : isBlank c with
    | false =>
      rw [stripStart_cons hc, stripStart_cons hc]
      exact .char c h
    | true =>
      rw [stripStart_cons_of_blank hc, stripStart_cons_of_blank hc]
      rw [Quoting.after_code (isQuote_of_isBlank hc)] at ih
      exact ih rfl
  | literal hmark hold hnew h =>
    rw [stripStart_cons (isBlank_of_isQuote hmark), stripStart_cons (isBlank_of_isQuote hmark)]
    exact .literal hmark hold hnew h

theorem RequotedParts.forall₂ {ss ts : List (List Char)} (h : RequotedParts .code ss ts) :
    List.Forall₂ (Requoted .code) ss ts := by
  obtain ⟨hfirst, hrest⟩ := h
  exact .cons hfirst hrest

theorem RequotedParts.extendFirst {c : Char} {ss ts : List (List Char)}
    (h : RequotedParts (q.after c) (ss.map stripEnd) (ts.map stripEnd)) :
    RequotedParts q ((extendFirst c ss).map stripEnd) ((extendFirst c ts).map stripEnd) := by
  cases ss with
  | nil => cases h
  | cons s ss =>
    cases ts with
    | nil => cases h
    | cons t ts =>
      obtain ⟨hfirst, hrest⟩ := h
      exact .cons hfirst.stripEnd_cons hrest

theorem statementParts_blanks {blanks : List Char} (h : ∀ c ∈ blanks, isBlank c = true)
    (comment : List Char) : statementParts .code (blanks ++ '#' :: comment) = [blanks] := by
  induction blanks with
  | nil => rfl
  | cons c blanks ih =>
    have hc := h c List.mem_cons_self
    rw [List.cons_append, statementParts_blank hc, Quoting.after_code (isQuote_of_isBlank hc),
      ih fun d hd => h d (List.mem_cons_of_mem _ hd), Script.extendFirst]

theorem statementParts_reworded (h : Reworded q s t) :
    RequotedParts q ((statementParts q s).map stripEnd) ((statementParts q t).map stripEnd) := by
  induction h with
  | nil q => exact .cons (.nil q) .nil
  | @char q c hc s t _ ih =>
    rw [statementParts, statementParts, if_neg hc, if_neg hc]
    split
    · next hend =>
      obtain ⟨rfl, rfl⟩ := hend
      exact .cons (.nil _) ih.forall₂
    · exact ih.extendFirst
  | @literal mark old new s t hmark hold hnew _ ih =>
    obtain ⟨p, ps, hs⟩ := exists_statementParts .code s
    obtain ⟨p', ps', ht⟩ := exists_statementParts .code t
    rw [hs, ht, List.map_cons, List.map_cons] at ih
    obtain ⟨hfirst, hrest⟩ := ih
    have hblank := isBlank_of_isQuote hmark
    rw [statementParts_closed hmark hold hs, statementParts_closed hmark hnew ht, List.map_cons,
      List.map_cons, ← List.cons_append, ← List.cons_append, stripEnd_append_cons hblank,
      stripEnd_append_cons hblank]
    exact .cons (.literal hmark hold hnew hfirst) hrest
  | comment s t => exact .cons (.nil _) .nil
  | added hblanks t =>
    have hnil := stripEnd_append_blanks [] hblanks
    rw [List.nil_append] at hnil
    rw [statementParts_blanks hblanks, List.map_singleton, hnil]
    exact .cons (.nil _) .nil

theorem statements_reworded (h : Reworded .code s t) :
    List.Forall₂ (Requoted .code) (statements s) (statements t) := by
  have hparts := (statementParts_reworded h).forall₂
  rw [statements, statements, map_strip_eq, map_strip_eq]
  have hstrip : Relator.LiftFun (Requoted .code) (Requoted .code) stripStart stripStart :=
    fun _ _ => Requoted.stripStart
  refine List.rel_filter (fun a b hab => ?_) (List.rel_map hstrip hparts)
  show (!a.isEmpty) = true ↔ (!b.isEmpty) = true
  rw [hab.isEmpty_eq]

/-! ## Walking on -/

namespace Walk

theorem readStatements_requoted (w : Walk) {ss ts : List (List Char)}
    (h : List.Forall₂ (Requoted .code) ss ts) :
    (w.readStatements ss).value.2 = (w.readStatements ts).value.2 := by
  induction h generalizing w with
  | nil => rfl
  | cons hfirst _ ih =>
    rw [readStatements_cons, readStatements_cons, Moment.next, Moment.next, state_requoted w hfirst,
      ih]

end Walk

/-! ## The reworded line -/

open Walk

theorem Reworded.eq_of_plain (h : Reworded .code s t)
    (ht : ∀ c ∈ t, isQuote c = false ∧ c ≠ '#') : s = t := by
  generalize hq : Quoting.code = q at h
  induction h with
  | nil => rfl
  | @char q c _ s t _ ih =>
    subst hq
    rw [Quoting.after_code (ht c List.mem_cons_self).1] at ih
    rw [ih (fun d hd => ht d (List.mem_cons_of_mem _ hd)) rfl]
  | @literal mark _ _ _ _ hmark =>
    rw [(ht mark List.mem_cons_self).1] at hmark
    cases hmark
  | comment => exact absurd rfl (ht '#' List.mem_cons_self).2
  | @added blanks => exact absurd rfl (ht '#' (by simp)).2

theorem Reworded.isMarker (h : Reworded .code s t) (ht : IsMarker t) : IsMarker s := by
  rw [h.eq_of_plain]
  · exact ht
  · intro c hc
    have hplain : ("__END__".toList.all fun d => !isQuote d && d != '#') = true := by decide
    rcases isBlank_or_mem_strip hc with hblank | hmem
    · exact ⟨isQuote_of_isBlank hblank, ne_of_isBlank hblank (.inl rfl)⟩
    · rw [ht] at hmem
      simpa using List.all_eq_true.mp hplain c hmem

/-- The declarations that do not stand on a line. -/
def elsewhere (line : Nat) (ds : List Declaration) : List Declaration :=
  ds.filter (·.line ≠ line)

theorem elsewhere_append (line : Nat) (ds es : List Declaration) :
    elsewhere line (ds ++ es) = elsewhere line ds ++ elsewhere line es :=
  List.filter_append ..

theorem elsewhere_readLine (w : Walk) (raw : List Char) :
    elsewhere (w.line + 1) (w.readLine raw).value.1 = [] := by
  rw [elsewhere, List.filter_eq_nil_iff]
  intro d hd
  simp [line_of_mem_readLine hd]

theorem elsewhere_found {w : Walk} {line : Nat} (h : line ≤ w.line) (raws : List (List Char)) :
    elsewhere line (w.found raws) = w.found raws := by
  rw [elsewhere, List.filter_eq_self]
  intro d hd
  have hline := line_of_mem_found hd
  have hne : d.line ≠ line := by omega
  simpa using hne

theorem after_reworded {w : Walk} (hw : w.IsReading) (hs : ¬ IsMarker s)
    (h : Reworded .code s t) :
    ∃ w' : Walk, w'.stopped = false ∧
      (w.readLine s).value.2 = { w' with heredoc := opened? s } ∧
      (w.readLine t).value.2 = { w' with heredoc := opened? t } := by
  have ht : ¬ IsMarker t := fun ht => hs (h.isMarker ht)
  refine ⟨(w.nextLine.readStatements (statements s)).value.2, ?_, ?_, ?_⟩
  · rw [stopped_readStatements]
    exact hw.1
  · rw [readLine_reading hw hs, statements_strip]
  · rw [readLine_reading hw ht, statements_strip, readStatements_requoted _ (statements_reworded h)]

/-! ## What follows the line -/

theorem isWord_of_mem_heredocHere {text name : List Char} (h : heredocHere? text = some name) :
    ∀ c ∈ name, isWord c = true := by
  rw [heredocHere?] at h
  obtain ⟨rest, -, h⟩ := Option.bind_eq_some_iff.mp h
  dsimp only at h
  obtain ⟨first, -, h⟩ := Option.bind_eq_some_iff.mp h
  obtain ⟨-, -, h⟩ := Option.bind_eq_some_iff.mp h
  -- Whatever opens the heredoc, its name is a run of capitals, underscores and digits.
  have hname : ∃ text : List Char, name = text.takeWhile fun c =>
      decide ((('A' ≤ c ∧ c ≤ 'Z') ∨ c = '_') ∨ ('0' ≤ c ∧ c ≤ '9')) := by
    repeat' split at h
    all_goals first
      | exact ⟨_, (Option.some.inj h).symm⟩
      | cases h
  obtain ⟨text, rfl⟩ := hname
  intro c hc
  have hc := List.mem_takeWhile_imp hc
  rw [decide_eq_true_iff] at hc
  rcases hc with (hupper | rfl) | hdigit
  · exact isWord_of_isUpper (decide_eq_true hupper)
  · exact isWord_underscore
  · exact isWord_of_isDigit (Bool.and_eq_true_iff.mpr (hdigit.imp decide_eq_true decide_eq_true))

theorem isWord_of_mem_opened {raw name : List Char} (h : opened? raw = some name) :
    ∀ c ∈ name, isWord c = true := by
  rw [opened?] at h
  split at h
  · cases h
  · obtain ⟨before, suffix, -, hread⟩ := exists_of_firstMatch h
    exact isWord_of_mem_heredocHere hread

/-- A line that declares something wherever it is read. -/
def probe : List Char := "def f".toList

theorem found_within_heredoc (w : Walk) (terminator raw : List Char) :
    found { w with heredoc := some terminator } [raw] = [] := by
  rw [found_cons, found_nil, List.append_nil, readLine_passedOver fun h => by cases h.1.2]

theorem length_found_probe {w : Walk} (hw : w.stopped = false) (t : Option (List Char)) :
    (found { w with heredoc := t } [probe]).length = if t = none then 1 else 0 := by
  cases t with
  | none =>
    have hstatements : statements (strip probe) = [probe] := by decide
    have haction : action probe = .declare .otherMethod ['f'] true := by decide
    have hreading : IsReading { w with heredoc := none } := ⟨hw, rfl⟩
    rw [found_cons, readLine_reading hreading (by decide), hstatements, readStatements_singleton,
      haction]
    rfl
  | some terminator => rw [found_within_heredoc, if_neg (by simp), List.length_nil]

theorem after_terminator {w : Walk} {terminator name : List Char} (hw : w.stopped = false)
    (hname : ∀ c ∈ name, isWord c = true) :
    (after { w with heredoc := some terminator } [name]) =
      { w.nextLine with heredoc := if name = terminator then none else some terminator } := by
  have hstrip : strip name = name :=
    strip_eq_self (fun c hc => isBlank_of_isWord (hname c (List.mem_of_mem_head? hc)))
      fun c hc => isBlank_of_isWord (hname c (List.mem_of_mem_getLast? hc))
  rw [after_cons, after_nil, readLine_passedOver fun h => by cases h.1.2]
  simp [passOver, nextLine, hw, hstrip, eq_comm]

/-- Heredocs with different ends are told apart by what is declared after them. -/
theorem exists_back {w : Walk} (hw : w.stopped = false) {t₁ t₂ : Option (List Char)}
    (h₁ : ∀ name ∈ t₁, ∀ c ∈ name, isWord c = true) (hne : t₁ ≠ t₂) :
    ∃ back, (∀ raw ∈ back, '\n' ∉ raw) ∧
      (found { w with heredoc := t₁ } back).length ≠
        (found { w with heredoc := t₂ } back).length := by
  have hprobe : '\n' ∉ probe := by decide
  cases t₁ with
  | none =>
    refine ⟨[probe], by simpa using hprobe, ?_⟩
    rw [length_found_probe hw, length_found_probe hw, if_pos rfl, if_neg (Ne.symm hne)]
    decide
  | some name =>
    have hname := h₁ name rfl
    cases t₂ with
    | none =>
      refine ⟨[probe], by simpa using hprobe, ?_⟩
      rw [length_found_probe hw, length_found_probe hw, if_pos rfl, if_neg hne]
      decide
    | some terminator =>
      have hfeed : '\n' ∉ name := fun hmem => absurd (hname _ hmem) (by decide)
      have hends : name ≠ terminator := fun heq => hne (congrArg some heq)
      have hnext : w.nextLine.stopped = false := hw
      -- The name ends the one heredoc and is a line of the other.
      refine ⟨[name] ++ [probe], by simpa using ⟨hfeed, hprobe⟩, ?_⟩
      rw [found_append, found_append, found_within_heredoc, found_within_heredoc,
        after_terminator hw hname, after_terminator hw hname, if_pos rfl, if_neg hends,
        List.nil_append, List.nil_append, length_found_probe hnext, length_found_probe hnext]
      simp

/-- However a script that starts with some lines goes on, its next line can be replaced without
changing what is declared on all the others. -/
def LeavesElsewhere (front : List (List Char)) (old new : List Char) : Prop :=
  ∀ text text' back, lines text = front ++ old :: back → lines text' = front ++ new :: back →
    elsewhere (front.length + 1) (declarations text').value =
      elsewhere (front.length + 1) (declarations text).value

/--
**Rewording a line.** Let a line that is read as code be reworded. The declarations on all the other
lines stay the same, whatever follows the line, exactly if it opens the same heredoc as before or,
as before, none.
-/
theorem leavesElsewhere_iff {front : List (List Char)} {old new : List Char}
    (hfeed : ∀ raw ∈ old :: new :: front, '\n' ∉ raw) (hreading : (after {} front).IsReading)
    (hmarker : ¬ IsMarker old) (h : Reworded .code old new) :
    LeavesElsewhere front old new ↔ opened? new = opened? old := by
  obtain ⟨w, hstopped, hold, hnew⟩ := after_reworded hreading hmarker h
  -- The declarations of the line itself drop out, and none of those after it.
  have hsplit (raw : List Char) (back : List (List Char)) :
      elsewhere (front.length + 1) (found {} (front ++ raw :: back)) =
        elsewhere (front.length + 1) (found {} front) ++
          found ((after {} front).readLine raw).value.2 back := by
    have hline : (after {} front).line = front.length := by
      rw [line_after]
      simp
    have hhere := elsewhere_readLine (after {} front) raw
    have hthere := elsewhere_found (le_of_eq (line_readLine (after {} front) raw).symm) back
    rw [hline] at hhere hthere
    rw [found_append, found_cons, elsewhere_append, elsewhere_append, hhere, hthere,
      List.nil_append]
  constructor
  · intro hall
    by_contra hne
    obtain ⟨back, hback, hlength⟩ := exists_back hstopped
      (fun name hname => isWord_of_mem_opened hname) hne
    have hlines (raw : List Char) (hraw : raw ∈ [old, new]) :
        lines (joinWith ['\n'] (front ++ raw :: back)) = front ++ raw :: back := by
      refine splitOn_joinWith (by simp) fun part hpart => ?_
      simp only [List.mem_append, List.mem_cons] at hpart
      rcases hpart with hpart | rfl | hpart
      · exact hfeed part (by simp [hpart])
      · exact hfeed part (by simp at hraw; rcases hraw with rfl | rfl <;> simp)
      · exact hback part hpart
    have hsame := hall _ _ back (hlines old (by simp)) (hlines new (by simp))
    rw [declarations_value, declarations_value, hlines _ (by simp), hlines _ (by simp), hsplit,
      hsplit, hold, hnew] at hsame
    exact hlength (congrArg List.length (List.append_cancel_left hsame))
  · intro hsame text text' back htext htext'
    rw [declarations_value, declarations_value, htext, htext', hsplit, hsplit, hold, hnew, hsame]

/-- Another description and a comment do no harm, but a comment that looks like the opening of a
heredoc does. -/
theorem leavesElsewhere_comment :
    LeavesElsewhere ["class Foo < Formula".toList] "  desc \"Foo\"".toList
        "  desc \"Bar\" # see also Baz".toList ∧
      ¬ LeavesElsewhere ["class Foo < Formula".toList] "  desc \"Foo\"".toList
        "  desc \"Foo\" # see <<EOS".toList := by
  have hreworded (content : List Char) (comment : List Char) (hcontent : IsContent content) :
      Reworded .code ("  desc ".toList ++ '"' :: ("Foo".toList ++ '"' :: []))
        ("  desc ".toList ++ '"' :: (content ++ '"' :: ([' '] ++ '#' :: comment))) := by
    have hdesc : ("  desc ".toList.all fun c => !isQuote c && c != '#') = true := by decide
    have hfoo : IsContent "Foo".toList := by decide
    have hblank : ∀ c ∈ [' '], isBlank c = true := List.forall_mem_singleton.mpr (by decide)
    have hcomment : Reworded .code [] ([' '] ++ '#' :: comment) := .added hblank comment
    exact .append hdesc (.literal (by decide) hfoo.enclosed hcontent.enclosed hcomment)
  constructor
  · refine (leavesElsewhere_iff (by decide) (by decide) (by decide) ?_).mpr (by decide)
    exact hreworded "Bar".toList " see also Baz".toList (by decide)
  · refine (leavesElsewhere_iff (by decide) (by decide) (by decide) ?_).not.mpr (by decide)
    exact hreworded "Foo".toList " see <<EOS".toList (by decide)

end TapAudit.Script
