import TapAudit.Proofs.Script.ClassHeader
import TapAudit.Proofs.Script.Insertion
import TapAudit.Proofs.Script.LineSearch

/-!
# Exchanging attributes

Two attributes that stand on lines next to each other may change places. Each of them then declares
what it declared before, with the number of the other line (`declarations_exchange`), since neither
opens or closes anything.

A header of a formula class that is not complete in front of the two lines may go on where the first
of them starts. There one attribute is as good as another (`startsFormulaClass_feed`), but not as
good as a semicolon. So the class is found as before if both lines or neither of them start with a
semicolon (`isFormula_exchange`).
-/

namespace TapAudit.Script

open Text

/-! ## Attributes -/

/-- The words that declare an attribute, with what they declare. -/
def attributeWords : List (String × Kind) :=
  ("version", .version) :: attributeKinds

/-- A line that consists of one statement, which declares an attribute, and opens no heredoc. -/
structure AttributeLine where
  raw : List Char
  statement : List Char
  word : String
  argument : List Char
  kind : Kind
  statements_eq : statements raw = [statement]
  call_eq : call? statement = some (word.toList, argument)
  mem_attributeWords : (word, kind) ∈ attributeWords
  action_eq : action statement = .declare kind argument false
  heredoc_eq : heredoc? (strip raw) = none

/-- There is a semicolon in front of the statement. -/
def AttributeLine.startsWithSemicolon (a : AttributeLine) : Bool :=
  startsWith ";" (strip a.raw)

theorem prefix_of_call {statement word argument : List Char}
    (h : call? statement = some (word, argument)) : word <+: statement := by
  cases statement with
  | nil => cases h
  | cons c rest =>
    have hrest := List.takeWhile_append_dropWhile (p := fun c : Char => c.isAlphanum || c == '_')
      (l := rest)
    rw [call?, Option.ite_none_right_eq_some] at h
    replace h := h.2
    cases hdrop : rest.dropWhile fun c => c.isAlphanum || c == '_' with
    | nil =>
      simp only [hdrop] at h
      rw [← (Prod.mk.inj (Option.some.inj h)).1]
      exact List.cons_prefix_cons.mpr ⟨rfl, List.takeWhile_prefix _⟩
    | cons m tail =>
      rw [hdrop] at hrest
      by_cases hmark : m = '?' ∨ m = '!'
      · -- the mark is the last character of the word
        simp only [hdrop, hmark, if_true] at h
        have hword : c :: (rest.takeWhile fun c => c.isAlphanum || c == '_') ++ [m] = word := by
          cases tail with
          | nil => exact (Prod.mk.inj (Option.some.inj h)).1
          | cons blank tail =>
            rw [Option.ite_none_right_eq_some] at h
            exact (Prod.mk.inj (Option.some.inj h.2)).1
        rw [← hword, List.cons_append, List.cons_prefix_cons]
        refine ⟨rfl, tail, ?_⟩
        rw [List.append_assoc, List.singleton_append, hrest]
      · simp only [hdrop, hmark, if_false] at h
        rw [Option.ite_none_right_eq_some] at h
        rw [← (Prod.mk.inj (Option.some.inj h.2)).1]
        exact List.cons_prefix_cons.mpr ⟨rfl, List.takeWhile_prefix _⟩

/-! ## What is declared -/

/-- The state after a line that makes one declaration. -/
def Walk.declaredOne (w : Walk) : Walk :=
  { w with line := w.line + 1, declared := w.declared + 1 }

namespace AttributeLine

variable (a b : AttributeLine)

/-- What the line declares. -/
def declaration (line : Nat) (parent : Option Nat) : Declaration :=
  { kind := a.kind, line, parent, argument := a.argument, opensBlock := false }

theorem readLine {w : Walk} (hw : w.IsReading) :
    (w.readLine a.raw).value = ([a.declaration (w.line + 1) w.parent], w.declaredOne) := by
  have hactions : Walk.actions a.raw = [.declare a.kind a.argument false] := by
    rw [Walk.actions, a.statements_eq, List.map_singleton, a.action_eq]
  have hopened : Walk.opened? a.raw = none := by
    rw [Walk.opened?, a.heredoc_eq, ite_self]
  rw [Walk.readLine_reading hw (Walk.exists_first hactions (by simp)).1, statements_strip,
    a.statements_eq, Walk.readStatements_singleton, a.action_eq, hopened, ← hw.2]
  rfl

theorem found {w : Walk} (hw : w.IsReading) (back : List (List Char)) :
    w.found (a.raw :: b.raw :: back) =
      a.declaration (w.line + 1) w.parent :: b.declaration (w.line + 2) w.parent ::
        w.declaredOne.declaredOne.found back := by
  have hnext : w.declaredOne.IsReading := hw
  rw [Walk.found_cons, a.readLine hw, Walk.found_cons, b.readLine hnext]
  rfl

end AttributeLine

open Walk

variable {text text' : List Char} {front back : List (List Char)}

theorem declarations_exchange (a b : AttributeLine)
    (htext : lines text = front ++ a.raw :: b.raw :: back)
    (htext' : lines text' = front ++ b.raw :: a.raw :: back)
    (hreading : (after {} front).IsReading) :
    ∃ before behind line parent,
      (declarations text).value =
        before ++ a.declaration line parent :: b.declaration (line + 1) parent :: behind ∧
      (declarations text').value =
        before ++ b.declaration line parent :: a.declaration (line + 1) parent :: behind := by
  refine ⟨found {} front, (after {} front).declaredOne.declaredOne.found back,
    (after {} front).line + 1, (after {} front).parent, ?_, ?_⟩
  · rw [declarations_value, htext, found_append, a.found b hreading]
  · rw [declarations_value, htext', found_append, b.found a hreading]

/-! ## The start of a line -/

theorem isBlank_head_strip {text rest : List Char} {c : Char} (h : strip text = c :: rest) :
    isBlank c = false := by
  obtain ⟨tail, htail⟩ : strip text <+: stripStart text := List.rdropWhile_prefix isBlank _
  rw [h, List.cons_append] at htail
  exact isBlank_head_stripStart htail.symm

theorem prefix_of_statements {raw statement : List Char} {others : List (List Char)}
    (h : statements raw = statement :: others) (hstart : startsWith ";" (strip raw) = false) :
    statement <+: strip raw := by
  rw [← statements_strip] at h
  cases hraw : strip raw with
  | nil =>
    rw [hraw] at h
    cases h
  | cons c rest =>
    rw [hraw] at h hstart
    have hblank : isBlank c = false := isBlank_head_strip hraw
    have hcomment : c ≠ '#' := by
      rintro rfl
      rw [Walk.statements_of_comment rfl] at h
      cases h
    have hsemicolon : c ≠ ';' := by
      rintro rfl
      cases hstart
    -- so the first part is not empty, and it is the first statement but for blanks at its end
    obtain ⟨part, parts, hparts⟩ := exists_statementParts (Quoting.code.after c) rest
    have hcut : statementParts .code (c :: rest) = (c :: part) :: parts := by
      rw [statementParts, if_neg fun h => hcomment h.2, if_neg fun h => hsemicolon h.2, hparts]
      rfl
    have hstrip : strip (c :: part) = c :: stripEnd part := by
      rw [strip, stripStart_cons hblank, stripEnd_cons hblank]
    rw [statements, hcut, List.map_cons, hstrip, List.filter_cons_of_pos rfl] at h
    rw [← (List.cons.inj h).1, ← stripEnd_cons hblank]
    exact (List.rdropWhile_prefix isBlank _).trans (prefix_of_statementParts hcut)

/-- Behind blanks the text starts with a character that is no part of a class header, unless it is
the start of a superclass, and not with the word `class`. -/
def StartsAside (fits : Bool) (text : List Char) : Prop :=
  ∃ c rest, stripStart text = c :: rest ∧ ¬ ('A' ≤ c ∧ c ≤ 'Z') ∧ c ≠ '<' ∧
    (isWord c || c == ':') = fits ∧ ∀ more, after? "class" (c :: (rest ++ more)) = none

variable {fits : Bool} {s t : List Char}

theorem StartsAside.append (h : StartsAside fits s) (more : List Char) :
    StartsAside fits (s ++ more) := by
  obtain ⟨c, rest, hstrip, hcapital, hsign, hfits, hclass⟩ := h
  refine ⟨c, rest ++ more, ?_, hcapital, hsign, hfits, fun further => ?_⟩
  · rw [stripStart_append, if_neg (by simp [hstrip]), hstrip, List.cons_append]
  · rw [List.append_assoc]
    exact hclass (more ++ further)

/-- The words of attributes start with a small letter, and none of them is the start of the word
`class` or goes on from it. -/
theorem startsAside_of_word {entry : String × Kind} (hentry : entry ∈ attributeWords)
    (hstarts : entry.1.toList <+: stripStart s) : StartsAside true s := by
  have hwords : ∀ entry ∈ attributeWords, entry.1.toList.head?.any Char.isLower = true ∧
      ¬ entry.1.toList <+: "class".toList ∧ ¬ "class".toList <+: entry.1.toList := by
    decide
  obtain ⟨hlower, hshort, hlong⟩ := hwords entry hentry
  obtain ⟨behind, hbehind⟩ := hstarts
  cases hword : entry.1.toList with
  | nil =>
    rw [hword] at hlower
    cases hlower
  | cons c rest =>
    have hc : c.isLower = true := by rwa [hword] at hlower
    rw [hword, List.cons_append] at hbehind
    refine ⟨c, rest ++ behind, hbehind.symm, ?_, ?_, ?_, fun more => ?_⟩
    · rintro ⟨-, hhigh⟩
      have hlow : 'a' ≤ c := of_decide_eq_true (Bool.and_eq_true_iff.mp hc).1
      exact absurd (Char.le_trans hlow hhigh) (by decide)
    · rintro rfl
      exact absurd hc (by decide)
    · rw [isWord_of_isLower hc, Bool.true_or]
    · rw [Option.eq_none_iff_forall_ne_some]
      intro tail htail
      have hclass : "class".toList <+: c :: (rest ++ behind ++ more) :=
        ⟨tail, (after?_eq_some_iff.mp htail).symm⟩
      have hprefix : entry.1.toList <+: c :: (rest ++ behind ++ more) := by
        rw [hword, List.append_assoc, ← List.cons_append]
        exact List.prefix_append _ _
      rcases List.prefix_or_prefix_of_prefix hprefix hclass with h | h
      · exact hshort h
      · exact hlong h

theorem AttributeLine.startsAside (a : AttributeLine) :
    StartsAside (!a.startsWithSemicolon) a.raw := by
  have hstrip : strip a.raw <+: stripStart a.raw := List.rdropWhile_prefix isBlank _
  cases hstart : a.startsWithSemicolon with
  | false =>
    exact startsAside_of_word a.mem_attributeWords ((prefix_of_call a.call_eq).trans
      ((prefix_of_statements a.statements_eq hstart).trans hstrip))
  | true =>
    obtain ⟨rest, hrest⟩ := startsWith_iff.mp hstart
    obtain ⟨tail, htail⟩ := hstrip
    rw [hrest] at htail
    exact ⟨';', rest ++ tail, htail.symm, by decide, by decide, by decide, fun _ => rfl⟩

/-! ## The class header -/

theorem stripStart_append_feed (front text : List Char) :
    stripStart (front ++ '\n' :: text) =
      if stripStart front = [] then stripStart text else stripStart front ++ '\n' :: text := by
  rw [stripStart_append, stripStart_cons_of_blank (by decide)]

theorem dropWord_append_feed (front text : List Char) :
    (front ++ '\n' :: text).dropWhile isWord = front.dropWhile isWord ++ '\n' :: text := by
  have hfeed : isWord '\n' = false := by decide
  rw [List.dropWhile_append, List.dropWhile_cons_of_neg (by simp [hfeed])]
  split
  · next h => rw [List.isEmpty_iff.mp h, List.nil_append]
  · rfl

theorem startsSuperclass_feed (hs : StartsAside fits s) (ht : StartsAside fits t)
    (front : List Char) :
    startsSuperclass (front ++ '\n' :: s) = startsSuperclass (front ++ '\n' :: t) := by
  obtain ⟨c, rest, hc, -, -, hfits, -⟩ := hs
  obtain ⟨d, rest', hd, -, -, hfits', -⟩ := ht
  cases front with
  | nil => rfl
  | cons first front =>
    by_cases hfirst : first = '<'
    · subst hfirst
      rw [List.cons_append, List.cons_append, startsSuperclass, startsSuperclass,
        stripStart_append_feed, stripStart_append_feed]
      cases stripStart front with
      | nil =>
        rw [if_pos rfl, if_pos rfl, hc, hd]
        exact hfits.trans hfits'.symm
      | cons => rfl
    · rw [List.cons_append, List.cons_append, startsSuperclass_of_ne hfirst,
        startsSuperclass_of_ne hfirst]

theorem startsClassName_of_not_capital {c : Char} (h : ¬ ('A' ≤ c ∧ c ≤ 'Z'))
    (rest : List Char) : startsClassName (c :: rest) = false := by
  rw [startsClassName, ← Bool.decide_and, decide_eq_false h, Bool.false_and]

theorem startsClassName_feed (hs : StartsAside fits s) (ht : StartsAside fits t)
    (front : List Char) :
    startsClassName (stripStart (front ++ '\n' :: s)) =
      startsClassName (stripStart (front ++ '\n' :: t)) := by
  have hsuper := startsSuperclass_feed hs ht
  obtain ⟨c, rest, hc, hcapital, hsign, -⟩ := hs
  obtain ⟨d, rest', hd, hcapital', hsign', -⟩ := ht
  rw [stripStart_append_feed, stripStart_append_feed]
  cases stripStart front with
  | nil =>
    rw [if_pos rfl, if_pos rfl, hc, hd, startsClassName_of_not_capital hcapital,
      startsClassName_of_not_capital hcapital']
  | cons initial front =>
    rw [if_neg (List.cons_ne_nil _ _), if_neg (List.cons_ne_nil _ _), List.cons_append,
      List.cons_append, startsClassName, startsClassName, dropWord_append_feed,
      dropWord_append_feed, stripStart_append_feed, stripStart_append_feed]
    cases stripStart (front.dropWhile isWord) with
    | nil =>
      rw [if_pos rfl, if_pos rfl, hc, hd, startsSuperclass_of_ne hsign,
        startsSuperclass_of_ne hsign']
    | cons sign front =>
      rw [if_neg (List.cons_ne_nil _ _), if_neg (List.cons_ne_nil _ _), hsuper]

theorem StartsAside.after?_eq_none (h : StartsAside fits s) :
    after? "class" (stripStart s) = none := by
  obtain ⟨c, rest, hc, -, -, -, hclass⟩ := h
  rw [hc, ← List.append_nil rest]
  exact hclass []

/-- Nor does the word `class` start there, so a header in front goes on in the same way. -/
theorem startsFormulaClass_feed (hs : StartsAside fits s) (ht : StartsAside fits t)
    (front : List Char) :
    startsFormulaClass (front ++ '\n' :: s) = startsFormulaClass (front ++ '\n' :: t) := by
  have hafter (front text : List Char) : after? "class" (front ++ '\n' :: text) =
      (after? "class" front).map (· ++ '\n' :: text) :=
    isPrefixOf?_append_sep (by decide) front text
  rw [startsFormulaClass_eq, startsFormulaClass_eq, stripStart_append_feed, stripStart_append_feed]
  cases stripStart front with
  | nil => rw [if_pos rfl, if_pos rfl, hs.after?_eq_none, ht.after?_eq_none]
  | cons first front =>
    rw [if_neg (List.cons_ne_nil _ _), if_neg (List.cons_ne_nil _ _), hafter, hafter]
    cases after? "class" (first :: front) with
    | none => rfl
    | some named =>
      cases named with
      | nil => exact startsClassName_feed hs ht []
      | cons gap named =>
        rw [Option.map_some, Option.map_some, Option.bind_some, Option.bind_some, List.cons_append,
          List.cons_append, afterBlanks?, afterBlanks?]
        split
        · exact startsClassName_feed hs ht named
        · rfl

theorem StartsAside.startsFormulaClass_eq_false (h : StartsAside fits s) :
    startsFormulaClass s = false := by
  rw [startsFormulaClass_eq, h.after?_eq_none]
  rfl

/-- Some of the lines starts a header, which may go on in the next ones. -/
def HasHeader (raws : List (List Char)) : Prop :=
  ∃ k < raws.length, startsFormulaClass (joinWith ['\n'] (raws.drop k)) = true

theorem hasHeader_cons (raw : List Char) (raws : List (List Char)) :
    HasHeader (raw :: raws) ↔
      startsFormulaClass (joinWith ['\n'] (raw :: raws)) = true ∨ HasHeader raws := by
  rw [HasHeader, List.length_cons, Nat.exists_lt_succ_left]
  rfl

theorem AttributeLine.startsAside_joinWith (a : AttributeLine) (raws : List (List Char)) :
    StartsAside (!a.startsWithSemicolon) (joinWith ['\n'] (a.raw :: raws)) := by
  obtain ⟨more, hmore⟩ := prefix_joinWith ['\n'] a.raw raws
  rw [← hmore]
  exact a.startsAside.append more

theorem AttributeLine.hasHeader_cons (a : AttributeLine) (raws : List (List Char)) :
    HasHeader (a.raw :: raws) ↔ HasHeader raws := by
  rw [Script.hasHeader_cons, (a.startsAside_joinWith raws).startsFormulaClass_eq_false]
  simp

theorem hasHeader_append {a b : AttributeLine}
    (hstart : a.startsWithSemicolon = b.startsWithSemicolon) {back back' : List (List Char)}
    (h : HasHeader (a.raw :: back) ↔ HasHeader (b.raw :: back')) (front : List (List Char)) :
    HasHeader (front ++ a.raw :: back) ↔ HasHeader (front ++ b.raw :: back') := by
  induction front with
  | nil => exact h
  | cons raw front ih =>
    have hjoin (back : List (List Char)) (hback : back ≠ []) :
        joinWith ['\n'] (raw :: (front ++ back)) =
          joinWith ['\n'] (raw :: front) ++ '\n' :: joinWith ['\n'] back :=
      joinWith_append (List.cons_ne_nil raw front) hback
    have haside := a.startsAside_joinWith back
    rw [hstart] at haside
    rw [List.cons_append, List.cons_append, hasHeader_cons, hasHeader_cons, ih,
      hjoin _ (List.cons_ne_nil _ _), hjoin _ (List.cons_ne_nil _ _),
      startsFormulaClass_feed haside (b.startsAside_joinWith back')]

/-- When two attributes change places, a formula class is found as before if both lines or neither
of them start with a semicolon. -/
theorem isFormula_exchange {a b : AttributeLine}
    (htext : lines text = front ++ a.raw :: b.raw :: back)
    (htext' : lines text' = front ++ b.raw :: a.raw :: back)
    (hstart : a.startsWithSemicolon = b.startsWithSemicolon) :
    isFormula text' = isFormula text := by
  have hheader : HasHeader (b.raw :: a.raw :: back) ↔ HasHeader (a.raw :: b.raw :: back) := by
    rw [a.hasHeader_cons, b.hasHeader_cons, a.hasHeader_cons, b.hasHeader_cons]
  rw [Bool.eq_iff_iff, isFormula_iff, isFormula_iff]
  simp only [textFrom, htext, htext']
  exact hasHeader_append hstart.symm hheader front

end TapAudit.Script
