import TapAudit.Proofs.Script.Statement

/-!
# Class headers

A header of a formula class is read in three steps: up to the word `class`, up to the name, and up
to the superclass (`startsFormulaClass_eq`). Nothing that follows is looked at, so a text starts
with a header if some header is the start of it (`startsFormulaClass_iff`).

A header is made of plain code and ends in no blank. So it is found in a text without the blanks
around it (`startsFormulaClass_strip`), and in the first part of a line
(`startsFormulaClass_firstPart`).
-/

namespace TapAudit.Script

open Text

/-! ## Reading a header -/

/-- The end of a class header: the sign `<` and the start of a superclass. -/
def startsSuperclass : List Char → Bool
  | '<' :: rest =>
    match stripStart rest with
    | [] => false
    | c :: _ => isWord c || c == ':'
  | _ => false

/-- A class header after the word `class`. -/
def startsClassName : List Char → Bool
  | c :: rest => 'A' ≤ c && c ≤ 'Z' && startsSuperclass (stripStart (rest.dropWhile isWord))
  | [] => false

theorem startsFormulaClass_eq (text : List Char) :
    startsFormulaClass text =
      (((after? "class" (stripStart text)).bind afterBlanks?).map startsClassName).getD false := by
  rw [startsFormulaClass]
  rcases (after? "class" (stripStart text)).bind afterBlanks? with _ | _ | ⟨c, rest⟩ <;> rfl

theorem startsSuperclass_of_ne {c : Char} (h : c ≠ '<') (rest : List Char) :
    startsSuperclass (c :: rest) = false := by
  rw [startsSuperclass]
  rintro _ heq
  exact h (List.cons.inj heq).1

/-! ## The text of a header -/

/-- The header of a formula class, up to where the superclass starts. -/
structure Header where
  /-- The blanks in front. -/
  margin : List Char
  /-- What stands behind the word `class`: one blank at least. -/
  gap : List Char
  /-- The first letter of the name. -/
  initial : Char
  /-- The rest of the name. -/
  name : List Char
  /-- The blanks in front of the sign `<`. -/
  before : List Char
  /-- The blanks behind it. -/
  behind : List Char
  /-- The first character of the superclass. -/
  first : Char
  gap_ne_nil : gap ≠ []
  areBlank : ∀ c ∈ margin ++ (gap ++ (before ++ behind)), isBlank c = true
  isCapital : 'A' ≤ initial ∧ initial ≤ 'Z'
  areWord : ∀ c ∈ name, isWord c = true
  startsSuperclass : isWord first = true ∨ first = ':'

namespace Header

def text (h : Header) : List Char :=
  h.margin ++ ("class".toList ++ (h.gap ++ h.initial ::
    (h.name ++ (h.before ++ '<' :: (h.behind ++ [h.first])))))

theorem isBlank_first (h : Header) : isBlank h.first = false := by
  rcases h.startsSuperclass with hword | hcolon
  · exact isBlank_of_isWord hword
  · rw [hcolon]
    decide

theorem isWord_initial (h : Header) : isWord h.initial = true :=
  isWord_of_isUpper (decide_eq_true h.isCapital)

theorem startsSuperclass_append (h : Header) (tail : List Char) :
    Script.startsSuperclass ('<' :: (h.behind ++ h.first :: tail)) = true := by
  have hbehind : ∀ c ∈ h.behind, isBlank c = true := fun c hc => h.areBlank c (by simp [hc])
  rw [Script.startsSuperclass, stripStart_blanks_append hbehind, stripStart_cons h.isBlank_first]
  simpa using h.startsSuperclass

theorem startsClassName_append (h : Header) (tail : List Char) :
    startsClassName (h.initial :: (h.name ++ (h.before ++ '<' :: (h.behind ++ h.first :: tail)))) =
      true := by
  have hbefore : ∀ c ∈ h.before, isBlank c = true := fun c hc => h.areBlank c (by simp [hc])
  have hname (text : List Char) : stripStart ((h.before ++ '<' :: text).dropWhile isWord) =
      '<' :: text := by
    have hword : (h.before ++ '<' :: text).dropWhile isWord = h.before ++ '<' :: text := by
      cases hcases : h.before with
      | nil => rfl
      | cons c blanks =>
        have hc : isWord c = false := isWord_of_isBlank (hbefore c (by simp [hcases]))
        exact List.dropWhile_cons_of_neg (by simp [hc])
    rw [hword, stripStart_blanks_append hbefore, stripStart_cons (by decide)]
  rw [startsClassName, List.dropWhile_append_of_pos h.areWord, hname, h.startsSuperclass_append]
  simp [h.isCapital]

theorem startsFormulaClass_append (h : Header) (tail : List Char) :
    startsFormulaClass (h.text ++ tail) = true := by
  have hmargin : ∀ c ∈ h.margin, isBlank c = true := fun c hc => h.areBlank c (by simp [hc])
  have hgap (text : List Char) : afterBlanks? (h.gap ++ h.initial :: text) =
      some (h.initial :: text) := by
    obtain ⟨c, blanks, hcases⟩ := List.exists_cons_of_ne_nil h.gap_ne_nil
    have hblank : ∀ d ∈ c :: blanks, isBlank d = true :=
      fun d hd => h.areBlank d (by simp [hcases ▸ hd])
    rw [List.forall_mem_cons] at hblank
    rw [hcases, List.cons_append, afterBlanks?, if_pos hblank.1, stripStart_blanks_append hblank.2,
      stripStart_cons (isBlank_of_isWord h.isWord_initial)]
  have hclass (text : List Char) : after? "class" (stripStart ("class".toList ++ text)) =
      some text := after?_eq_some_iff.mpr (stripStart_cons (by decide) _)
  rw [startsFormulaClass_eq, text]
  simp only [List.append_assoc, List.cons_append, List.nil_append]
  rw [stripStart_blanks_append hmargin, hclass, Option.bind_some, hgap, Option.map_some,
    Option.getD_some, h.startsClassName_append]

end Header

theorem exists_stripStart (text : List Char) :
    ∃ blanks, (∀ c ∈ blanks, isBlank c = true) ∧ text = blanks ++ stripStart text :=
  ⟨text.takeWhile isBlank, fun _ hc => List.mem_takeWhile_imp hc,
    (List.takeWhile_append_dropWhile (p := isBlank)).symm⟩

theorem exists_of_afterBlanks {text rest : List Char} (h : afterBlanks? text = some rest) :
    ∃ blanks, blanks ≠ [] ∧ (∀ b ∈ blanks, isBlank b = true) ∧ text = blanks ++ rest := by
  cases text with
  | nil => cases h
  | cons c text =>
    rw [afterBlanks?, Option.ite_none_right_eq_some] at h
    obtain ⟨hc, hrest⟩ := h
    obtain ⟨blanks, hblanks, htext⟩ := exists_stripStart text
    rw [Option.some.inj hrest] at htext
    exact ⟨c :: blanks, List.cons_ne_nil c blanks, List.forall_mem_cons.mpr ⟨hc, hblanks⟩,
      congrArg _ htext⟩

theorem exists_of_startsSuperclass {text : List Char} (h : startsSuperclass text = true) :
    ∃ blanks c rest, (∀ b ∈ blanks, isBlank b = true) ∧ (isWord c = true ∨ c = ':') ∧
      text = '<' :: (blanks ++ c :: rest) := by
  cases text with
  | nil => cases h
  | cons d text =>
    by_cases hd : d = '<'
    · subst hd
      obtain ⟨blanks, hblanks, htext⟩ := exists_stripStart text
      rw [startsSuperclass] at h
      cases hstrip : stripStart text with
      | nil =>
        rw [hstrip] at h
        cases h
      | cons c rest =>
        rw [hstrip] at h htext
        refine ⟨blanks, c, rest, hblanks, ?_, congrArg _ htext⟩
        simpa using h
    · rw [startsSuperclass_of_ne hd] at h
      cases h

theorem exists_of_startsClassName {text : List Char} (h : startsClassName text = true) :
    ∃ initial name blanks rest, ('A' ≤ initial ∧ initial ≤ 'Z') ∧ (∀ c ∈ name, isWord c = true) ∧
      (∀ b ∈ blanks, isBlank b = true) ∧ text = initial :: (name ++ (blanks ++ rest)) ∧
        startsSuperclass rest = true := by
  cases text with
  | nil => cases h
  | cons initial text =>
    rw [startsClassName, Bool.and_eq_true, Bool.and_eq_true, decide_eq_true_eq,
      decide_eq_true_eq] at h
    obtain ⟨blanks, hblanks, htext⟩ := exists_stripStart (text.dropWhile isWord)
    refine ⟨initial, text.takeWhile isWord, blanks, _, h.1,
      fun c hc => List.mem_takeWhile_imp hc, hblanks, ?_, h.2⟩
    rw [← htext, List.takeWhile_append_dropWhile]

/-- A text starts with a class header if some header is a prefix of it. -/
theorem startsFormulaClass_iff {text : List Char} :
    startsFormulaClass text = true ↔ ∃ h : Header, h.text <+: text := by
  constructor
  · intro hstarts
    rw [startsFormulaClass_eq] at hstarts
    cases hread : (after? "class" (stripStart text)).bind afterBlanks? with
    | none =>
      rw [hread] at hstarts
      cases hstarts
    | some named =>
      rw [hread] at hstarts
      obtain ⟨behindClass, hclass, hgap⟩ := Option.bind_eq_some_iff.mp hread
      obtain ⟨margin, hmargin, htext⟩ := exists_stripStart text
      rw [after?_eq_some_iff.mp hclass] at htext
      obtain ⟨initial, name, before, super, hcapital, hname, hbefore, rfl, hsuper⟩ :=
        exists_of_startsClassName hstarts
      obtain ⟨behind, first, rest, hbehind, hfirst, rfl⟩ := exists_of_startsSuperclass hsuper
      obtain ⟨gap, hne, hgapBlank, rfl⟩ := exists_of_afterBlanks hgap
      have hblanks : ∀ c ∈ margin ++ (gap ++ (before ++ behind)), isBlank c = true := by
        simp only [List.forall_mem_append]
        exact ⟨hmargin, hgapBlank, hbefore, hbehind⟩
      refine ⟨⟨margin, gap, initial, name, before, behind, first, hne, hblanks, hcapital, hname,
        hfirst⟩, rest, ?_⟩
      rw [htext, Header.text]
      simp only [List.append_assoc, List.cons_append, List.nil_append]
  · rintro ⟨h, tail, rfl⟩
    exact h.startsFormulaClass_append tail

/-! ## What a header may stand in -/

theorem Header.isPlain_of_mem (h : Header) : ∀ c ∈ h.text, isPlain c = true := by
  have hblanks := fun c hc => isPlain_of_isBlank (h.areBlank c hc)
  simp only [List.forall_mem_append] at hblanks
  obtain ⟨hmargin, hgap, hbefore, hbehind⟩ := hblanks
  have hclass : ∀ c ∈ "class".toList, isPlain c = true := List.all_eq_true.mp (by decide)
  have hfirst : isPlain h.first = true := by
    rcases h.startsSuperclass with hword | hcolon
    · exact isPlain_of_isWord hword
    · rw [hcolon]
      decide
  simp only [text, List.forall_mem_append, List.forall_mem_cons]
  exact ⟨hmargin, hclass, hgap, isPlain_of_isWord h.isWord_initial,
    fun c hc => isPlain_of_isWord (h.areWord c hc), hbefore, by decide, hbehind, hfirst, nofun⟩

/-- A text that starts with a header starts, without blanks, with the word `class` and what is
behind that word in the header. -/
theorem Header.startsWith_strip_iff (h : Header) (tail : List Char) :
    startsWith "class " (strip (h.text ++ tail)) = true ↔ h.gap.head? = some ' ' := by
  have hmargin : ∀ c ∈ h.margin, isBlank c = true := fun c hc => h.areBlank c (by simp [hc])
  obtain ⟨c, blanks, hgap⟩ := List.exists_cons_of_ne_nil h.gap_ne_nil
  have hstrip (text : List Char) : strip ("class".toList ++ (h.gap ++ h.initial :: text)) =
      "class".toList ++ c :: (blanks ++ h.initial :: stripEnd text) := by
    rw [strip, show stripStart ("class".toList ++ _) = "class".toList ++ _ from
      stripStart_cons (by decide) _, ← List.append_assoc,
      stripEnd_append_cons (isBlank_of_isWord h.isWord_initial), List.append_assoc, hgap]
    rfl
  rw [text]
  simp only [List.append_assoc, List.cons_append]
  rw [strip_blanks_append hmargin, hstrip, startsWith_iff, hgap, List.head?_cons]
  constructor
  · rintro ⟨rest, hrest⟩
    have hcons := List.append_cancel_left
      (show "class".toList ++ _ = "class".toList ++ (' ' :: rest) from hrest)
    rw [(List.cons.inj hcons).1]
  · intro hspace
    rw [Option.some.inj hspace]
    exact ⟨_, rfl⟩

theorem startsFormulaClass_mono {text longer : List Char} (hlonger : text <+: longer)
    (h : startsFormulaClass text = true) : startsFormulaClass longer = true := by
  obtain ⟨header, hheader⟩ := startsFormulaClass_iff.mp h
  exact startsFormulaClass_iff.mpr ⟨header, hheader.trans hlonger⟩

theorem startsFormulaClass_stripEnd (text : List Char) :
    startsFormulaClass (stripEnd text) = startsFormulaClass text := by
  rw [Bool.eq_iff_iff]
  refine ⟨startsFormulaClass_mono (List.rdropWhile_prefix isBlank text), fun h => ?_⟩
  obtain ⟨header, tail, rfl⟩ := startsFormulaClass_iff.mp h
  obtain ⟨front, hfront⟩ : ∃ front, header.text = front ++ [header.first] :=
    ⟨header.margin ++ ("class".toList ++ (header.gap ++ header.initial ::
      (header.name ++ (header.before ++ '<' :: header.behind)))), by simp [Header.text]⟩
  refine startsFormulaClass_iff.mpr ⟨header, stripEnd tail, ?_⟩
  rw [hfront, List.append_assoc, List.append_assoc, List.singleton_append, List.singleton_append,
    stripEnd_append_cons header.isBlank_first]

theorem startsFormulaClass_strip (text : List Char) :
    startsFormulaClass (strip text) = startsFormulaClass text := by
  have hstart (text : List Char) : stripStart (stripStart text) = stripStart text :=
    List.dropWhile_idempotent ..
  rw [strip_eq_stripStart_stripEnd, ← startsFormulaClass_stripEnd text, startsFormulaClass_eq,
    startsFormulaClass_eq, hstart]

theorem startsFormulaClass_firstPart {raw part : List Char} {parts : List (List Char)}
    (h : statementParts .code raw = part :: parts) :
    startsFormulaClass part = startsFormulaClass raw := by
  rw [Bool.eq_iff_iff]
  refine ⟨startsFormulaClass_mono (prefix_of_statementParts h), fun hstarts => ?_⟩
  obtain ⟨header, tail, rfl⟩ := startsFormulaClass_iff.mp hstarts
  obtain ⟨first, others, htail⟩ := exists_statementParts .code tail
  rw [statementParts_plain_append header.isPlain_of_mem htail] at h
  exact startsFormulaClass_iff.mpr ⟨header, first, (List.cons.inj h).1⟩

end TapAudit.Script
