import TapAudit.Proofs.Script.ClassHeader
import TapAudit.Proofs.Script.LineSearch
import TapAudit.Proofs.Script.Region

/-!
# Formula classes that are found

A text is searched for the header of a formula class as it stands, while a walk opens the class at a
statement, and only where it looks and no block is open. So a header may be found that the walk does
not come across, and the walk may open a class behind another statement, where no header is found.

- `Walk.seenClass_after`: where a walk opens the class.
- `isFormula_iff_isClearAt`: which headers the search finds.
- `opensClass_iff_isClearAt`: which of them open the class, and what else does.
- `detectionAgrees_iff`: **search and walk agree on a text that has a clear header, and else on one
  that has both or neither of the other headers.**
-/

namespace TapAudit.Script

open Text

/-! ## One statement -/

theorem callAction_ne_openClass (word argument header : List Char) (isFormula : Bool) :
    callAction word argument ≠ .openClass header isFormula := by
  rw [callAction]
  repeat' split
  all_goals simp

theorem action_eq_openClass_iff {statement header : List Char} :
    action statement = .openClass header true ↔
      startsWith "class " statement = true ∧ startsFormulaClass statement = true ∧
        statement = header := by
  cases hclass : startsWith "class " statement with
  | true =>
    have hend : startsWithWord ["end"] statement = false := by
      obtain ⟨rest, rfl⟩ := startsWith_iff.mp hclass
      rfl
    rw [action, hend, hclass, if_neg Bool.false_ne_true, Bool.true_or, if_pos rfl,
      Action.openClass.injEq, and_comm, and_iff_right rfl]
  | false =>
    rw [action, hclass]
    split
    · simp
    · split
      · next hbare =>
        have hbare : statement = "class".toList := by simpa using hbare
        have hformula : startsFormulaClass "class".toList = false := by decide
        rw [hbare, hformula]
        simp
      · split
        · simp
        · dsimp only
          split
          · simp
          · split
            · simp
            · split <;> simp [callAction_ne_openClass]

namespace Walk

/-- The statement opens the class of the formula, unless that is open already. -/
def OpensClass (w : Walk) (statement : List Char) : Prop :=
  w.stack = [] ∧ startsWith "class " statement = true ∧ startsFormulaClass statement = true

instance (w : Walk) (statement : List Char) : Decidable (w.OpensClass statement) :=
  inferInstanceAs (Decidable (_ ∧ _ ∧ _))

theorem seenClass_act (w : Walk) (a : Action) :
    (w.act a).value.2.seenClass = true ↔
      w.seenClass = true ∨ w.stack = [] ∧ ∃ header, a = .openClass header true := by
  cases a with
  | close => cases hstack : w.stack <;> simp [act, hstack]
  | openClass header isFormula =>
    cases isFormula <;> cases hseen : w.seenClass <;> cases hstack : w.stack <;>
      simp [act, hseen, hstack, declare]
  | declare kind argument opensBlock => simp [act, declare]
  | bareHead => simp [act]
  | skip => simp [act]

theorem seenClass_next (w : Walk) (statement : List Char) :
    (Moment.next ⟨w, statement⟩).seenClass = true ↔
      w.seenClass = true ∨ w.OpensClass statement := by
  rw [Moment.next, seenClass_act]
  simp [action_eq_openClass_iff, OpensClass]

/-! ## The parts of a line -/

/-- The state behind some parts of a line, of which the blank ones are no statements. -/
def behind (w : Walk) (parts : List (List Char)) : Walk :=
  (w.readStatements ((parts.map strip).filter (!·.isEmpty))).value.2

@[simp] theorem behind_nil (w : Walk) : w.behind [] = w := rfl

theorem behind_cons (w : Walk) (part : List Char) (parts : List (List Char)) :
    w.behind (part :: parts) =
      (if strip part = [] then w else Moment.next ⟨w, strip part⟩).behind parts := by
  rw [behind, behind, List.map_cons]
  split
  · next h => rw [h, List.filter_cons_of_neg (by simp)]
  · next h => rw [List.filter_cons_of_pos (by simp [h]), readStatements_cons]

theorem seenClass_behind (w : Walk) (parts : List (List Char)) :
    (w.behind parts).seenClass = true ↔ w.seenClass = true ∨
      ∃ j < parts.length, (w.behind (parts.take j)).OpensClass (strip (parts.getD j [])) := by
  induction parts generalizing w with
  | nil => simp
  | cons part parts ih =>
    have hpart : (if strip part = [] then w else Moment.next ⟨w, strip part⟩).seenClass = true ↔
        w.seenClass = true ∨ w.OpensClass (strip part) := by
      split
      · next h =>
        rw [h, or_iff_left]
        exact fun hopens => Bool.false_ne_true hopens.2.1
      · exact seenClass_next ..
    rw [behind_cons, ih, hpart, List.length_cons, Nat.exists_lt_succ_left, or_assoc]
    simp only [List.take_succ_cons, behind_cons]
    rfl

/-! ## Lines -/

/-- Some part of the line opens the class. -/
def OpensAt (w : Walk) (raw : List Char) (j : Nat) : Prop :=
  (w.IsReading ∧ ¬ IsMarker raw) ∧
    (w.nextLine.behind ((statementParts .code raw).take j)).OpensClass
      (strip ((statementParts .code raw).getD j []))

instance (w : Walk) (raw : List Char) (j : Nat) : Decidable (w.OpensAt raw j) :=
  inferInstanceAs (Decidable (_ ∧ _))

theorem seenClass_readLine (w : Walk) (raw : List Char) :
    (w.readLine raw).value.2.seenClass = true ↔
      w.seenClass = true ∨ ∃ j < (statementParts .code raw).length, w.OpensAt raw j := by
  by_cases h : w.IsReading ∧ ¬ IsMarker raw
  · rw [readLine_reading h.1 h.2, statements_strip]
    simp only [OpensAt, and_iff_right h]
    exact seenClass_behind w.nextLine (statementParts .code raw)
  · rw [readLine_passedOver h, or_iff_left]
    · rfl
    · exact fun ⟨_, _, hopens⟩ => h hopens.1

theorem seenClass_after (w : Walk) (raws : List (List Char)) :
    (w.after raws).seenClass = true ↔ w.seenClass = true ∨
      ∃ k < raws.length, ∃ j < (statementParts .code (raws.getD k [])).length,
        (w.after (raws.take k)).OpensAt (raws.getD k []) j := by
  induction raws generalizing w with
  | nil => simp
  | cons raw raws ih =>
    rw [after_cons, ih, seenClass_readLine, List.length_cons, Nat.exists_lt_succ_left, or_assoc]
    simp only [List.take_succ_cons, after_cons]
    rfl

/-- The first part of a line opens the class if the line starts with a header that is complete. -/
theorem opensAt_zero_iff {w : Walk} {raw : List Char} :
    w.OpensAt raw 0 ↔ w.IsReading ∧ w.stack = [] ∧ startsWith "class " (strip raw) = true ∧
      startsFormulaClass raw = true := by
  -- a header lies in the first part, so the line starts with one if this part does
  obtain ⟨part, parts, hparts⟩ := exists_statementParts .code raw
  have hformula : startsFormulaClass (strip part) = startsFormulaClass raw := by
    rw [startsFormulaClass_strip, startsFormulaClass_firstPart hparts]
  have hclass (h : startsFormulaClass raw = true) :
      startsWith "class " (strip part) = true ↔ startsWith "class " (strip raw) = true := by
    obtain ⟨header, tail, rfl⟩ := startsFormulaClass_iff.mp h
    obtain ⟨first, others, htail⟩ := exists_statementParts .code tail
    rw [statementParts_plain_append header.isPlain_of_mem htail] at hparts
    rw [← (List.cons.inj hparts).1, header.startsWith_strip_iff, header.startsWith_strip_iff]
  have hmarker (h : startsWith "class " (strip raw) = true) : ¬ IsMarker raw := by
    intro hraw
    rw [show strip raw = "__END__".toList from hraw] at h
    exact absurd h (by decide)
  rw [OpensAt, hparts, List.take_zero, behind_nil, List.getD_cons_zero, OpensClass, hformula]
  constructor
  · rintro ⟨⟨hreading, -⟩, hstack, hstarts, hstartsFormula⟩
    exact ⟨hreading, hstack, (hclass hstartsFormula).mp hstarts, hstartsFormula⟩
  · rintro ⟨hreading, hstack, hstarts, hstartsFormula⟩
    exact ⟨⟨hreading, hmarker hstarts⟩, hstack, (hclass hstartsFormula).mpr hstarts,
      hstartsFormula⟩

end Walk

/-! ## Texts -/

section

variable (text : List Char)

/-- The walk over the text opens the class of the formula. -/
def opensClass : Bool :=
  (Walk.after {} (lines text)).seenClass

/-- The state before a line. -/
def walkTo (k : Nat) : Walk :=
  Walk.after {} ((lines text).take k)

/-- A line of code starts with a header that is complete, and no block is open. -/
def IsClearAt (k : Nat) : Prop :=
  Region.ofLine text k = .code ∧ (walkTo text k).stack = [] ∧
    startsWith "class " (strip ((lines text).getD k [])) = true ∧
      startsFormulaClass ((lines text).getD k []) = true

/-- Another header starts on the line and may go on behind it. -/
def IsStrayAt (k : Nat) : Prop :=
  startsFormulaClass (textFrom text k) = true ∧ ¬ IsClearAt text k

/-- A header behind another statement of the line opens the class. -/
def IsTuckedAt (k : Nat) : Prop :=
  ∃ j < (statementParts .code ((lines text).getD k [])).length,
    0 < j ∧ (walkTo text k).OpensAt ((lines text).getD k []) j

instance (k : Nat) : Decidable (IsClearAt text k) :=
  inferInstanceAs (Decidable (_ ∧ _ ∧ _ ∧ _))

instance (k : Nat) : Decidable (IsStrayAt text k) :=
  inferInstanceAs (Decidable (_ ∧ _))

instance (k : Nat) : Decidable (IsTuckedAt text k) :=
  inferInstanceAs (Decidable (∃ j < _, _))

end

variable {text : List Char} {k : Nat}

theorem opensAt_zero_iff_isClearAt :
    (walkTo text k).OpensAt ((lines text).getD k []) 0 ↔ IsClearAt text k := by
  rw [Walk.opensAt_zero_iff, IsClearAt, Walk.isReading_iff, walkTo, Walk.region_after]
  rfl

theorem IsClearAt.startsFormulaClass_textFrom (hk : k < (lines text).length)
    (h : IsClearAt text k) : startsFormulaClass (textFrom text k) = true := by
  refine startsFormulaClass_mono ?_ h.2.2.2
  rw [textFrom, List.drop_eq_getElem_cons hk, List.getD_eq_getElem?_getD,
    List.getElem?_eq_getElem hk]
  exact prefix_joinWith ..

theorem isFormula_iff_isClearAt :
    isFormula text = true ↔ (∃ k < (lines text).length, IsClearAt text k) ∨
      ∃ k < (lines text).length, IsStrayAt text k := by
  rw [isFormula_iff, ← exists_or]
  refine exists_congr fun k => ?_
  rw [← and_or_left]
  refine and_congr_right fun hk => ?_
  by_cases hclear : IsClearAt text k
  · simp [hclear, hclear.startsFormulaClass_textFrom hk]
  · simp [hclear, IsStrayAt]

theorem opensClass_iff_isClearAt :
    opensClass text = true ↔ (∃ k < (lines text).length, IsClearAt text k) ∨
      ∃ k < (lines text).length, IsTuckedAt text k := by
  have hstart : (({} : Walk).seenClass = true) ↔ False := by decide
  rw [opensClass, Walk.seenClass_after, hstart, false_or, ← exists_or]
  refine exists_congr fun k => ?_
  rw [← and_or_left]
  refine and_congr_right fun hk => ?_
  obtain ⟨part, parts, hparts⟩ := exists_statementParts .code ((lines text).getD k [])
  rw [← opensAt_zero_iff_isClearAt, IsTuckedAt, hparts, List.length_cons,
    Nat.exists_lt_succ_left, Nat.exists_lt_succ_left]
  simp [walkTo]

/-- The search finds a header if and only if the walk opens the class. -/
def DetectionAgrees (text : List Char) : Prop :=
  isFormula text = true ↔ opensClass text = true

/--
**Search and walk agree on a text that has a clear header, and else on one that has a stray header
as well as one behind a statement, or neither.**
-/
theorem detectionAgrees_iff (text : List Char) :
    DetectionAgrees text ↔ (∃ k < (lines text).length, IsClearAt text k) ∨
      ((∃ k < (lines text).length, IsStrayAt text k) ↔
        ∃ k < (lines text).length, IsTuckedAt text k) := by
  rw [DetectionAgrees, isFormula_iff_isClearAt, opensClass_iff_isClearAt]
  by_cases hclear : ∃ k < (lines text).length, IsClearAt text k
  · simp only [hclear, true_or]
  · simp only [hclear, false_or]

/-- The class of a formula is found and opened. A header in a heredoc, in the inline data, in a
module or on two lines is only found, and a class behind another statement is only opened. -/
theorem detectionAgrees_samples :
    DetectionAgrees "class Foo < Formula\nend\n".toList ∧
      ¬ DetectionAgrees "TEMPLATE = <<~EOS\n  class Foo < Formula\n  end\nEOS\n".toList ∧
        ¬ DetectionAgrees "puts 1\n__END__\nclass Foo < Formula\n".toList ∧
          ¬ DetectionAgrees "module Foo\n  class Bar < Formula\n  end\nend\n".toList ∧
            ¬ DetectionAgrees "class Foo <\n  Formula\nend\n".toList ∧
              ¬ DetectionAgrees "x = 1; class Foo < Formula\nend\n".toList := by
  refine ⟨(detectionAgrees_iff _).mpr ?_, (detectionAgrees_iff _).not.mpr ?_,
    (detectionAgrees_iff _).not.mpr ?_, (detectionAgrees_iff _).not.mpr ?_,
    (detectionAgrees_iff _).not.mpr ?_, (detectionAgrees_iff _).not.mpr ?_⟩
  all_goals decide +kernel

end TapAudit.Script
