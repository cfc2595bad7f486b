import TapAudit.Proofs.Script.Action
import TapAudit.Proofs.Script.Walk
import TapAudit.Proofs.Text.LineEnds
import TapAudit.Proofs.Text.Search
import TapAudit.Script.Marker

/-!
# Scripts with different line ends

What a script declares and whether it defines a formula do not depend on whether its lines end in a
line feed or in a carriage return and a line feed.

- `declarations_plain`: the declarations.
- `isFormula_plain`: the class header, which may itself stretch over several lines.
-/

namespace TapAudit.Script

open Text

variable {s t : List Char}

theorem declarations_plain (h : Plain s t) : declarations s = declarations t := by
  rw [declarations, declarations, ← Walk.readLines_map_strip _ (lines s), h.map_strip_lines,
    Walk.readLines_map_strip]

/-! ## The class header -/

/-- A character that is no part of a class header but for the blanks in it. -/
def IsInert (c : Char) : Prop :=
  isWord c = false ∧ c ≠ '<' ∧ c ≠ ':'

instance (c : Char) : Decidable (IsInert c) :=
  inferInstanceAs (Decidable (_ ∧ _ ∧ _))

/-- Texts that are so related are read alike as far as class headers go: they differ from some
character on that is no part of one, and stay related when they are read on. -/
structure HeadersAlike (R : List Char → List Char → Prop) : Prop where
  cases : ∀ {s t : List Char}, R s t → s = [] ∧ t = [] ∨
    (∃ c s' t', s = c :: s' ∧ t = c :: t' ∧ R s' t') ∨
    ∃ c d s' t', s = c :: s' ∧ t = d :: t' ∧ IsInert c ∧ IsInert d
  stripStart : ∀ {s t : List Char}, R s t → R (stripStart s) (stripStart t)
  dropWord : ∀ {s t : List Char}, R s t → R (s.dropWhile isWord) (t.dropWhile isWord)
  afterClass : ∀ {s t : List Char}, R s t → Option.Rel R (after? "class" s) (after? "class" t)
  afterBlanks : ∀ {s t : List Char}, R s t → Option.Rel R (afterBlanks? s) (afterBlanks? t)

namespace HeadersAlike

variable {R : List Char → List Char → Prop}

theorem startsSuperclass_eq (hR : HeadersAlike R) (h : R s t) :
    startsSuperclass s = startsSuperclass t := by
  rcases hR.cases h with ⟨rfl, rfl⟩ | ⟨c, s, t, rfl, rfl, htail⟩ |
    ⟨c, d, s, t, rfl, rfl, hc, hd⟩
  · rfl
  · by_cases hc : c = '<'
    · subst hc
      rw [startsSuperclass, startsSuperclass]
      rcases hR.cases (hR.stripStart htail) with ⟨hs, ht⟩ | ⟨c, s', t', hs, ht, -⟩ |
        ⟨c, d, s', t', hs, ht, hc, hd⟩
      · rw [hs, ht]
      · rw [hs, ht]
      · rw [hs, ht]
        simp [hc.1, hc.2.2, hd.1, hd.2.2]
    · rw [startsSuperclass_of_ne hc, startsSuperclass_of_ne hc]
  · rw [startsSuperclass_of_ne hc.2.1, startsSuperclass_of_ne hd.2.1]

theorem startsClassName_eq (hR : HeadersAlike R) (h : R s t) :
    startsClassName s = startsClassName t := by
  have hcapital {c : Char} (hc : IsInert c) (rest : List Char) :
      startsClassName (c :: rest) = false := by
    have hupper : ¬ ('A' ≤ c ∧ c ≤ 'Z') := by
      intro hupper
      have hword := isWord_of_isUpper (decide_eq_true hupper)
      rw [hc.1] at hword
      cases hword
    rw [startsClassName, ← Bool.decide_and, decide_eq_false hupper, Bool.false_and]
  rcases hR.cases h with ⟨rfl, rfl⟩ | ⟨c, s, t, rfl, rfl, htail⟩ |
    ⟨c, d, s, t, rfl, rfl, hc, hd⟩
  · rfl
  · rw [startsClassName, startsClassName,
      hR.startsSuperclass_eq (hR.stripStart (hR.dropWord htail))]
  · rw [hcapital hc, hcapital hd]

theorem startsFormulaClass_eq (hR : HeadersAlike R) (h : R s t) :
    startsFormulaClass s = startsFormulaClass t := by
  have hname := rel_bind (hR.afterClass (hR.stripStart h)) fun _ _ => hR.afterBlanks
  rw [Script.startsFormulaClass_eq, Script.startsFormulaClass_eq,
    map_eq_of_rel hname fun _ _ => hR.startsClassName_eq]

end HeadersAlike

theorem afterBlanks?_plain (h : Plain s t) :
    Option.Rel Plain (afterBlanks? s) (afterBlanks? t) := by
  cases h with
  | nil => exact .none
  | lineEnd h =>
    refine .some ?_
    rw [stripStart_cons_of_blank (by decide)]
    exact h.stripStart
  | @char c s t hc h =>
    rw [afterBlanks?, afterBlanks?]
    split
    · exact .some h.stripStart
    · exact .none

theorem headersAlike_plain : HeadersAlike Plain where
  cases h := by
    cases h with
    | nil => exact .inl ⟨rfl, rfl⟩
    | lineEnd h => exact .inr (.inr ⟨_, _, _, _, rfl, rfl, by decide, by decide⟩)
    | char _ h => exact .inr (.inl ⟨_, _, _, rfl, rfl, h⟩)
  stripStart h := h.stripStart
  dropWord h := h.dropWhile (by decide) (by decide)
  afterClass h := h.after? (by decide) (by decide)
  afterBlanks := afterBlanks?_plain

theorem startsFormulaClass_plain (h : Plain s t) :
    startsFormulaClass s = startsFormulaClass t :=
  headersAlike_plain.startsFormulaClass_eq h

theorem isFormula_plain (h : Plain s t) : isFormula s = isFormula t := by
  suffices hsearch : ∀ before before' : Option Char, atLineStart before = atLineStart before' →
      (firstMatch (fun before rest => if Marker.formulaClass.standsAt before rest then some ()
        else none) before s).isSome =
      (firstMatch (fun before rest => if Marker.formulaClass.standsAt before rest then some ()
        else none) before' t).isSome from hsearch none none rfl
  induction h with
  | nil =>
    intro before before' hbefore
    rw [firstMatch, firstMatch, Marker.standsAt, Marker.standsAt, hbefore]
  | lineEnd h ih =>
    intro before before' hbefore
    have hreturn : ∀ rest, Marker.formulaClass.standsAt (some '\r') rest = false := fun _ => rfl
    rw [isSome_firstMatch_cons, isSome_firstMatch_cons, isSome_firstMatch_cons,
      ih _ (some '\n') rfl, hreturn, Marker.standsAt, Marker.standsAt, hbefore,
      startsFormulaClass_plain (.lineEnd h)]
    rfl
  | @char c s t hc h ih =>
    intro before before' hbefore
    rw [isSome_firstMatch_cons, isSome_firstMatch_cons, ih _ (some c) rfl, Marker.standsAt,
      Marker.standsAt, hbefore, startsFormulaClass_plain (.char hc h)]

end TapAudit.Script
