import TapAudit.Proofs.Version.Transitivity

/-!
# The converse of a comparison

Two versions are compared in one of three ways: they are the same text, both are regular, or both
have segments with a number in front. Each way gives the converse answer when the versions change
places. Where none of them is open the versions are unrelated, and only then is there a warning.

- `compare_of_not_unrelated`: versions that are not unrelated are compared, in silence.
- `compare_of_unrelated`: unrelated versions are not compared, and a warning says so.
- `compare_converse`: the converse of a comparison, and when there is none.
-/

namespace TapAudit.Version

namespace Comparison

/-- How the second version stands to the first one. -/
def converse : Comparison → Comparison
  | less => greater
  | equal => equal
  | greater => less
  | incomparable => incomparable

@[simp] theorem converse_ofOrdering (o : Ordering) :
    (ofOrdering o).converse = ofOrdering o.swap := by
  cases o <;> rfl

theorem ofOrdering_ne_incomparable (o : Ordering) : ofOrdering o ≠ incomparable := by
  cases o <;> decide

end Comparison

open Comparison

/-! ## Unrelated versions -/

/-- A version has no number in front: it has no segments, or the first of them is a word. -/
def LacksNumber (v : List Char) : Prop :=
  segments v = [] ∨ ∃ word others, segments v = .word word :: others

theorem not_hasSegments_iff {v : List Char} : ¬ HasSegments v ↔ LacksNumber v := by
  rw [HasSegments, LacksNumber]
  rcases segments v with _ | ⟨n | word, others⟩ <;> simp [startsWithNumber]

/-- Versions that can be compared in neither order. -/
structure AreUnrelated (v w : List Char) : Prop where
  ne : v ≠ w
  irregular : ¬ IsRegular v ∨ ¬ IsRegular w
  unnumbered : LacksNumber v ∨ LacksNumber w

theorem AreUnrelated.symm {v w : List Char} (h : AreUnrelated v w) : AreUnrelated w v :=
  ⟨h.ne.symm, h.irregular.symm, h.unnumbered.symm⟩

theorem not_areUnrelated {v w : List Char} (h : ¬ AreUnrelated v w) :
    v = w ∨ IsRegular v ∧ IsRegular w ∨ HasSegments v ∧ HasSegments w := by
  by_contra hnone
  obtain ⟨hne, hirregular, hunnumbered⟩ : v ≠ w ∧ ¬ (IsRegular v ∧ IsRegular w) ∧
      ¬ (HasSegments v ∧ HasSegments w) := by
    simpa only [not_or] using hnone
  apply h
  refine ⟨hne, not_and_or.mp hirregular, ?_⟩
  rw [← not_hasSegments_iff, ← not_hasSegments_iff]
  exact not_and_or.mp hunnumbered

theorem compare_of_not_unrelated {v w : List Char} (h : ¬ AreUnrelated v w) :
    ∃ o, compare (some v) (some w) = pure (ofOrdering o) ∧
      compare (some w) (some v) = pure (ofOrdering o.swap) := by
  by_cases heq : v = w
  · subst heq
    exact ⟨.eq, compare_same v, compare_same v⟩
  by_cases hregular : IsRegular v ∧ IsRegular w
  · obtain ⟨r, hr⟩ := Option.isSome_iff_exists.mp hregular.1
    obtain ⟨s, hs⟩ := Option.isSome_iff_exists.mp hregular.2
    refine ⟨r.compare s, compare_release heq hr hs, ?_⟩
    rw [compare_release (Ne.symm heq) hs hr, Release.compare_swap r]
  · obtain ⟨hv, hw⟩ : HasSegments v ∧ HasSegments w := by
      rcases not_areUnrelated h with hsame | hboth | hsegments
      · exact absurd hsame heq
      · exact absurd hboth hregular
      · exact hsegments
    refine ⟨compareSegments (segments v) (segments w), ?_, ?_⟩
    · rw [compare_irregular heq hregular, compareBySegments_eq hv hw]
    · rw [compare_irregular (Ne.symm heq) (fun hboth => hregular hboth.symm),
        compareBySegments_eq hw hv, compareSegments_swap (segments v)]

theorem compare_of_unrelated {v w : List Char} (h : AreUnrelated v w) :
    ∃ message, compare (some v) (some w) = ⟨incomparable, [⟨.warning, message⟩]⟩ := by
  obtain ⟨hne, hirregular, hunnumbered⟩ := h
  rw [← not_hasSegments_iff, ← not_hasSegments_iff] at hunnumbered
  rw [compare_irregular hne (not_and_or.mpr hirregular)]
  exact compareBySegments_of_not (not_and_or.mpr hunnumbered)

/-! ## Main result -/

/-- Two versions, if both are there, are unrelated. -/
def AreUnordered : Option (List Char) → Option (List Char) → Prop
  | some v, some w => AreUnrelated v w
  | _, _ => True

/-- There is a warning among the notes. -/
def Warns (m : Logged Comparison) : Prop :=
  ∃ note ∈ m.log, note.level = .warning

/--
**A comparison has a converse.** When two versions change places, less and greater do, and the other
two answers stay. There is no order exactly between a missing version and any other, and between
unrelated versions; and there is a warning exactly if there is no order though both are there.
-/
theorem compare_converse (a b : Option (List Char)) :
    (compare b a).value = (compare a b).value.converse ∧
      ((compare a b).value = incomparable ↔ AreUnordered a b) ∧
      (Warns (compare a b) ↔ (compare a b).value = incomparable ∧ a ≠ none ∧ b ≠ none) := by
  rcases a with _ | v
  · have hleft : compare none b = pure incomparable := rfl
    have hright : compare b none = pure incomparable := by cases b <;> rfl
    simp [hleft, hright, converse, AreUnordered, Warns]
  rcases b with _ | w
  · have hright : compare (some v) none = pure incomparable := rfl
    have hleft : compare none (some v) = pure incomparable := rfl
    simp [hleft, hright, converse, AreUnordered, Warns]
  by_cases h : AreUnrelated v w
  · obtain ⟨message, hvw⟩ := compare_of_unrelated h
    obtain ⟨message', hwv⟩ := compare_of_unrelated h.symm
    simp [hvw, hwv, converse, AreUnordered, Warns, h]
  · obtain ⟨o, hvw, hwv⟩ := compare_of_not_unrelated h
    simp [hvw, hwv, AreUnordered, Warns, h, ofOrdering_ne_incomparable]

end TapAudit.Version
