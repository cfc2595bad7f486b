import TapAudit.Proofs.Number.Limit
import TapAudit.Proofs.Version.Dotted
import TapAudit.Proofs.Version.Fallback

/-!
# The two orders on plain releases

Dotted numbers are a release, and their segments are the numbers. The order of releases leaves out
the zeros at the end, the order by segments fills up the shorter list, and both come to the
comparison number by number in which a missing number counts as zero.

- `segments_dotted`: the segments of dotted numbers.
- `compareSegments_numbers`: segments that are numbers are compared number by number.
- `compare_eq_compareBySegments`: **the two orders agree on dotted numbers.**
-/

namespace TapAudit.Version

open Text

/-! ## Plain releases -/

theorem hasSegments_dotted (n : Numeral) (numbers : List Numeral) :
    HasSegments (dotted (n :: numbers)) := by
  rw [HasSegments, segments_dotted]
  rfl

theorem isRegular_dotted (n : Numeral) (numbers : List Numeral) :
    IsRegular (dotted (n :: numbers)) := by
  rw [IsRegular, ofText?_dotted (List.cons_ne_nil n numbers)]
  rfl

/-! ## Segments that are numbers -/

theorem compare_key_number (m n : Nat) :
    (Segment.number m).key.compare (Segment.number n).key = Ord.compare m n := by
  have hrank : Ord.compare 1 1 = Ordering.eq := rfl
  have hword : Ord.compare ([] : List Char) [] = .eq := rfl
  rw [Segment.Key.compare, Segment.key, Segment.key, hrank, hword, Ordering.eq_then,
    Ordering.then_eq]

theorem compareLex_key_number (a b : List Nat) :
    List.compareLex Segment.Key.compare ((a.map .number).map Segment.key)
        ((b.map .number).map Segment.key) = Ord.compare a b := by
  induction a generalizing b with
  | nil => cases b <;> rfl
  | cons m a ih =>
    cases b with
    | nil => rfl
    | cons n b =>
      simp only [List.map_cons, List.compareLex_cons_cons, compare_key_number, ih]
      exact List.compareLex_cons_cons.symm

theorem compareSegments_numbers (a b : List Nat) :
    compareSegments (a.map .number) (b.map .number) = comparePadded a b := by
  have hpad (l : List Nat) (width : Nat) : (l.map Segment.number).rightpad width (.number 0) =
      (l.rightpad width 0).map .number := by
    rw [List.rightpad, List.rightpad, List.map_append, List.map_replicate, List.length_map]
  rw [compareSegments, comparePadded, keys_eq_map_rightpad, keys_eq_map_rightpad, hpad, hpad,
    compareLex_key_number, List.length_map, List.length_map]

/-! ## Main result -/

theorem compare_dotted_eq (m n : Numeral) (a b : List Numeral) :
    compare (some (dotted (m :: a))) (some (dotted (n :: b))) =
      pure (.ofOrdering
        (comparePadded ((m :: a).map Numeral.value) ((n :: b).map Numeral.value))) := by
  have hvalue := compare_dotted (List.cons_ne_nil m a) (List.cons_ne_nil n b)
  -- regular versions are not unrelated, so nothing is noted
  have hrelated : ¬ AreUnrelated (dotted (m :: a)) (dotted (n :: b)) := fun h =>
    not_and_or.mpr h.irregular ⟨isRegular_dotted m a, isRegular_dotted n b⟩
  obtain ⟨o, hcompare, -⟩ := compare_of_not_unrelated hrelated
  rw [hcompare] at hvalue ⊢
  exact congrArg pure hvalue

theorem compareBySegments_dotted (m n : Numeral) (a b : List Numeral) :
    compareBySegments (dotted (m :: a)) (dotted (n :: b)) =
      pure (.ofOrdering
        (comparePadded ((m :: a).map Numeral.value) ((n :: b).map Numeral.value))) := by
  rw [compareBySegments_eq (hasSegments_dotted m a) (hasSegments_dotted n b), segments_dotted,
    segments_dotted, compareSegments_numbers]

/--
**The two orders agree on dotted numbers.** Versions of dotted numbers, with or without zeros in
front, are releases and have segments. If none of the numbers is too long to be read, then the
versions stand to each other, compared as releases or by segments, as their numbers do when the
shorter list is filled up with zeros. Otherwise both comparisons fail at the same number, but for
versions that are spelled alike, which are equal without being read.
-/
theorem compare_eq_compareBySegments (m n : Numeral) (a b : List Numeral) :
    (IsRegular (dotted (m :: a)) ∧ IsRegular (dotted (n :: b))) ∧
      (Number.AreReadable ((m :: a ++ n :: b).map Numeral.digits) →
        checkedCompare (some (dotted (m :: a))) (some (dotted (n :: b))) =
          .ok (pure (.ofOrdering
            (comparePadded ((m :: a).map Numeral.value) ((n :: b).map Numeral.value)))) ∧
        checkedCompareBySegments (dotted (m :: a)) (dotted (n :: b)) =
          .ok (pure (.ofOrdering
            (comparePadded ((m :: a).map Numeral.value) ((n :: b).map Numeral.value))))) ∧
      (¬ Number.AreReadable ((m :: a ++ n :: b).map Numeral.digits) →
        ∃ fault,
          checkedCompareBySegments (dotted (m :: a)) (dotted (n :: b)) = .error fault ∧
          checkedCompare (some (dotted (m :: a))) (some (dotted (n :: b))) =
            if dotted (m :: a) = dotted (n :: b) then .ok (pure .equal) else .error fault) := by
  have hma := List.cons_ne_nil m a
  have hnb := List.cons_ne_nil n b
  refine ⟨⟨isRegular_dotted m a, isRegular_dotted n b⟩, ?_, ?_⟩
  · intro hreadable
    have hcompared : Number.AreReadable
        (comparedNumerals (some (dotted (m :: a))) (some (dotted (n :: b)))) := by
      rw [comparedNumerals_dotted hma hnb]
      split_ifs
      · exact List.forall_mem_nil _
      · exact hreadable
    constructor
    · rw [checkedCompare, Number.afterReading_of_readable hcompared, compare_dotted_eq]
    · rw [checkedCompareBySegments, segmentNumerals_dotted hma hnb,
        Number.afterReading_of_readable hreadable, compareBySegments_dotted]
  · intro hlong
    obtain ⟨fault, hfault⟩ := Number.afterReading_of_not_readable (α := Logged Comparison) hlong
    refine ⟨fault, ?_, ?_⟩
    · rw [checkedCompareBySegments, segmentNumerals_dotted hma hnb, hfault]
    · rw [checkedCompare, comparedNumerals_dotted hma hnb]
      split_ifs with heq
      · rw [heq, compare, if_pos rfl]
        rfl
      · exact hfault _

/-- Zeros at the end make no difference to either order. -/
theorem compare_eq_compareBySegments_zeros :
    checkedCompare (some "1.10".toList) (some "1.9.0".toList) = .ok (pure .greater) ∧
      checkedCompareBySegments "1.10".toList "1.9.0".toList = .ok (pure .greater) := by
  have hreadable : Number.AreReadable
      ["1".toList, "10".toList, "1".toList, "9".toList, "0".toList] := by
    decide
  exact (compare_eq_compareBySegments (.ofNat 1) (.ofNat 1) [.ofNat 10]
    [.ofNat 9, .ofNat 0]).2.1 hreadable

/-- Neither order is had of a number that is too long to be read. -/
theorem compare_fails_on_long_number :
    checkedCompare (some (dotted [.tooLong])) (some (dotted [.ofNat 2])) =
        .error (.reading 4301) ∧
      checkedCompareBySegments (dotted [.tooLong]) (dotted [.ofNat 2]) =
        .error (.reading 4301) := by
  constructor
  · rw [checkedCompare, comparedNumerals_dotted (by simp) (by simp), if_neg dotted_tooLong_ne]
    exact Numeral.afterReading_tooLong _ _
  · rw [checkedCompareBySegments, segmentNumerals_dotted (by simp) (by simp)]
    exact Numeral.afterReading_tooLong _ _

end TapAudit.Version
