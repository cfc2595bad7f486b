import Mathlib.Data.List.DropRight
import TapAudit.Proofs.Number.Limit
import TapAudit.Proofs.Version.Converse
import TapAudit.Proofs.Version.Dotted

/-!
# The order by segments

Versions with a number in front are totally preordered by their segments. A missing segment counts
as the number zero, whatever the width to which the lists are filled up, so two versions are on one
level exactly if they have the same segments up to zeros at the end.

- `rightpad_eq_rightpad_iff`: lists that are filled up to one width.
- `compareSegments_eq_eq_iff`: segments that are on one level.
- `compareBySegments_preorder`: **the order by segments is a total preorder.**
-/

namespace TapAudit.Version

open Std

/-! ## Lists that are filled up -/

section

variable {α : Type} [BEq α] [LawfulBEq α] {x : α} {width : Nat}

/-- What is filled up keeps the part that does not look filled up, and the width. -/
theorem rightpad_eq_rdropWhile_append {l : List α} (h : l.length ≤ width) :
    l.rightpad width x =
      l.rdropWhile (· == x) ++ List.replicate (width - (l.rdropWhile (· == x)).length) x := by
  have hsplit : l.rdropWhile (· == x) ++ l.rtakeWhile (· == x) = l :=
    List.rdropWhile_append_rtakeWhile
  have hend : l.rtakeWhile (· == x) = List.replicate (l.rtakeWhile (· == x)).length x := by
    refine List.eq_replicate_iff.mpr ⟨rfl, fun y hy => ?_⟩
    have hbeq := List.mem_rtakeWhile_imp hy
    exact eq_of_beq hbeq
  have hlength := congrArg List.length hsplit
  rw [List.length_append] at hlength
  calc l.rightpad width x
    _ = l ++ List.replicate (width - l.length) x := rfl
    _ = (l.rdropWhile (· == x) ++ l.rtakeWhile (· == x)) ++
          List.replicate (width - l.length) x := by rw [hsplit]
    _ = l.rdropWhile (· == x) ++ (List.replicate (l.rtakeWhile (· == x)).length x ++
          List.replicate (width - l.length) x) := by rw [List.append_assoc, ← hend]
    _ = _ := by
      rw [List.replicate_append_replicate]
      congr 2
      omega

theorem rdropWhile_rightpad (l : List α) :
    (l.rightpad width x).rdropWhile (· == x) = l.rdropWhile (· == x) := by
  rw [List.rightpad, List.rdropWhile, List.reverse_append, List.reverse_replicate,
    List.dropWhile_append_of_pos fun y hy => beq_iff_eq.mpr (List.eq_of_mem_replicate hy)]
  rfl

theorem rightpad_eq_rightpad_iff {a b : List α} (ha : a.length ≤ width) (hb : b.length ≤ width) :
    a.rightpad width x = b.rightpad width x ↔ a.rdropWhile (· == x) = b.rdropWhile (· == x) := by
  constructor
  · intro h
    rw [← rdropWhile_rightpad a, h, rdropWhile_rightpad]
  · intro h
    rw [rightpad_eq_rdropWhile_append ha, rightpad_eq_rdropWhile_append hb, h]

end

/-! ## Keys -/

theorem keys_eq_map_rightpad (width : Nat) (s : List Segment) :
    keys width s = (s.rightpad width (.number 0)).map Segment.key := by
  rw [keys, List.rightpad, List.map_append, List.map_replicate]
  rfl

theorem Segment.exists_key_word (w : List Char) :
    ∃ rank ≠ 1, (Segment.word w).key = (rank, 0, w) := by
  rw [Segment.key]
  split
  · exact ⟨0, by decide, rfl⟩
  · exact ⟨2, by decide, rfl⟩

theorem Segment.key_injective : Function.Injective Segment.key := by
  intro s t h
  cases s with
  | number m =>
    cases t with
    | number n => simpa [Segment.key] using h
    | word w =>
      obtain ⟨rank, hrank, hkey⟩ := Segment.exists_key_word w
      rw [hkey] at h
      exact absurd (congrArg Prod.fst h).symm hrank
  | word v =>
    obtain ⟨rank, hrank, hkey⟩ := Segment.exists_key_word v
    rw [hkey] at h
    cases t with
    | number n => exact absurd (congrArg Prod.fst h) hrank
    | word w =>
      obtain ⟨rank', -, hkey'⟩ := Segment.exists_key_word w
      rw [hkey'] at h
      rw [show v = w from congrArg (·.2.2) h]

instance : LawfulEqCmp Segment.Key.compare where
  eq_of_compare {a b} h := by
    rw [Segment.Key.compare, Ordering.then_eq_eq, Ordering.then_eq_eq] at h
    obtain ⟨hrank, hnumber, hword⟩ := h
    exact Prod.ext (LawfulEqOrd.eq_of_compare hrank)
      (Prod.ext (LawfulEqOrd.eq_of_compare hnumber) (LawfulEqOrd.eq_of_compare hword))

/-! ## Levels -/

/-- Segments without the numbers at the end that are zero. -/
def significantSegments (s : List Segment) : List Segment :=
  s.rdropWhile (· == .number 0)

theorem compareSegments_eq_eq_iff {a b : List Segment} :
    compareSegments a b = .eq ↔ significantSegments a = significantSegments b := by
  have hkeys (width : Nat) :
      List.compareLex Segment.Key.compare (keys width a) (keys width b) = .eq ↔
        keys width a = keys width b :=
    @LawfulEqCmp.compare_eq_iff_eq _ (List.compareLex Segment.Key.compare) _ _ _
  rw [compareSegments, hkeys, keys_eq_map_rightpad, keys_eq_map_rightpad,
    (List.map_injective_iff.mpr Segment.key_injective).eq_iff]
  exact rightpad_eq_rightpad_iff (Nat.le_max_left ..) (Nat.le_max_right ..)

/-! ## Main result -/

open Comparison

/-- None of the numbers in a version is too long to be read. -/
def IsReadable (version : List Char) : Prop :=
  Number.AreReadable (numerals version)

instance (version : List Char) : Decidable (IsReadable version) :=
  inferInstanceAs (Decidable (Number.AreReadable _))

/-- How a version stands to another one by their segments, the notes left aside. -/
def segmentStanding (a b : List Char) : Except Number.Fault Comparison :=
  (checkedCompareBySegments a b).map (·.value)

/-- A version stands on or below the level of another one. -/
def StandsAtMost (a b : List Char) : Prop :=
  ∃ standing, segmentStanding a b = .ok standing ∧ standing.AtMost

theorem segmentStanding_succeeds_iff {a b : List Char} :
    (∃ standing, segmentStanding a b = .ok standing) ↔ IsReadable a ∧ IsReadable b := by
  simp only [segmentStanding, checkedCompareBySegments, Number.afterReading_map,
    Number.afterReading_succeeds_iff, segmentNumerals, Number.areReadable_append, IsReadable]

theorem segmentStanding_eq {a b : List Char} (ha : HasSegments a) (hb : HasSegments b)
    (hra : IsReadable a) (hrb : IsReadable b) :
    segmentStanding a b = .ok (ofOrdering (compareSegments (segments a) (segments b))) := by
  have hreadable : Number.AreReadable (segmentNumerals a b) :=
    Number.areReadable_append.mpr ⟨hra, hrb⟩
  rw [segmentStanding, checkedCompareBySegments, Number.afterReading_of_readable hreadable,
    compareBySegments_eq ha hb]
  rfl

theorem standsAtMost_iff {a b : List Char} {standing : Comparison}
    (h : segmentStanding a b = .ok standing) : StandsAtMost a b ↔ standing.AtMost := by
  simp [StandsAtMost, h]

theorem Comparison.ofOrdering_eq_equal (o : Ordering) : ofOrdering o = equal ↔ o = .eq := by
  cases o <;> decide

/--
**The order by segments is a total preorder.** Versions with a number in front can be compared
exactly if none of their numbers is too long to be read. Such versions stand on a level with
themselves, each two of them have an order, a converse one when they change places, and steps
upwards join, to a strict one if one of them is strict. Two versions are on one level exactly if
their segments are the same up to zeros at the end.
-/
theorem compareBySegments_preorder {a b c : List Char} (ha : HasSegments a) (hb : HasSegments b)
    (hc : HasSegments c) :
    ((∃ standing, segmentStanding a b = .ok standing) ↔ IsReadable a ∧ IsReadable b) ∧
      (IsReadable a → IsReadable b → IsReadable c →
        segmentStanding a a = .ok equal ∧
        segmentStanding a b ≠ .ok incomparable ∧
        segmentStanding b a = (segmentStanding a b).map converse ∧
        (StandsAtMost a b ∨ StandsAtMost b a) ∧
        (StandsAtMost a b → StandsAtMost b c →
          StandsAtMost a c ∧
            (segmentStanding a b = .ok less ∨ segmentStanding b c = .ok less →
              segmentStanding a c = .ok less)) ∧
        (segmentStanding a b = .ok equal ↔
          significantSegments (segments a) = significantSegments (segments b))) := by
  refine ⟨segmentStanding_succeeds_iff, fun hra hrb hrc => ?_⟩
  have hab := segmentStanding_eq ha hb hra hrb
  have hba := segmentStanding_eq hb ha hrb hra
  have hbc := segmentStanding_eq hb hc hrb hrc
  have hac := segmentStanding_eq ha hc hra hrc
  rw [standsAtMost_iff hab, standsAtMost_iff hba, standsAtMost_iff hbc, standsAtMost_iff hac,
    segmentStanding_eq ha ha hra hra, hab, hba, hbc, hac]
  simp only [Except.ok.injEq, ne_eq, Except.map]
  refine ⟨?_, ?_, ?_, ?_, ?_, ?_⟩
  · rw [compareSegments_self, ofOrdering]
  · exact ofOrdering_ne_incomparable _
  · rw [converse_ofOrdering, compareSegments_swap (segments a)]
  · rw [ofOrdering_atMost, ofOrdering_atMost, compareSegments_swap (segments a)]
    cases compareSegments (segments a) (segments b) <;> decide
  · intro hab hbc
    exact chain_ofOrdering compareSegments _ _ _ hab hbc (ofOrdering_ne_incomparable _)
  · rw [ofOrdering_eq_equal, compareSegments_eq_eq_iff]

/-- A candidate is before its release, however many zeros this has, and the release before a
patch. -/
theorem compareBySegments_preorder_patch :
    segmentStanding "1.0rc1".toList "1.0.2k".toList = .ok less ∧
      segmentStanding "1".toList "1.0.00".toList = .ok equal := by
  have hcandidate : HasSegments "1.0rc1".toList := by decide +kernel
  have hrelease : HasSegments "1".toList := by decide +kernel
  have hzeros : HasSegments "1.0.00".toList := by decide +kernel
  have hpatch : HasSegments "1.0.2k".toList := by decide +kernel
  obtain ⟨-, hchain⟩ := compareBySegments_preorder hcandidate hrelease hpatch
  obtain ⟨-, hlevels⟩ := compareBySegments_preorder hrelease hzeros hpatch
  obtain ⟨-, -, -, -, htrans, -⟩ := hchain (by decide) (by decide) (by decide)
  obtain ⟨-, -, -, -, -, hlevel⟩ := hlevels (by decide) (by decide) (by decide)
  refine ⟨(htrans ?_ ?_).2 (.inl ?_), hlevel.mpr ?_⟩
  · exact ⟨less, by decide +kernel, by decide⟩
  · exact ⟨less, by decide +kernel, by decide⟩
  · decide +kernel
  · decide +kernel

/-- A patch of a release whose number is too long is not compared. -/
theorem compareBySegments_fails_on_long_number :
    (HasSegments (Text.Numeral.tooLong.digits ++ ['k']) ∧ HasSegments "1k".toList) ∧
      segmentStanding (Text.Numeral.tooLong.digits ++ ['k']) "1k".toList =
        .error (.reading 4301) := by
  have hends : Text.EndsRun Text.isDigit ['k'] := Text.endsRun_cons (by decide) []
  refine ⟨⟨?_, by decide⟩, ?_⟩
  · rw [HasSegments, segments, flatMap_runsFrom_numeral rfl _ hends]
    rfl
  · rw [segmentStanding, checkedCompareBySegments, segmentNumerals, numerals,
      flatMap_runsFrom_numeral rfl _ hends, Run.numerals, List.reverse_reverse]
    exact congrArg (Except.map _) (Text.Numeral.afterReading_tooLong _ _)

end TapAudit.Version
