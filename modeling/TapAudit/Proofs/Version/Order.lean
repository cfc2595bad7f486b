import Mathlib.Tactic.Common
import TapAudit.Version.Comparison

/-!
# The two orders of versions

Releases are ordered by their parts in turn, and lists of segments by the keys of their segments.
Both orders are total preorders. The keys are filled up to the width of the longer list, so three
lists are compared at different widths; any width that is large enough gives the same answer.

- `Release.compare`: releases are compared transitively.
- `compareSegments_eq_compareLex`: segments may be compared at any width that holds both lists.
- `compareSegments`: segments are compared transitively.
-/

namespace TapAudit.Version

open Std

/-! ## Releases -/

instance : TransCmp Place.compare :=
  inferInstanceAs (TransCmp (compareLex (compareOn fun a : Place => a.1)
    (compareLex (compareOn fun a : Place => a.2.1) (compareOn fun a : Place => a.2.2))))

instance : TransCmp compareLabels where
  eq_swap {a b} := by
    cases a <;> cases b <;> try rfl
    exact @OrientedCmp.eq_swap _ (List.compareLex Place.compare) _ _ _
  isLE_trans {a b c} hab hbc := by
    cases a <;> cases b <;> cases c <;> try first | rfl | contradiction
    exact @TransCmp.isLE_trans _ (List.compareLex Place.compare) _ _ _ _ hab hbc

theorem transCmp_on {α β : Type} (part : α → β) (cmp : β → β → Ordering) [TransCmp cmp] :
    TransCmp fun a b : α => cmp (part a) (part b) where
  eq_swap {_ _} := @OrientedCmp.eq_swap _ cmp _ _ _
  isLE_trans {_ _ _} := @TransCmp.isLE_trans _ cmp _ _ _ _

instance : TransCmp Release.compare :=
  have := transCmp_on Release.prePlace Place.compare
  have := transCmp_on Release.postPlace Place.compare
  have := transCmp_on Release.devPlace Place.compare
  have := transCmp_on Release.label compareLabels
  inferInstanceAs (TransCmp (compareLex (compareOn Release.epoch)
    (compareLex (compareOn Release.significant)
      (compareLex (fun a b : Release => a.prePlace.compare b.prePlace)
        (compareLex (fun a b : Release => a.postPlace.compare b.postPlace)
          (compareLex (fun a b : Release => a.devPlace.compare b.devPlace)
            (fun a b : Release => compareLabels a.label b.label)))))))

/-! ## Segments -/

instance : TransCmp Segment.Key.compare :=
  inferInstanceAs (TransCmp (compareLex (compareOn fun a : Segment.Key => a.1)
    (compareLex (compareOn fun a : Segment.Key => a.2.1)
      (compareOn fun a : Segment.Key => a.2.2))))

/-- What two lists of one length end in counts only when the lists themselves are alike. -/
theorem compareLex_append {α : Type} (cmp : α → α → Ordering) (s t : List α) :
    ∀ l m : List α, l.length = m.length →
      List.compareLex cmp (l ++ s) (m ++ t) =
        (List.compareLex cmp l m).then (List.compareLex cmp s t) := by
  intro l
  induction l with
  | nil =>
    intro m h
    rw [List.length_eq_zero_iff.mp h.symm]
    rfl
  | cons x l ih =>
    intro m h
    cases m with
    | nil => contradiction
    | cons y m =>
      rw [List.cons_append, List.cons_append, List.compareLex_cons_cons,
        List.compareLex_cons_cons, ih m (Nat.succ.inj h), Ordering.then_assoc]

theorem length_keys {width : Nat} {s : List Segment} (h : s.length ≤ width) :
    (keys width s).length = width := by
  rw [keys, List.length_append, List.length_map, List.length_replicate]
  omega

theorem keys_add {width : Nat} {s : List Segment} (h : s.length ≤ width) (more : Nat) :
    keys (width + more) s = keys width s ++ List.replicate more Segment.missing := by
  rw [keys, keys, List.append_assoc, List.replicate_append_replicate]
  congr 2
  omega

theorem compareSegments_eq_compareLex {a b : List Segment} {width : Nat}
    (ha : a.length ≤ width) (hb : b.length ≤ width) :
    compareSegments a b = List.compareLex Segment.Key.compare (keys width a) (keys width b) := by
  have hwidth : max a.length b.length ≤ width := Nat.max_le.mpr ⟨ha, hb⟩
  obtain ⟨more, rfl⟩ := Nat.exists_eq_add_of_le hwidth
  have hla := length_keys (Nat.le_max_left a.length b.length)
  have hlb := length_keys (Nat.le_max_right a.length b.length)
  have hmissing : List.compareLex Segment.Key.compare (List.replicate more Segment.missing)
      (List.replicate more Segment.missing) = .eq := ReflCmp.compare_self
  rw [keys_add (Nat.le_max_left ..), keys_add (Nat.le_max_right ..),
    compareLex_append _ _ _ _ _ (hla.trans hlb.symm), hmissing, Ordering.then_eq]
  rfl

instance : TransCmp compareSegments where
  eq_swap {a b} := by
    rw [compareSegments_eq_compareLex (Nat.le_max_left ..) (Nat.le_max_right ..),
      compareSegments_eq_compareLex (Nat.le_max_right a.length _) (Nat.le_max_left ..)]
    exact OrientedCmp.eq_swap
  isLE_trans {a b c} hab hbc := by
    -- One width for all three lists.
    obtain ⟨width, ha, hb, hc⟩ :
        ∃ width, a.length ≤ width ∧ b.length ≤ width ∧ c.length ≤ width :=
      ⟨a.length + b.length + c.length, by omega, by omega, by omega⟩
    rw [compareSegments_eq_compareLex ha hb] at hab
    rw [compareSegments_eq_compareLex hb hc] at hbc
    rw [compareSegments_eq_compareLex ha hc]
    exact TransCmp.isLE_trans hab hbc

/-! ## Laws -/

theorem Release.compare_self (r : Release) : r.compare r = .eq :=
  ReflCmp.compare_self

theorem Release.compare_swap (r s : Release) : s.compare r = (r.compare s).swap :=
  OrientedCmp.eq_swap

theorem compareSegments_self (a : List Segment) : compareSegments a a = .eq :=
  ReflCmp.compare_self

theorem compareSegments_swap (a b : List Segment) :
    compareSegments b a = (compareSegments a b).swap :=
  OrientedCmp.eq_swap

end TapAudit.Version
