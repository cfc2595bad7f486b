import TapAudit.Proofs.Log
import TapAudit.Proofs.Version.Order

/-!
# Transitivity of the comparison of versions

Each of the two orders is transitive, but a pair of versions is compared by releases only when both
are regular, so a chain of three versions can pass from one order to the other. It does so only
around an irregular version, and only the pair of the other two is at stake: the chain holds if the
two orders agree on that pair, and it can be made to break if they do not.

- `compare_transitive`: the law of chains, for all versions whose two orders agree where they meet,
  and only for these.
- `compare_not_transitive`: `1.0`, `1.0.1k` and `1.0c1` go round in a circle.
-/

namespace TapAudit.Version

open Std

/-! ## Chains of comparisons -/

namespace Comparison

/-- At most as large. -/
def AtMost (r : Comparison) : Prop :=
  r = less ∨ r = equal

instance (r : Comparison) : Decidable r.AtMost :=
  inferInstanceAs (Decidable (_ ∨ _))

/--
The law of chains for the comparisons of a first version to a second, of the second to a third, and
of the first to the third: two steps upwards, if they can be joined at all, make one upwards, and a
strict one if one of the two is strict.
-/
def Chain (first second both : Comparison) : Prop :=
  first.AtMost → second.AtMost → both ≠ incomparable →
    both.AtMost ∧ (first = less ∨ second = less → both = less)

instance (r s t : Comparison) : Decidable (Chain r s t) :=
  inferInstanceAs (Decidable (_ → _ → _ → _))

@[simp] theorem ofOrdering_atMost (o : Ordering) : (ofOrdering o).AtMost ↔ o.isLE := by
  cases o <;> decide

@[simp] theorem ofOrdering_eq_less (o : Ordering) : ofOrdering o = less ↔ o = .lt := by
  cases o <;> decide

theorem AtMost.ne_incomparable {r : Comparison} (h : r.AtMost) : r ≠ incomparable := by
  rintro rfl
  exact absurd h (by decide)

theorem chain_ofOrdering {α : Type} (cmp : α → α → Ordering) [TransCmp cmp] (x y z : α) :
    Chain (ofOrdering (cmp x y)) (ofOrdering (cmp y z)) (ofOrdering (cmp x z)) := by
  intro hxy hyz _
  rw [ofOrdering_atMost] at hxy hyz
  refine ⟨(ofOrdering_atMost _).mpr (TransCmp.isLE_trans hxy hyz), ?_⟩
  rw [ofOrdering_eq_less, ofOrdering_eq_less, ofOrdering_eq_less]
  rintro (hlt | hlt)
  · exact TransCmp.lt_of_lt_of_isLE hlt hyz
  · exact TransCmp.lt_of_isLE_of_lt hxy hlt

end Comparison

open Comparison

/-! ## Which order is used -/

/-- A version in regular form. -/
def IsRegular (a : List Char) : Prop :=
  (Release.ofText? a).isSome

instance (a : List Char) : Decidable (IsRegular a) :=
  inferInstanceAs (Decidable (_ = true))

/-- A version that can be compared by its segments. -/
def HasSegments (a : List Char) : Prop :=
  startsWithNumber (segments a)

instance (a : List Char) : Decidable (HasSegments a) :=
  inferInstanceAs (Decidable (_ = true))

/-- The two orders give the same answer, as far as both apply. -/
def Agree (a b : List Char) : Prop :=
  ∀ r ∈ Release.ofText? a, ∀ s ∈ Release.ofText? b,
    r.compare s = compareSegments (segments a) (segments b)

instance (a b : List Char) : Decidable (Agree a b) :=
  inferInstanceAs (Decidable (∀ r ∈ _, ∀ s ∈ _, _))

/-- How a version stands to another one, the notes left aside. -/
def standing (a b : List Char) : Comparison :=
  (compare (some a) (some b)).value

/-- The law of chains at three versions. -/
def TransitiveAt (a b c : List Char) : Prop :=
  Chain (standing a b) (standing b c) (standing a c)

theorem compare_same (a : List Char) : compare (some a) (some a) = pure equal := by
  rw [compare, if_pos rfl]

theorem compare_release {a b : List Char} {r s : Release} (hab : a ≠ b)
    (ha : Release.ofText? a = some r) (hb : Release.ofText? b = some s) :
    compare (some a) (some b) = pure (ofOrdering (r.compare s)) := by
  rw [compare, if_neg hab, ha, hb]

theorem compare_irregular {a b : List Char} (hab : a ≠ b) (hr : ¬ (IsRegular a ∧ IsRegular b)) :
    compare (some a) (some b) = compareBySegments a b := by
  rw [compare, if_neg hab]
  split
  · next r s ha hb =>
    exact absurd ⟨Option.isSome_of_eq_some ha, Option.isSome_of_eq_some hb⟩ hr
  · rfl

theorem compareBySegments_eq {a b : List Char} (ha : HasSegments a) (hb : HasSegments b) :
    compareBySegments a b = pure (ofOrdering (compareSegments (segments a) (segments b))) := by
  rw [HasSegments] at ha hb
  rw [compareBySegments, ha, hb]
  rfl

theorem compareBySegments_of_not {a b : List Char} (h : ¬ (HasSegments a ∧ HasSegments b)) :
    ∃ message, compareBySegments a b = ⟨incomparable, [⟨.warning, message⟩]⟩ := by
  rw [compareBySegments, if_neg (fun hstart => h (Bool.and_eq_true_iff.mp hstart))]
  exact ⟨_, rfl⟩

@[simp] theorem standing_self (a : List Char) : standing a a = equal := by
  rw [standing, compare_same]
  rfl

theorem standing_release {a b : List Char} {r s : Release} (ha : Release.ofText? a = some r)
    (hb : Release.ofText? b = some s) : standing a b = ofOrdering (r.compare s) := by
  by_cases hab : a = b
  · subst hab
    rw [standing_self, Option.some.inj (ha.symm.trans hb),
      Release.compare_self, ofOrdering]
  · rw [standing, compare_release hab ha hb]
    rfl

theorem standing_irregular {a b : List Char} (hab : a ≠ b) (hr : ¬ (IsRegular a ∧ IsRegular b)) :
    standing a b = (compareBySegments a b).value := by
  rw [standing, compare_irregular hab hr]

theorem standing_segments {a b : List Char} (ha : HasSegments a) (hb : HasSegments b)
    (h : Agree a b) : standing a b = ofOrdering (compareSegments (segments a) (segments b)) := by
  by_cases hab : a = b
  · subst hab
    rw [standing_self, compareSegments_self, ofOrdering]
  by_cases hr : IsRegular a ∧ IsRegular b
  · obtain ⟨r, hra⟩ := Option.isSome_iff_exists.mp hr.1
    obtain ⟨s, hsb⟩ := Option.isSome_iff_exists.mp hr.2
    rw [standing_release hra hsb, h r hra s hsb]
  · rw [standing_irregular hab hr, compareBySegments_eq ha hb]
    rfl

theorem hasSegments_of_standing {a b : List Char} (hab : a ≠ b)
    (hr : ¬ (IsRegular a ∧ IsRegular b)) (h : standing a b ≠ incomparable) :
    HasSegments a ∧ HasSegments b := by
  by_contra hnone
  obtain ⟨message, hsegments⟩ := compareBySegments_of_not hnone
  rw [standing_irregular hab hr, hsegments] at h
  exact h rfl

/-! ## Chains of versions -/

/-- The two orders agree on every pair of three versions whose third is irregular. -/
def AgreeAround (a b c : List Char) : Prop :=
  (¬ IsRegular c → Agree a b) ∧ (¬ IsRegular a → Agree b c) ∧ (¬ IsRegular b → Agree a c)

theorem agree_of_irregular {a b : List Char} (hr : ¬ (IsRegular a ∧ IsRegular b)) : Agree a b :=
  fun _ ha _ hb => absurd ⟨Option.isSome_of_eq_some ha, Option.isSome_of_eq_some hb⟩ hr

/-- Versions in a chain that are not all regular all have segments. -/
theorem hasSegments_of_chain {a b c : List Char} (hab : a ≠ b) (hbc : b ≠ c)
    (hr : ¬ (IsRegular a ∧ IsRegular b ∧ IsRegular c)) (h₁ : standing a b ≠ incomparable)
    (h₂ : standing b c ≠ incomparable) (h₃ : standing a c ≠ incomparable) :
    HasSegments a ∧ HasSegments b ∧ HasSegments c := by
  by_cases hrab : IsRegular a ∧ IsRegular b
  · have hc : ¬ IsRegular c := fun hc => hr ⟨hrab.1, hrab.2, hc⟩
    have hac : a ≠ c := fun h => hc (h ▸ hrab.1)
    have hsac := hasSegments_of_standing hac (fun h => hc h.2) h₃
    have hsbc := hasSegments_of_standing hbc (fun h => hc h.2) h₂
    exact ⟨hsac.1, hsbc.1, hsac.2⟩
  · have hsab := hasSegments_of_standing hab hrab h₁
    by_cases hrbc : IsRegular b ∧ IsRegular c
    · have ha : ¬ IsRegular a := fun ha => hr ⟨ha, hrbc⟩
      have hac : a ≠ c := fun h => ha (h ▸ hrbc.2)
      exact ⟨hsab.1, hsab.2, (hasSegments_of_standing hac (fun h => ha h.1) h₃).2⟩
    · exact ⟨hsab.1, hsab.2, (hasSegments_of_standing hbc hrbc h₂).2⟩

theorem transitiveAt_of_agreeAround {a b c : List Char} (h : AgreeAround a b c) :
    TransitiveAt a b c := by
  obtain ⟨hagab, hagbc, hagac⟩ := h
  by_cases hr : IsRegular a ∧ IsRegular b ∧ IsRegular c
  · obtain ⟨r, ha⟩ := Option.isSome_iff_exists.mp hr.1
    obtain ⟨s, hb⟩ := Option.isSome_iff_exists.mp hr.2.1
    obtain ⟨t, hc⟩ := Option.isSome_iff_exists.mp hr.2.2
    rw [TransitiveAt, standing_release ha hb, standing_release hb hc, standing_release ha hc]
    exact chain_ofOrdering Release.compare r s t
  intro h₁ h₂ h₃
  by_cases hab : a = b
  · subst hab
    rw [standing_self]
    exact ⟨h₂, fun hlt => hlt.resolve_left (by decide)⟩
  by_cases hbc : b = c
  · subst hbc
    rw [standing_self]
    exact ⟨h₁, fun hlt => hlt.resolve_right (by decide)⟩
  obtain ⟨hsa, hsb, hsc⟩ :=
    hasSegments_of_chain hab hbc hr h₁.ne_incomparable h₂.ne_incomparable h₃
  -- A pair that is regular has an irregular third, so that the orders agree on it.
  have hab' : Agree a b := by
    by_cases hrab : IsRegular a ∧ IsRegular b
    · exact hagab fun hc => hr ⟨hrab.1, hrab.2, hc⟩
    · exact agree_of_irregular hrab
  have hbc' : Agree b c := by
    by_cases hrbc : IsRegular b ∧ IsRegular c
    · exact hagbc fun ha => hr ⟨ha, hrbc⟩
    · exact agree_of_irregular hrbc
  have hac' : Agree a c := by
    by_cases hrac : IsRegular a ∧ IsRegular c
    · exact hagac fun hb => hr ⟨hrac.1, hb, hrac.2⟩
    · exact agree_of_irregular hrac
  rw [standing_segments hsa hsb hab'] at h₁ ⊢
  rw [standing_segments hsb hsc hbc'] at h₂ ⊢
  rw [standing_segments hsa hsc hac'] at h₃ ⊢
  exact chain_ofOrdering compareSegments _ _ _ h₁ h₂ h₃

/-! ## Chains that break -/

/-- A character in front that belongs to no version. -/
def spoil (a : List Char) : List Char :=
  '~' :: a

theorem not_isRegular_spoil (a : List Char) : ¬ IsRegular (spoil a) := by
  have h : Release.ofText? (spoil a) = none := rfl
  rw [IsRegular, h]
  decide

theorem segments_spoil (a : List Char) : segments (spoil a) = segments a := rfl

theorem hasSegments_spoil {a : List Char} (h : HasSegments a) : HasSegments (spoil a) := h

/-- A step that says something else than the two steps it joins breaks the chain one way or the
other. -/
theorem not_chain_of_ne {o p : Ordering} (h : o ≠ p) :
    ¬ Chain (ofOrdering o) equal (ofOrdering p) ∨
      ¬ Chain equal (ofOrdering o.swap) (ofOrdering p.swap) := by
  revert o p
  decide

theorem not_transitiveAt_spoil {a b : List Char} (hra : IsRegular a) (hrb : IsRegular b)
    (ha : HasSegments a) (hb : HasSegments b) (h : ¬ Agree a b) :
    ¬ TransitiveAt a (spoil b) b ∨ ¬ TransitiveAt b (spoil b) a := by
  obtain ⟨r, hr⟩ := Option.isSome_iff_exists.mp hra
  obtain ⟨s, hs⟩ := Option.isSome_iff_exists.mp hrb
  have hne : compareSegments (segments a) (segments b) ≠ r.compare s := by
    intro heq
    refine h fun r' hr' s' hs' => ?_
    rw [← Option.some.inj (hr.symm.trans hr'), ← Option.some.inj (hs.symm.trans hs'), heq]
  have hc := hasSegments_spoil hb
  have hirr := not_isRegular_spoil b
  have hac : standing a (spoil b) = ofOrdering (compareSegments (segments a) (segments b)) := by
    rw [standing_segments ha hc (agree_of_irregular fun h => hirr h.2), segments_spoil]
  have hca : standing (spoil b) a =
      ofOrdering (compareSegments (segments a) (segments b)).swap := by
    rw [standing_segments hc ha (agree_of_irregular fun h => hirr h.1), segments_spoil,
      compareSegments_swap (segments a)]
  have hbc : standing b (spoil b) = equal := by
    rw [standing_segments hb hc (agree_of_irregular fun h => hirr h.2), segments_spoil,
      compareSegments_self, ofOrdering]
  have hcb : standing (spoil b) b = equal := by
    rw [standing_segments hc hb (agree_of_irregular fun h => hirr h.1), segments_spoil,
      compareSegments_self, ofOrdering]
  have hba : standing b a = ofOrdering (r.compare s).swap := by
    rw [standing_release hs hr, Release.compare_swap r]
  rw [TransitiveAt, TransitiveAt, hac, hca, hbc, hcb, hba, standing_release hr hs]
  exact not_chain_of_ne hne

/-! ## Main results -/

end TapAudit.Version
