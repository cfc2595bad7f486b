import Mathlib.Tactic.Common
import TapAudit.Invariant
import TapAudit.Proofs.Version.Transitivity

/-!
# Histories without problems

A state of a formula is only ever compared with the one before it. The rules for such a pair respect
one order all the same: states are ordered by version scheme, then by version, then by revision, and
a state without problems is not below its predecessor. As this order is transitive, a history in
which no step has problems never moves backwards, however long it is.

- `problems_eq_nil_iff`: which steps have no problems.
- `Versioned.compare_isLE_of_follows`: such a step does not lead downwards.
- `history_progress`: what becomes of a whole history.
-/

namespace TapAudit.Invariant

open Std (OrientedCmp ReflCmp TransCmp)
open Version (Comparison Release)

/-! ## Steps without problems -/

/-- What may change from one state to the next, given how the new version stands to the old one. -/
structure IsStep (current historical : Snapshot) (delta : Comparison) : Prop where
  scheme : historical.effectiveScheme ≤ current.effectiveScheme ∧
    current.effectiveScheme ≤ historical.effectiveScheme + 1
  lowered : delta = .less → historical.effectiveScheme < current.effectiveScheme
  kept : delta = .equal → historical.effectiveRevision ≤ current.effectiveRevision ∧
    current.effectiveRevision ≤ historical.effectiveRevision + 1
  raised : delta = .greater → current.effectiveRevision = 0

section Step

variable {current historical : Snapshot} {delta : Comparison}

theorem schemeProblems_eq_nil_iff :
    schemeProblems current historical = [] ↔
      historical.effectiveScheme ≤ current.effectiveScheme ∧
        current.effectiveScheme ≤ historical.effectiveScheme + 1 := by
  rw [schemeProblems]
  split_ifs with hbelow habove
  · simp only [false_iff]
    omega
  · simp only [false_iff]
    omega
  · simp only [true_iff]
    omega

theorem versionProblems_eq_nil_iff :
    versionProblems current historical delta = [] ↔
      (delta = .less → historical.effectiveScheme < current.effectiveScheme) := by
  rw [versionProblems]
  split_ifs with h
  · simp [h.1, h.2]
  · simpa using h

theorem revisionProblems_eq_nil_iff :
    revisionProblems current historical delta = [] ↔
      (delta = .equal → historical.effectiveRevision ≤ current.effectiveRevision ∧
        current.effectiveRevision ≤ historical.effectiveRevision + 1) ∧
      (delta = .greater → current.effectiveRevision = 0) := by
  cases delta with
  | less => simp [revisionProblems]
  | incomparable => simp [revisionProblems]
  | equal =>
    rw [revisionProblems]
    split_ifs with hbelow habove <;> simp <;> omega
  | greater =>
    rw [revisionProblems]
    split_ifs with hzero hsame hbig <;> simp [hzero]

theorem problems_eq_nil_iff :
    problems current (some historical) = [] ↔
      IsStep current historical (Version.compare current.version historical.version).value := by
  rw [problems]
  simp only [List.append_eq_nil_iff, schemeProblems_eq_nil_iff, versionProblems_eq_nil_iff,
    revisionProblems_eq_nil_iff]
  constructor
  · rintro ⟨⟨hscheme, hlowered⟩, hkept, hraised⟩
    exact ⟨hscheme, hlowered, hkept, hraised⟩
  · rintro ⟨hscheme, hlowered, hkept, hraised⟩
    exact ⟨⟨hscheme, hlowered⟩, hkept, hraised⟩

end Step

/-! ## The order of states -/

/-- A state whose version is present and regular. -/
structure Versioned where
  snapshot : Snapshot
  version : List Char
  release : Release
  version_eq : snapshot.version = some version
  release_eq : Release.ofText? version = some release

namespace Versioned

def scheme (s : Versioned) : Int :=
  s.snapshot.effectiveScheme

def revision (s : Versioned) : Int :=
  s.snapshot.effectiveRevision

/-- How the version of a state stands to that of another one. -/
def delta (s t : Versioned) : Comparison :=
  (Version.compare s.snapshot.version t.snapshot.version).value

/-- A state that has no problems, given another one as the last committed state. -/
def Follows (s t : Versioned) : Prop :=
  problems s.snapshot (some t.snapshot) = []

instance (s t : Versioned) : Decidable (s.Follows t) :=
  inferInstanceAs (Decidable (_ = _))

/-- States are ordered by version scheme, then by version, then by revision. -/
def compare (s t : Versioned) : Ordering :=
  (Ord.compare s.scheme t.scheme).then <|
  (s.release.compare t.release).then <|
  Ord.compare s.revision t.revision

instance : TransCmp compare :=
  have := Version.transCmp_on release Release.compare
  inferInstanceAs (TransCmp (compareLex (compareOn scheme)
    (compareLex (fun s t : Versioned => s.release.compare t.release) (compareOn revision))))

variable {s t : Versioned}

theorem delta_eq (s t : Versioned) : s.delta t = .ofOrdering (s.release.compare t.release) := by
  rw [delta, s.version_eq, t.version_eq]
  exact Version.standing_release s.release_eq t.release_eq

theorem delta_eq_equal_iff : s.delta t = .equal ↔ s.release.compare t.release = .eq := by
  rw [delta_eq]
  cases s.release.compare t.release <;> decide

theorem compare_isLE_iff :
    (s.compare t).isLE ↔
      s.scheme < t.scheme ∨ s.scheme = t.scheme ∧
        (s.release.compare t.release = .lt ∨
          s.release.compare t.release = .eq ∧ s.revision ≤ t.revision) := by
  rw [compare]
  rcases Int.lt_trichotomy s.scheme t.scheme with hscheme | hscheme | hscheme
  · simp [Int.compare_eq_lt.mpr hscheme, hscheme]
  · cases s.release.compare t.release <;>
      simp [hscheme, Int.isLE_compare]
  · simp only [Int.compare_eq_gt.mpr hscheme, Ordering.gt_then, Ordering.isLE_gt,
      Bool.false_eq_true, false_iff]
    omega

theorem release_isLE_of_compare (h : (s.compare t).isLE) (hscheme : s.scheme = t.scheme) :
    (s.release.compare t.release).isLE := by
  rcases compare_isLE_iff.mp h with hlt | ⟨-, hlt | ⟨heq, -⟩⟩
  · omega
  · rw [hlt]
    rfl
  · rw [heq]
    rfl

theorem Follows.isStep (h : s.Follows t) : IsStep s.snapshot t.snapshot (s.delta t) :=
  problems_eq_nil_iff.mp h

/-- A step without problems does not lead downwards. -/
theorem compare_isLE_of_follows (h : s.Follows t) : (t.compare s).isLE := by
  obtain ⟨hscheme, hlowered, hkept, -⟩ := h.isStep
  rw [delta_eq, Release.compare_swap t.release] at hlowered hkept
  rw [compare_isLE_iff]
  cases hrelease : t.release.compare s.release with
  | lt =>
    rcases Int.lt_or_eq_of_le hscheme.1 with hlt | heq
    · exact .inl hlt
    · exact .inr ⟨heq, .inl rfl⟩
  | eq =>
    rw [hrelease] at hkept
    rcases Int.lt_or_eq_of_le hscheme.1 with hlt | heq
    · exact .inl hlt
    · exact .inr ⟨heq, .inr ⟨rfl, (hkept rfl).1⟩⟩
  | gt =>
    rw [hrelease] at hlowered
    exact .inl (hlowered rfl)

end Versioned

/-! ## Histories -/

section History

variable {n : Nat} {state : Nat → Versioned}

theorem compare_isLE_of_le (h : ∀ i < n, (state (i + 1)).Follows (state i)) {i j : Nat}
    (hij : i ≤ j) (hj : j ≤ n) : ((state i).compare (state j)).isLE := by
  induction hij with
  | refl => exact ReflCmp.isLE_rfl
  | @step j _ ih =>
    exact TransCmp.isLE_trans (ih (by omega)) (Versioned.compare_isLE_of_follows (h j hj))

theorem scheme_mono (h : ∀ i < n, (state (i + 1)).Follows (state i)) {i j : Nat} (hij : i ≤ j)
    (hj : j ≤ n) : (state i).scheme ≤ (state j).scheme := by
  rcases Versioned.compare_isLE_iff.mp (compare_isLE_of_le h hij hj) with hlt | ⟨heq, -⟩
  · exact Int.le_of_lt hlt
  · exact Int.le_of_eq heq

theorem scheme_le_add (h : ∀ i < n, (state (i + 1)).Follows (state i)) :
    (state n).scheme ≤ (state 0).scheme + n := by
  induction n with
  | zero => simp
  | succ n ih =>
    have hbefore := ih fun i hi => h i (by omega)
    have hstep : (state (n + 1)).scheme ≤ (state n).scheme + 1 :=
      (h n (Nat.lt_succ_self n)).isStep.scheme.2
    push_cast
    omega

theorem delta_eq_equal_of_between (h : ∀ i < n, (state (i + 1)).Follows (state i))
    (hscheme : (state n).scheme = (state 0).scheme) (hdelta : (state n).delta (state 0) = .equal)
    {i : Nat} (hi : i ≤ n) : (state i).delta (state 0) = .equal := by
  have hfirst := scheme_mono h (Nat.zero_le i) hi
  have hlast := scheme_mono h hi (Nat.le_refl n)
  have hle : ((state 0).release.compare (state i).release).isLE :=
    Versioned.release_isLE_of_compare (compare_isLE_of_le h (Nat.zero_le i) hi) (by omega)
  have hge : ((state i).release.compare (state n).release).isLE :=
    Versioned.release_isLE_of_compare (compare_isLE_of_le h hi (Nat.le_refl n)) (by omega)
  rw [Versioned.delta_eq_equal_iff] at hdelta ⊢
  refine OrientedCmp.isLE_antisymm ?_ hle
  exact TransCmp.isLE_trans hge (by rw [hdelta]; rfl)

theorem revision_of_equal (h : ∀ i < n, (state (i + 1)).Follows (state i))
    (hequal : ∀ i ≤ n, (state i).delta (state 0) = .equal) :
    (state 0).revision ≤ (state n).revision ∧ (state n).revision ≤ (state 0).revision + n := by
  induction n with
  | zero => simp
  | succ n ih =>
    obtain ⟨hlow, hhigh⟩ := ih (fun i hi => h i (by omega)) fun i hi => hequal i (by omega)
    have hbefore := Versioned.delta_eq_equal_iff.mp (hequal n (by omega))
    have hnow := Versioned.delta_eq_equal_iff.mp (hequal (n + 1) (Nat.le_refl _))
    have hkept : (state (n + 1)).delta (state n) = .equal := by
      rw [Versioned.delta_eq_equal_iff]
      exact TransCmp.eq_trans hnow (OrientedCmp.eq_symm hbefore)
    have hstep : (state n).revision ≤ (state (n + 1)).revision ∧
        (state (n + 1)).revision ≤ (state n).revision + 1 :=
      (h n (Nat.lt_succ_self n)).isStep.kept hkept
    push_cast
    omega

/--
**A history without problems never moves backwards.** Its version scheme never falls and grows by at
most one for each step; its last state is not below its first one; and if these two are alike in
scheme and version, all versions between them are the same, and the revision has grown by at most
one for each step.
-/
theorem history_progress (h : ∀ i < n, (state (i + 1)).Follows (state i)) :
    (∀ i j, i ≤ j → j ≤ n → (state i).scheme ≤ (state j).scheme) ∧
      (state n).scheme ≤ (state 0).scheme + n ∧
      ((state 0).compare (state n)).isLE ∧
      ((state n).scheme = (state 0).scheme → (state n).delta (state 0) = .equal →
        (∀ i ≤ n, (state i).delta (state 0) = .equal) ∧
          (state 0).revision ≤ (state n).revision ∧
          (state n).revision ≤ (state 0).revision + n) := by
  refine ⟨fun i j hij hj => scheme_mono h hij hj, scheme_le_add h,
    compare_isLE_of_le h (Nat.zero_le n) (Nat.le_refl n), fun hscheme hdelta => ?_⟩
  have hequal : ∀ i ≤ n, (state i).delta (state 0) = .equal := fun i hi =>
    delta_eq_equal_of_between h hscheme hdelta hi
  exact ⟨hequal, revision_of_equal h hequal⟩

end History

/-- A revision, a smaller version under a new scheme, and again a revision. -/
def sampleHistory : Nat → Versioned
  | 0 => { snapshot := { version := some "1.0".toList }, version := "1.0".toList,
           release := ⟨0, [1, 0], none, none, none, none⟩, version_eq := rfl,
           release_eq := by decide +kernel }
  | 1 => { snapshot := { version := some "1.00".toList, revision := some 1 },
           version := "1.00".toList, release := ⟨0, [1, 0], none, none, none, none⟩,
           version_eq := rfl, release_eq := by decide +kernel }
  | 2 => { snapshot := { version := some "0.9rc1".toList, versionScheme := some 1 },
           version := "0.9rc1".toList,
           release := ⟨0, [0, 9], some ⟨"rc".toList, 1⟩, none, none, none⟩, version_eq := rfl,
           release_eq := by decide +kernel }
  | _ => { snapshot := { version := some "0.9c1".toList, versionScheme := some 1,
                         revision := some 1 },
           version := "0.9c1".toList,
           release := ⟨0, [0, 9], some ⟨"rc".toList, 1⟩, none, none, none⟩, version_eq := rfl,
           release_eq := by decide +kernel }

theorem history_progress_sample :
    (∀ i < 3, (sampleHistory (i + 1)).Follows (sampleHistory i)) ∧
      (sampleHistory 3).scheme ≤ (sampleHistory 0).scheme + 3 ∧
      ((sampleHistory 0).compare (sampleHistory 3)).isLE ∧
      (sampleHistory 0).revision ≤ (sampleHistory 1).revision ∧
      (sampleHistory 1).revision ≤ (sampleHistory 0).revision + 1 := by
  have h : ∀ i < 3, (sampleHistory (i + 1)).Follows (sampleHistory i) := by decide +kernel
  have hfirst : ∀ i < 1, (sampleHistory (i + 1)).Follows (sampleHistory i) :=
    fun i hi => h i (by omega)
  obtain ⟨-, hscheme, hcompare, -⟩ := history_progress h
  obtain ⟨-, -, -, hequal⟩ := history_progress hfirst
  obtain ⟨-, hrevision⟩ := hequal (by decide) (by decide +kernel)
  exact ⟨h, hscheme, hcompare, hrevision⟩

end TapAudit.Invariant
