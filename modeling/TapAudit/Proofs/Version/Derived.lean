import Mathlib.Data.List.TakeWhile
import TapAudit.Proofs.Except
import TapAudit.Proofs.Text.Search
import TapAudit.Proofs.Version.Converse
import TapAudit.Proofs.Version.Dotted
import TapAudit.Snapshot

/-!
# Derived versions

A version that is read off a tag or a URL starts with a digit, in whatever shape it was found: as a
whole name, after a separator in a name, as a directory, or somewhere in a tag. Its segments start
with a number, so that it can be compared with every other version of this kind. Only a version
that is declared may be without an order.

- `startsWithDigit_of_derived`: derived versions start with a digit.
- `hasSegments_of_startsWithDigit`: such versions have a number in front.
- `version_written_or_derived`: the version of a snapshot is declared or derived.
- `derived_ordered`: derived versions can be ordered.
-/

namespace TapAudit

open Text

namespace Version

/-! ## Versions start with a digit -/

def StartsWithDigit (v : List Char) : Prop :=
  ∃ c rest, v = c :: rest ∧ isDigit c = true

theorem StartsWithDigit.append {v : List Char} (h : StartsWithDigit v) (rest : List Char) :
    StartsWithDigit (v ++ rest) := by
  obtain ⟨c, tail, rfl, hc⟩ := h
  exact ⟨c, tail ++ rest, rfl, hc⟩

theorem startsWithDigit_of_number? {text digits rest : List Char}
    (h : number? text = some (digits, rest)) : StartsWithDigit digits := by
  rw [number?] at h
  split at h
  · cases h
  · next hdigits hne =>
    cases h
    cases htake : text.takeWhile isDigit with
    | nil => exact absurd htake hne
    | cons c tail =>
      have hmem : c ∈ text.takeWhile isDigit := by simp [htake]
      exact ⟨c, tail, rfl, List.mem_takeWhile_imp hmem⟩

theorem startsWithDigit_of_bareHere? {text version rest : List Char}
    (h : bareHere? text = some (version, rest)) : StartsWithDigit version := by
  rw [bareHere?, Option.bind_eq_bind, Option.bind_eq_some_iff] at h
  obtain ⟨⟨first, tail⟩, hfirst, h⟩ := h
  have hstarts := startsWithDigit_of_number? hfirst
  dsimp only at h
  split at h
  · cases h
  · cases h
    exact (hstarts.append _).append _

theorem startsWithDigit_of_bare? {text version : List Char} (h : bare? text = some version) :
    StartsWithDigit version := by
  rw [bare?] at h
  split at h
  · next hbare =>
    cases h
    exact startsWithDigit_of_bareHere? hbare
  · cases h

theorem startsWithDigit_of_bareWithin? {text version : List Char}
    (h : bareWithin? text = some version) : StartsWithDigit version := by
  obtain ⟨-, suffix, -, hbare⟩ := exists_of_firstMatch h
  obtain ⟨⟨found, rest⟩, hfound, rfl⟩ := Option.map_eq_some_iff.mp hbare
  exact startsWithDigit_of_bareHere? hfound

theorem startsWithDigit_of_stemHere? {text version : List Char}
    (h : stemHere? text = some version) : StartsWithDigit version := by
  cases text with
  | nil => cases h
  | cons c rest =>
    rw [stemHere?] at h
    split at h
    · rw [Option.bind_eq_bind, Option.bind_eq_some_iff] at h
      obtain ⟨⟨first, tail⟩, hfirst, h⟩ := h
      have hstarts := startsWithDigit_of_number? hfirst
      obtain ⟨⟨ending, after⟩, -, h⟩ := Option.bind_eq_some_iff.mp h
      cases h
      exact (hstarts.append _).append _
    · cases h

theorem startsWithDigit_of_stem? {text version : List Char} (h : stem? text = some version) :
    StartsWithDigit version := by
  obtain ⟨-, suffix, -, hstem⟩ := exists_of_firstMatch h
  exact startsWithDigit_of_stemHere? hstem

theorem StartsWithDigit.restoreDots {v : List Char} (h : StartsWithDigit v) :
    StartsWithDigit (restoreDots v) := by
  rw [Version.restoreDots]
  split
  · exact h
  · obtain ⟨c, rest, rfl, hc⟩ := h
    have hne : c ≠ '_' := by
      rintro rfl
      exact absurd hc (by decide)
    rw [List.map_cons, if_neg hne]
    exact ⟨c, _, rfl, hc⟩

theorem startsWithDigit_of_ofPath? {path : Path} {version : List Char}
    (h : ofPath? path = some version) : StartsWithDigit version := by
  rw [ofPath?] at h
  rcases Option.or_eq_some_iff.mp h with h | ⟨-, h⟩
  · rcases Option.or_eq_some_iff.mp h with h | ⟨-, h⟩
    · exact startsWithDigit_of_bare? h
    · obtain ⟨stem, hstem, rfl⟩ := Option.map_eq_some_iff.mp h
      exact (startsWithDigit_of_stem? hstem).restoreDots
  · obtain ⟨directory, -, h⟩ := List.exists_of_findSome?_eq_some h
    exact startsWithDigit_of_bare? h

/-- A version that is read off a URL or a tag. -/
inductive IsDerived (version : List Char) : Prop where
  | url (url : List Char) (log : List LogRecord) (h : ofUrl url = .ok ⟨some version, log⟩)
  | tag (argument : List Char) (h : ofTag? argument = some version)

theorem startsWithDigit_of_derived {version : List Char} (h : IsDerived version) :
    StartsWithDigit version := by
  cases h with
  | url url log h =>
    obtain ⟨path, -, h⟩ := bind_eq_ok.mp h
    cases hversion : ofPath? (Path.ofText (Url.unescape path)) with
    | none =>
      rw [hversion] at h
      cases h
    | some found =>
      rw [hversion] at h
      cases h
      exact startsWithDigit_of_ofPath? hversion
  | tag argument h =>
    obtain ⟨tag, -, h⟩ := Option.bind_eq_some_iff.mp h
    exact startsWithDigit_of_bareWithin? h

/-! ## Numbers in front -/

theorem hasSegments_of_startsWithDigit {v : List Char} (h : StartsWithDigit v) :
    HasSegments v := by
  obtain ⟨c, rest, rfl, hc⟩ := h
  obtain ⟨runs, hruns, -⟩ := exists_runsFrom_digits_append
    (fun d hd => List.mem_takeWhile_imp hd) (endsRun_dropWhile rest) [c]
  rw [List.takeWhile_append_dropWhile] at hruns
  have hrun : runsFrom .none (c :: rest) = .none :: runsFrom (.digits [c]) rest := if_pos hc
  rw [HasSegments, segments, hrun, hruns]
  rfl

theorem not_areUnrelated_of_derived {v w : List Char} (hv : IsDerived v) (hw : IsDerived w) :
    ¬ AreUnrelated v w := by
  intro h
  have hvs := hasSegments_of_startsWithDigit (startsWithDigit_of_derived hv)
  have hws := hasSegments_of_startsWithDigit (startsWithDigit_of_derived hw)
  rcases h.unnumbered with hlacks | hlacks
  · exact not_hasSegments_iff.mpr hlacks hvs
  · exact not_hasSegments_iff.mpr hlacks hws

end Version

/-! ## Versions of snapshots -/

namespace Snapshot

/-- A version that stands in a declaration of its own. -/
def IsWritten (all : List Declaration) (version : List Char) : Prop :=
  ∃ d ∈ all, d.kind = .version ∧ Script.firstQuoted? d.argument = some version

variable {all : List Declaration}

theorem version_add {f : Fields} {d : Declaration} {version : List Char}
    (h : (f.add all d).value.version = some version) :
    f.version = some version ∨
      d.kind = .version ∧ Script.firstQuoted? d.argument = some version := by
  rw [Fields.add.eq_def] at h
  split at h
  · left
    split_ifs at h <;> exact h
  · left
    split_ifs at h <;> exact h
  · left
    rw [Logged.pure_value] at h
    split_ifs at h <;> exact h
  · next hkind =>
    rw [Logged.pure_value] at h
    split_ifs at h
    · exact .inr ⟨hkind, h⟩
    · exact .inl h
  · exact .inl h

theorem version_addAll {f : Fields} {rest : List Declaration} {version : List Char}
    (h : (Fields.addAll all f rest).value.version = some version) :
    f.version = some version ∨ IsWritten rest version := by
  induction rest generalizing f with
  | nil => exact .inl h
  | cons d rest ih =>
    rw [Fields.addAll, Logged.bind_value] at h
    rcases ih h with h | ⟨e, hmem, he⟩
    · rcases version_add h with h | hd
      · exact .inl h
      · exact .inr ⟨d, List.mem_cons_self, hd⟩
    · exact .inr ⟨e, List.mem_cons_of_mem d hmem, he⟩

theorem isDerived_of_downloadVersion {argument version : List Char} {log : List LogRecord}
    (h : downloadVersion argument = .ok ⟨some version, log⟩) : Version.IsDerived version := by
  rw [downloadVersion] at h
  split at h
  · next htag =>
    cases h
    exact .tag argument htag
  · split at h
    · cases h
    · cases h
    · next url _ _ => exact .url url log h

/-- The version of a snapshot is declared or derived. -/
theorem version_written_or_derived {s : Logged Snapshot} {version : List Char}
    (hs : ofDeclarations all = .ok s) (hversion : s.value.version = some version) :
    IsWritten all version ∨ Version.IsDerived version := by
  rw [ofDeclarations] at hs
  dsimp only at hs
  split at hs
  · next written hwritten =>
    cases hs
    have heq : written = version := Option.some.inj hversion
    subst heq
    rcases version_addAll hwritten with h | h
    · cases h
    · exact .inl h
  · cases hs
    cases hversion
  · next argument _ _ =>
    obtain ⟨⟨derived, log⟩, hderived, rfl⟩ := map_eq_ok.mp hs
    have heq : derived = some version := hversion
    rw [heq] at hderived
    exact .inr (isDerived_of_downloadVersion hderived)

/-- A version that is absent or declared. -/
def IsAbsentOrWritten (all : List Declaration) (s : Snapshot) : Prop :=
  s.version = none ∨ ∃ version, s.version = some version ∧ IsWritten all version

end Snapshot

/-! ## Main result -/

namespace Version

open Comparison

/--
**Derived versions can be ordered.** Two versions that are each read off a URL or a tag are
compared, and without a warning. So the versions of two snapshots are without an order only if one
of them is absent or declared.
-/
theorem derived_ordered :
    (∀ v w, IsDerived v → IsDerived w →
      (compare (some v) (some w)).value ≠ incomparable ∧ (compare (some v) (some w)).log = []) ∧
    ∀ all others s t, Snapshot.ofDeclarations all = .ok s →
      Snapshot.ofDeclarations others = .ok t →
      (compare s.value.version t.value.version).value = incomparable →
      s.value.IsAbsentOrWritten all ∨ t.value.IsAbsentOrWritten others := by
  have hordered : ∀ v w, IsDerived v → IsDerived w →
      (compare (some v) (some w)).value ≠ incomparable ∧
        (compare (some v) (some w)).log = [] := by
    intro v w hv hw
    obtain ⟨o, ho, -⟩ := compare_of_not_unrelated (not_areUnrelated_of_derived hv hw)
    rw [ho]
    exact ⟨ofOrdering_ne_incomparable o, rfl⟩
  refine ⟨hordered, ?_⟩
  intro all others s t hs ht hnone
  cases hv : s.value.version with
  | none => exact .inl (.inl hv)
  | some v =>
    cases hw : t.value.version with
    | none => exact .inr (.inl hw)
    | some w =>
      rcases Snapshot.version_written_or_derived hs hv with hwritten | hvd
      · exact .inl (.inr ⟨v, hv, hwritten⟩)
      rcases Snapshot.version_written_or_derived ht hw with hwritten | hwd
      · exact .inr (.inr ⟨w, hw, hwritten⟩)
      rw [hv, hw] at hnone
      exact absurd hnone (hordered v w hvd hwd).1

/-- A version that is declared to be a word. -/
def writtenWord : List Declaration :=
  [{ kind := .version, line := 2, argument := "\"latest\"".toList }]

/-- A version that is read off the name of an archive. -/
def readArchive : List Declaration :=
  [{ kind := .url, line := 2, argument := "\"https://example.com/foo-1.0.2k.tgz\"".toList }]

/-- A patch in an archive and a release in a tag are ordered; a word is not. -/
theorem derived_ordered_patch :
    ((compare (some "1.0.2k".toList) (some "1.1".toList)).value ≠ incomparable ∧
        (compare (some "1.0.2k".toList) (some "1.1".toList)).log = []) ∧
      (compare (some "latest".toList) (some "1.0.2k".toList)).value = incomparable ∧
      ((Snapshot.IsAbsentOrWritten writtenWord { version := some "latest".toList }) ∨
        Snapshot.IsAbsentOrWritten readArchive { version := some "1.0.2k".toList }) := by
  have hnone : (compare (some "latest".toList) (some "1.0.2k".toList)).value = incomparable := by
    decide +kernel
  have hword : Snapshot.ofDeclarations writtenWord =
      .ok ⟨{ version := some "latest".toList }, []⟩ := by
    decide +kernel
  have harchive : Snapshot.ofDeclarations readArchive =
      .ok ⟨{ version := some "1.0.2k".toList }, []⟩ := by
    decide +kernel
  refine ⟨derived_ordered.1 _ _ ?_ ?_, hnone, derived_ordered.2 _ _ _ _ hword harchive hnone⟩
  · exact .url "https://example.com/foo-1.0.2k.tgz".toList [] (by decide +kernel)
  · exact .tag "tag: \"v1.1\"".toList (by decide +kernel)

end Version

end TapAudit
