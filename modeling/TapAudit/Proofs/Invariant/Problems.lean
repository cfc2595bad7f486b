import TapAudit.Proofs.Except
import TapAudit.Proofs.Invariant
import TapAudit.Proofs.Text.Search
import TapAudit.Proofs.Version.Dotted

/-!
# The problems of a move

A move leads from the committed state of a formula to its present one. Which moves have no problems
is a matter of the two schemes, the two revisions, and how the new version stands to the old one.
The problems of all other moves come in the order of their subjects: the scheme, the version, the
revision.

- `subject?`: the subject of a message, told from the words that it begins with.
- `length_revisionProblems`: when there are two messages about the revision.
- `problems_permitted`: the moves without problems, and the problems of the other ones.
-/

namespace TapAudit

/-- The state with its revision written out, zero if it was not declared. -/
def Snapshot.withRevision (s : Snapshot) : Snapshot :=
  { s with revision := some s.effectiveRevision }

/-- The state with its version scheme written out, zero if it was not declared. -/
def Snapshot.withScheme (s : Snapshot) : Snapshot :=
  { s with versionScheme := some s.effectiveScheme }

namespace Invariant

open Text (startsWith startsWith_iff)
open Version (Comparison)

/-! ## The subject of a message -/

/-- What a problem is about. -/
inductive Subject where
  | scheme
  | version
  | revision
  deriving DecidableEq, Repr

/-- The words that messages about a subject begin with. -/
def Subject.openings : Subject → List String
  | scheme => ["version_scheme"]
  | version => ["stable version"]
  | revision => ["revision", "'revision"]

/-- The subject of a message. -/
def subject? (message : String) : Option Subject :=
  [Subject.scheme, .version, .revision].find? fun subject =>
    subject.openings.any fun opening => startsWith opening message.toList

theorem startsWith_append {opening text : String} (h : startsWith opening text.toList = true)
    (rest : String) : startsWith opening (text ++ rest).toList = true := by
  obtain ⟨tail, htail⟩ := startsWith_iff.mp h
  rw [String.toList_append, htail, List.append_assoc]
  exact startsWith_iff.mpr ⟨tail ++ rest.toList, rfl⟩

theorem subject?_of_startsWith (opening : String) {subject : Subject} {message : String}
    (hopening : opening ∈ subject.openings)
    (hstarts : startsWith opening message.toList = true) : subject? message = some subject := by
  obtain ⟨rest, hrest⟩ := startsWith_iff.mp hstarts
  rw [subject?, hrest]
  cases subject with
  | scheme =>
    rw [List.mem_singleton.mp hopening]
    rfl
  | version =>
    rw [List.mem_singleton.mp hopening]
    rfl
  | revision =>
    rcases List.mem_cons.mp hopening with rfl | hopening
    · rfl
    · rw [List.mem_singleton.mp hopening]
      rfl

/-- So many messages about each subject, in this order. -/
def subjects (schemes versions revisions : Nat) : List (Option Subject) :=
  List.replicate schemes (some .scheme) ++ List.replicate versions (some .version) ++
    List.replicate revisions (some .revision)

/-! ## The messages about each subject -/

section

variable (current historical : Snapshot) (delta : Comparison)

theorem length_schemeProblems : (schemeProblems current historical).length ≤ 1 := by
  rw [schemeProblems]
  split_ifs <;> simp

theorem length_versionProblems : (versionProblems current historical delta).length ≤ 1 := by
  rw [versionProblems]
  split_ifs <;> simp

/-- There are two messages about the revision if it is too large for a new version and has not been
carried over from the old one. -/
theorem length_revisionProblems :
    (revisionProblems current historical delta).length ≤ 2 ∧
      ((revisionProblems current historical delta).length = 2 ↔
        delta = .greater ∧ 1 < current.effectiveRevision ∧
          current.effectiveRevision ≠ historical.effectiveRevision) := by
  cases delta with
  | less => simp [revisionProblems]
  | incomparable => simp [revisionProblems]
  | equal =>
    rw [revisionProblems]
    split_ifs <;> simp
  | greater =>
    rw [revisionProblems]
    split_ifs with hzero hsame hbig
    · simp [hzero]
    · simp [hsame]
    · simp [hbig, hsame]
    · simp [hbig]

theorem subject?_schemeProblems :
    ∀ message ∈ schemeProblems current historical, subject? message = some .scheme := by
  intro message hmessage
  apply subject?_of_startsWith "version_scheme" (by decide)
  rw [schemeProblems] at hmessage
  split_ifs at hmessage
  · rw [List.mem_singleton.mp hmessage]
    repeat apply startsWith_append
    rfl
  · rw [List.mem_singleton.mp hmessage]
    rfl
  · cases hmessage

theorem subject?_versionProblems :
    ∀ message ∈ versionProblems current historical delta, subject? message = some .version := by
  intro message hmessage
  apply subject?_of_startsWith "stable version" (by decide)
  rw [versionProblems] at hmessage
  split_ifs at hmessage
  · rw [List.mem_singleton.mp hmessage]
    repeat apply startsWith_append
    rfl
  · cases hmessage

theorem subject?_revisionStep : subject? revisionStep = some .revision := by
  rfl

theorem subject?_removed (revision : Int) :
    subject? s!"'revision {revision}' should be removed" = some .revision := by
  apply subject?_of_startsWith "'revision" (by decide)
  repeat apply startsWith_append
  rfl

theorem subject?_revisionProblems :
    ∀ message ∈ revisionProblems current historical delta, subject? message = some .revision := by
  intro message hmessage
  cases delta with
  | less => cases hmessage
  | incomparable => cases hmessage
  | equal =>
    rw [revisionProblems] at hmessage
    split_ifs at hmessage
    · apply subject?_of_startsWith "revision" (by decide)
      rw [List.mem_singleton.mp hmessage]
      repeat apply startsWith_append
      rfl
    · rw [List.mem_singleton.mp hmessage]
      exact subject?_revisionStep
    · cases hmessage
  | greater =>
    rw [revisionProblems] at hmessage
    split_ifs at hmessage
    · cases hmessage
    · rw [List.mem_singleton.mp hmessage]
      exact subject?_removed _
    · rcases List.mem_cons.mp hmessage with rfl | hmessage
      · exact subject?_revisionStep
      · rw [List.mem_singleton.mp hmessage]
        exact subject?_removed _
    · rw [List.mem_singleton.mp hmessage]
      exact subject?_removed _

theorem exists_subjects :
    ∃ a ≤ 1, ∃ b ≤ 1, ∃ k ≤ 2,
      (schemeProblems current historical ++ versionProblems current historical delta ++
          revisionProblems current historical delta).map subject? = subjects a b k ∧
        (k = 2 ↔ delta = .greater ∧ 1 < current.effectiveRevision ∧
          current.effectiveRevision ≠ historical.effectiveRevision) := by
  obtain ⟨hlength, htwo⟩ := length_revisionProblems current historical delta
  refine ⟨_, length_schemeProblems current historical, _,
    length_versionProblems current historical delta, _, hlength, ?_, htwo⟩
  have hscheme := List.map_eq_replicate_iff.mpr (subject?_schemeProblems current historical)
  have hversion :=
    List.map_eq_replicate_iff.mpr (subject?_versionProblems current historical delta)
  have hrevision :=
    List.map_eq_replicate_iff.mpr (subject?_revisionProblems current historical delta)
  rw [List.map_append, List.map_append, hscheme, hversion, hrevision, subjects]

end

/-! ## Main result -/

/-- How the version of the present state stands to that of the committed one. -/
def versionDelta (current historical : Snapshot) : Comparison :=
  (Version.compare current.version historical.version).value

/-- The messages of a move can be written: about a scheme or a revision that drops, and, whether it
is asked for or not, about the revision under a greater version. -/
@[mk_iff]
structure IsTold (current historical : Snapshot) : Prop where
  scheme : current.effectiveScheme < historical.effectiveScheme →
    Number.IsWritable historical.effectiveScheme ∧ Number.IsWritable current.effectiveScheme
  kept : versionDelta current historical = .equal →
    current.effectiveRevision < historical.effectiveRevision →
      Number.IsWritable historical.effectiveRevision ∧
        Number.IsWritable current.effectiveRevision
  raised : versionDelta current historical = .greater →
    Number.IsWritable current.effectiveRevision

theorem forall_writtenNumbers_iff {current historical : Snapshot} :
    (∀ n ∈ writtenNumbers current historical (versionDelta current historical),
        Number.IsWritable n) ↔ IsTold current historical := by
  have hboth (a b : Int) : (∀ n ∈ if b < a then [a, b] else [], Number.IsWritable n) ↔
      (b < a → Number.IsWritable a ∧ Number.IsWritable b) := by
    split_ifs with h <;> simp [h]
  rw [isTold_iff]
  cases versionDelta current historical <;>
    simp only [writtenNumbers, List.forall_mem_append, hboth, List.not_mem_nil, implies_true,
      List.forall_mem_singleton, reduceCtorEq, false_imp_iff, true_imp_iff, and_true, true_and]

theorem checkedProblems_eq_ok_iff {current historical : Snapshot} {messages : List String} :
    checkedProblems current (some historical) = .ok messages ↔
      (Number.AreReadable (Version.comparedNumerals current.version historical.version) ∧
        IsTold current historical) ∧ problems current (some historical) = messages := by
  rw [checkedProblems, bind_eq_ok, ← forall_writtenNumbers_iff]
  simp only [Version.checkedCompare, Number.afterReading_eq_ok_iff, Number.afterWriting_eq_ok_iff]
  constructor
  · rintro ⟨delta, ⟨hreadable, rfl⟩, hwritable, hmessages⟩
    exact ⟨⟨hreadable, hwritable⟩, hmessages⟩
  · rintro ⟨⟨hreadable, hwritable⟩, hmessages⟩
    exact ⟨_, ⟨hreadable, rfl⟩, hwritable, hmessages⟩

/--
**Which moves are permitted.** The problems of a move are known exactly if no number is too long
that is read in one of the versions or written in a message. Then there are none exactly if the
scheme stays or grows by one, the version is not less unless the scheme grows, the revision stays or
grows by one under an equal version, and is gone under a greater one. The problems come scheme
first, then version, then revision, at most one, one and two of them, and two just if the revision
of a greater version is above one and new. An undeclared revision or scheme may be replaced by zero
on either side.
-/
theorem problems_permitted (current historical : Snapshot) :
    ((∃ messages, checkedProblems current (some historical) = .ok messages) ↔
        Number.AreReadable (Version.comparedNumerals current.version historical.version) ∧
          IsTold current historical) ∧
      (∀ messages, checkedProblems current (some historical) = .ok messages →
        (messages = [] ↔
          (current.effectiveScheme = historical.effectiveScheme ∨
            current.effectiveScheme = historical.effectiveScheme + 1) ∧
          (versionDelta current historical = .less →
            historical.effectiveScheme < current.effectiveScheme) ∧
          (versionDelta current historical = .equal →
            current.effectiveRevision = historical.effectiveRevision ∨
              current.effectiveRevision = historical.effectiveRevision + 1) ∧
          (versionDelta current historical = .greater → current.effectiveRevision = 0)) ∧
        ∃ a ≤ 1, ∃ b ≤ 1, ∃ k ≤ 2, messages.map subject? = subjects a b k ∧
          (k = 2 ↔ versionDelta current historical = .greater ∧
            1 < current.effectiveRevision ∧
              current.effectiveRevision ≠ historical.effectiveRevision)) ∧
      checkedProblems current.withRevision (some historical) =
        checkedProblems current (some historical) ∧
      checkedProblems current.withScheme (some historical) =
        checkedProblems current (some historical) ∧
      checkedProblems current (some historical.withRevision) =
        checkedProblems current (some historical) ∧
      checkedProblems current (some historical.withScheme) =
        checkedProblems current (some historical) := by
  refine ⟨?_, ?_, rfl, rfl, rfl, rfl⟩
  · simp only [checkedProblems_eq_ok_iff, exists_and_left, exists_eq', and_true]
  · intro messages hmessages
    obtain ⟨-, rfl⟩ := checkedProblems_eq_ok_iff.mp hmessages
    refine ⟨?_, exists_subjects current historical (versionDelta current historical)⟩
    rw [problems_eq_nil_iff]
    constructor
    · rintro ⟨hscheme, hlowered, hkept, hraised⟩
      refine ⟨by omega, hlowered, fun hequal => ?_, hraised⟩
      have := hkept hequal
      omega
    · rintro ⟨hscheme, hlowered, hkept, hraised⟩
      refine ⟨by omega, hlowered, fun hequal => ?_, hraised⟩
      have := hkept hequal
      omega

/-- A new version without the revision of the old one is permitted. -/
theorem problems_permitted_raised :
    checkedProblems { version := some "1.1".toList }
      (some { version := some "1.0".toList, revision := some 1 }) = .ok [] := by
  obtain ⟨hknown, hproblems, -⟩ := problems_permitted { version := some "1.1".toList }
    { version := some "1.0".toList, revision := some 1 }
  obtain ⟨messages, hmessages⟩ := hknown.mpr ⟨by decide +kernel,
    { scheme := by decide +kernel
      kept := by decide +kernel
      raised := by decide +kernel }⟩
  have hnone := (hproblems messages hmessages).1.mpr
    ⟨by decide +kernel, by decide +kernel, by decide +kernel, by decide +kernel⟩
  rw [hmessages, hnone]

theorem checkedProblems_of_dropped {n : Int} (hpositive : 0 < n) (hlong : ¬ Number.IsWritable n) :
    checkedProblems { versionScheme := some 0 } (some { versionScheme := some n }) =
      .error .writing := by
  have hcompare : Version.checkedCompare none none = .ok (pure .incomparable) := rfl
  have hwritten : writtenNumbers { versionScheme := some 0 } { versionScheme := some n }
      .incomparable = [n, 0] := by
    simp [writtenNumbers, Snapshot.effectiveScheme, hpositive]
  rw [checkedProblems, hcompare]
  change Number.afterWriting (writtenNumbers _ _ .incomparable) _ = _
  rw [hwritten, Number.afterWriting_cons_of_long hlong]

/-- No problems are known if a number is too long: one in a version, or one that a message tells. -/
theorem checkedProblems_fails_on_long_numbers :
    checkedProblems { version := some (Text.dotted [.tooLong]) }
        (some { version := some (Text.dotted [.ofNat 2]) }) = .error (.reading 4301) ∧
      checkedProblems { versionScheme := some 0 }
        (some { versionScheme := some (Number.tenTo Number.mostDigits) }) = .error .writing := by
  constructor
  · rw [checkedProblems, Version.checkedCompare,
      Version.comparedNumerals_dotted (List.cons_ne_nil _ _) (List.cons_ne_nil _ _),
      if_neg Text.dotted_tooLong_ne, List.cons_append, List.map_cons,
      Text.Numeral.afterReading_tooLong]
    rfl
  · refine checkedProblems_of_dropped ?_ Number.not_isWritable_tenTo
    exact Int.natCast_pos.mpr (Number.tenTo_pos _)

end Invariant

end TapAudit
