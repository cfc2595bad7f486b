import TapAudit.Proofs.Audit.Independence
import TapAudit.Proofs.Audit.Unchanged
import TapAudit.Proofs.Edition

/-!
# Regressions are reported

An audit of an edition of a formula against the edition that was committed. What it reports is
settled by the numbers that the two editions declare, whatever way they take through the text, the
URL and the order of versions.

- `Edition.messages`: what is said of the rules that an edition breaks when it follows another one.
- `Edition.messages_eq_nil_iff`: the editions that may follow each other.
- `Edition.problems_snapshot`: the problems of two editions are the rules that are broken.
- `regression_reported`: **an audit reports exactly the rules that are broken.**
-/

namespace TapAudit

open History (Source Baseline Repository)
open Text

/-! ## Rules -/

namespace Edition

/-- How the numbers of the version stand to those of another one, a missing number counting as
zero. -/
def delta (new old : Edition) : Ordering :=
  Version.comparePadded (new.version.map Numeral.value) (old.version.map Numeral.value)

/-- The number of the revision, zero if there is none. -/
def revisionNumber (e : Edition) : Nat :=
  (e.revision.map Numeral.value).getD 0

/-- The number of the version scheme, zero if there is none. -/
def schemeNumber (e : Edition) : Nat :=
  (e.scheme.map Numeral.value).getD 0

def versionText (e : Edition) : String :=
  String.ofList (dotted e.version)

/-- The ways in which the version scheme may not go on, and what is said of them. -/
def schemeRules (new old : Edition) : List (Bool × String) :=
  [(new.schemeNumber < old.schemeNumber,
      s!"version_scheme should not decrease (from {old.schemeNumber} to {new.schemeNumber})"),
    (old.schemeNumber + 1 < new.schemeNumber, "version_schemes should only increment by 1")]

/-- The way in which the version may not go on. -/
def versionRules (new old : Edition) : List (Bool × String) :=
  [(new.delta old = .lt ∧ new.schemeNumber ≤ old.schemeNumber,
      s!"stable version should not decrease (from {old.versionText} to {new.versionText})")]

/-- The ways in which the revision may not go on. -/
def revisionRules (new old : Edition) : List (Bool × String) :=
  [(new.delta old = .eq ∧ new.revisionNumber < old.revisionNumber,
      s!"revision should not decrease (from {old.revisionNumber} to {new.revisionNumber})"),
    (new.delta old = .eq ∧ old.revisionNumber + 1 < new.revisionNumber ∨
        new.delta old = .gt ∧ 1 < new.revisionNumber ∧ new.revisionNumber ≠ old.revisionNumber,
      "revisions should only increment by 1"),
    (new.delta old = .gt ∧ new.revisionNumber ≠ 0,
      s!"'revision {new.revisionNumber}' should be removed")]

/-- What is said of the rules that are broken. -/
def broken (rules : List (Bool × String)) : List String :=
  (rules.filter (·.1)).map (·.2)

/-- What is said of an edition that follows another one. -/
def messages (new old : Edition) : List String :=
  broken (new.schemeRules old ++ new.versionRules old ++ new.revisionRules old)

/-- An edition may follow another one. -/
@[mk_iff]
structure MayFollow (new old : Edition) : Prop where
  scheme : new.schemeNumber = old.schemeNumber ∨ new.schemeNumber = old.schemeNumber + 1
  lowered : new.delta old = .lt → old.schemeNumber < new.schemeNumber
  kept : new.delta old = .eq →
    new.revisionNumber = old.revisionNumber ∨ new.revisionNumber = old.revisionNumber + 1
  raised : new.delta old = .gt → new.revisionNumber = 0

variable (new old : Edition)

theorem broken_append (rules others : List (Bool × String)) :
    broken (rules ++ others) = broken rules ++ broken others := by
  rw [broken, List.filter_append, List.map_append, broken, broken]

theorem broken_cons (b : Prop) [Decidable b] (message : String) (rules : List (Bool × String)) :
    broken ((decide b, message) :: rules) = (if b then [message] else []) ++ broken rules := by
  rw [broken, List.filter_cons]
  by_cases h : b <;> simp [h, broken]

theorem broken_nil : broken [] = [] := rfl

theorem messages_eq_nil_iff : new.messages old = [] ↔ new.MayFollow old := by
  simp only [messages, schemeRules, versionRules, revisionRules, List.cons_append, List.nil_append,
    broken_cons, broken_nil, List.append_eq_nil_iff, ite_eq_right_iff, List.cons_ne_nil, imp_false,
    and_true]
  rw [mayFollow_iff]
  cases new.delta old <;>
    simp only [reduceCtorEq, false_and, true_and, false_or, or_false, not_false_eq_true,
      true_implies, false_implies, and_true] <;> omega

/-! ## Problems -/

theorem effectiveScheme_snapshot (e : Edition) : e.snapshot.effectiveScheme = e.schemeNumber := by
  rw [Snapshot.effectiveScheme, snapshot, schemeNumber]
  cases e.scheme <;> rfl

theorem effectiveRevision_snapshot (e : Edition) :
    e.snapshot.effectiveRevision = e.revisionNumber := by
  rw [Snapshot.effectiveRevision, snapshot, revisionNumber]
  cases e.revision <;> rfl

/-- A number that may stay or grow by one. -/
theorem step_eq (now before : Nat) (lowered raised : String) :
    (if (now : Int) < before then [lowered]
      else if (before : Int) + 1 < now then [raised]
      else []) = broken [(now < before, lowered), (before + 1 < now, raised)] := by
  rw [broken_cons, broken_cons, broken_nil, List.append_nil]
  by_cases hlow : now < before
  · rw [if_pos (by omega), if_pos hlow, if_neg (by omega), List.append_nil]
  · rw [if_neg (by omega), if_neg hlow, List.nil_append]
    by_cases hhigh : before + 1 < now
    · rw [if_pos (by omega), if_pos hhigh]
    · rw [if_neg (by omega), if_neg hhigh]

theorem schemeProblems_snapshot :
    Invariant.schemeProblems new.snapshot old.snapshot = broken (new.schemeRules old) := by
  rw [Invariant.schemeProblems, effectiveScheme_snapshot, effectiveScheme_snapshot]
  exact step_eq ..

theorem versionProblems_snapshot :
    Invariant.versionProblems new.snapshot old.snapshot (.ofOrdering (new.delta old)) =
      broken (new.versionRules old) := by
  have hdelta : Version.Comparison.ofOrdering (new.delta old) = .less ↔ new.delta old = .lt := by
    cases new.delta old <;> decide
  rw [Invariant.versionProblems, effectiveScheme_snapshot, effectiveScheme_snapshot, versionRules,
    broken_cons, broken_nil, List.append_nil]
  by_cases hrule : new.delta old = .lt ∧ new.schemeNumber ≤ old.schemeNumber
  · rw [if_pos ⟨hdelta.mpr hrule.1, by omega⟩, if_pos hrule]
    have hjoin (text : String) : " " ++ ("to " ++ text) = " to " ++ text := by
      rw [← String.append_assoc]
      rfl
    simp only [toString, String.append_assoc, hjoin]
    rfl
  · rw [if_neg fun h => hrule ⟨hdelta.mp h.1, by omega⟩, if_neg hrule]

theorem revisionProblems_snapshot :
    Invariant.revisionProblems new.snapshot old.snapshot (.ofOrdering (new.delta old)) =
      broken (new.revisionRules old) := by
  unfold Invariant.revisionProblems
  rw [effectiveRevision_snapshot, effectiveRevision_snapshot, revisionRules]
  cases new.delta old with
  | lt => rfl
  | eq =>
    simp only [true_and, reduceCtorEq, false_and, or_false]
    exact step_eq ..
  | gt =>
    rw [broken_cons, broken_cons, broken_cons, broken_nil]
    dsimp only [Version.Comparison.ofOrdering]
    simp only [true_and, reduceCtorEq, false_and, false_or, if_false]
    by_cases hnone : new.revisionNumber = 0
    · rw [if_pos (by omega), if_neg (by omega), if_neg (by omega)]
      rfl
    · rw [if_neg (by omega), if_pos hnone]
      by_cases hcarried : new.revisionNumber = old.revisionNumber
      · rw [if_pos (by omega), if_neg (by omega)]
        rfl
      · rw [if_neg (by omega)]
        by_cases hlarge : 1 < new.revisionNumber
        · rw [if_pos (by omega), if_pos ⟨hlarge, hcarried⟩]
          rfl
        · rw [if_neg (by omega), if_neg (by omega)]
          rfl

theorem problems_snapshot :
    Invariant.problems new.snapshot (some old.snapshot) = new.messages old := by
  have hdelta : (Version.compare new.snapshot.version old.snapshot.version).value =
      .ofOrdering (new.delta old) :=
    Version.compare_dotted new.version_ne_nil old.version_ne_nil
  rw [Invariant.problems, hdelta, messages, broken_append, broken_append, schemeProblems_snapshot,
    versionProblems_snapshot, revisionProblems_snapshot]

theorem checkedProblems_snapshot :
    Invariant.checkedProblems new.snapshot (some old.snapshot) = .ok (new.messages old) := by
  have htold := Audit.isTold_of_readText new.readText_text old.readText_text
  exact Invariant.checkedProblems_eq_ok_iff.mpr
    ⟨⟨new.areReadable_compared old, htold⟩, new.problems_snapshot old⟩

end Edition

namespace Audit

/-! ## The report -/

/-- What the comparison with the last commit says of a file. -/
def versionMessages (found : List Finding) : List String :=
  (found.filter fun f => f.rule == Rule.versionInvariant.id).map Finding.message

theorem versionMessages_entry (strict : Bool) (text : List Char) (path : Path)
    (problems : List String) :
    versionMessages (ownFindings strict text path ++ problems.map (versionFinding path)) =
      problems := by
  have hown : (ownFindings strict text path).filter
      (fun f => f.rule == Rule.versionInvariant.id) = [] := by
    rw [List.filter_eq_nil_iff]
    intro f hf hrule
    exact not_isVersionFinding_of_own f hf (eq_of_beq hrule)
  have hversion : (problems.map (versionFinding path)).filter
      (fun f => f.rule == Rule.versionInvariant.id) = problems.map (versionFinding path) := by
    rw [List.filter_eq_self]
    intro f hf
    obtain ⟨message, -, rfl⟩ := List.mem_map.mp hf
    exact beq_self_eq_true _
  rw [versionMessages, List.filter_append, hown, hversion, List.nil_append, List.map_map]
  exact List.map_id problems

theorem isDirectory_of_read {w : World} {path : Path} {octets : List UInt8}
    (h : w.tree.read w.cwd path = .ok octets) : isDirectory w path = .ok false := by
  rw [FileTree.read, bind_eq_ok] at h
  obtain ⟨⟨location, entry⟩, hlookup, hentry⟩ := h
  rw [isDirectory, mapError_eq_ok, FileTree.isDirectory, hlookup]
  cases entry with
  | file content => rfl
  | directory => cases hentry

section

variable {w : World} {c : Config} {r : Repository} {path : Path} {file : Location}

theorem served_of_serves {octets : List UInt8} (hhistory : c.history)
    (hr : repositoryOf w c = .ok r) (hfile : w.tree.resolve w.cwd path = .ok file)
    (hserves : r.Serves file octets) :
    served w c [] path = .text (Utf8.decodeLenient octets) := by
  have hcommitted := Repository.committed_of_serves hserves []
  have hlocate : History.locate w.tree w.cwd path = .ok file := mapError_eq_ok.mpr hfile
  obtain ⟨-, htree, hcwd⟩ := repositoryOf_eq_ok hr
  have hanswer : ((Source.ofRepository r).lastCommitted path []).1 =
      .ok (Baseline.ofResult (.ok (Utf8.decodeLenient octets))) := by
    rw [History.lastCommitted_of_locate [] (htree ▸ hcwd ▸ hlocate)]
    dsimp only
    rw [hcommitted]
    rfl
  rw [served_of_repository hhistory hr, Source.baseline, Source.remembering]
  dsimp only [stateAfter, List.foldl_nil]
  rw [hlocate]
  dsimp only [History.Answers.find?, List.find?_nil, Option.map_none]
  cases hasked : (Source.ofRepository r).lastCommitted path [] with
  | mk result calls =>
    rw [hasked] at hanswer
    change result = _ at hanswer
    subst hanswer
    rfl

/--
**An audit reports exactly the rules that are broken.** The formula is an edition, the program
serves another one for it. Then the audit gives a report, and its version messages are what is said
of the rules that the new edition breaks, in their order: none exactly if it may follow the old one.
-/
theorem regression_reported {new old : Edition} (hhistory : c.history)
    (hr : repositoryOf w c = .ok r) (hfile : w.tree.resolve w.cwd path = .ok file)
    (hread : w.tree.read w.cwd path = .ok new.octets) (hserves : r.Serves file old.octets) :
    ∃ found, audit w c [path] = .ok [(path, found)] ∧
      versionMessages found = new.messages old ∧
        (versionMessages found = [] ↔ new.MayFollow old) := by
  have hformula : readFormula w path = .ok new.text := by
    rw [readFormula_eq hread new.decode_octets, new.normalizeLineEnds_text]
  have hserved : served w c [] path = .text old.text := by
    rw [served_of_serves hhistory hr hfile hserves, Utf8.decodeLenient_of_decode old.decode_octets]
  have hproblems : versionProblems new.text (.text old.text) = .ok (new.messages old) := by
    have hold : Auditor.baselineSnapshot (.text old.text) = .ok (some old.snapshot) :=
      old.readText_text
    rw [versionProblems, new.readText_text]
    dsimp only [Except.bind]
    rw [hold]
    dsimp only
    rw [new.checkedProblems_snapshot old]
    rfl
  obtain ⟨found, hfound⟩ : ∃ found, found =
    ownFindings c.strict new.text path ++ (new.messages old).map (versionFinding path) := ⟨_, rfl⟩
  have hentry : entry w c.strict path (served w c [] path) = .ok found := by
    rw [entry, hformula, hserved]
    dsimp only
    rw [hproblems, hfound]
    rfl
  have hmessages : versionMessages found = new.messages old := by
    rw [hfound, versionMessages_entry]
  have haudit : audit w c [path] = .ok [(path, found)] := by
    refine audit_eq_ok_iff.mpr ⟨fun _ => ⟨r, hr⟩, ?_, ?_⟩
    · exact collect_eq_self (List.forall_mem_singleton.mpr (isDirectory_of_read hread))
        (List.forall_mem_singleton.mpr ⟨file, hfile⟩) (List.nodup_singleton _)
    · intro front path' found' back heq
      cases front with
      | nil =>
        rw [List.nil_append, List.cons.injEq, Prod.mk.injEq] at heq
        obtain ⟨⟨rfl, rfl⟩, -⟩ := heq
        exact hentry
      | cons e front => exact absurd heq (by simp)
  refine ⟨found, haudit, hmessages, ?_⟩
  rw [hmessages, Edition.messages_eq_nil_iff]

end

/-- Version 1.9, as it was committed. -/
def committedSample : Edition where
  version := [.ofNat 1, .ofNat 9]
  version_ne_nil := by decide
  revision := some (.ofNat 1)
  scheme := some (.ofNat 1)
  areReadable := by decide

/-- Version 1.10 with a larger revision and without the version scheme. -/
def presentSample : Edition where
  version := [.ofNat 1, .ofNat 10]
  version_ne_nil := by decide
  revision := some (.ofNat 3)
  areReadable := by decide

/-- The present edition in a repository at the root, which has the committed one. -/
def regressionSample : World where
  tree := { files := [(["foo.rb".toList], presentSample.octets)] }
  cwd := []
  git _ call :=
    if call.arguments = ["rev-parse".toList, "--show-toplevel".toList] then
      .exited 0 "/\n".toUTF8.data.toList []
    else .exited 0 committedSample.octets []

def regressionRepository : Repository where
  git := regressionSample.git
  tree := regressionSample.tree
  cwd := []

theorem serves_regressionRepository :
    regressionRepository.Serves ["foo.rb".toList] committedSample.octets := by
  have hsteady : regressionRepository.git.IsSteady := fun _ _ => rfl
  have hroot : regressionRepository.HasRoot ["foo.rb".toList] [] := by
    refine .inr ⟨rfl, fun calls => ⟨"/\n".toUTF8.data.toList, [], ?_, by decide +kernel⟩⟩
    rw [Repository.ending_steady hsteady]
    decide +kernel
  refine ⟨[], ["foo.rb".toList], hroot, rfl, fun calls => ⟨[], ?_⟩⟩
  rw [Repository.ending_steady hsteady]
  decide +kernel

theorem regression_reported_sample :
    ∃ found, audit regressionSample {} [Path.ofText "foo.rb".toList] =
        .ok [(Path.ofText "foo.rb".toList, found)] ∧
      versionMessages found =
        ["version_scheme should not decrease (from 1 to 0)", "revisions should only increment by 1",
          "'revision 3' should be removed"] := by
  have hread : regressionSample.tree.read regressionSample.cwd (Path.ofText "foo.rb".toList) =
      .ok presentSample.octets := by decide +kernel
  have hrepository : repositoryOf regressionSample {} = .ok regressionRepository := rfl
  obtain ⟨found, haudit, hmessages, -⟩ :=
    regression_reported rfl hrepository rfl hread serves_regressionRepository
  refine ⟨found, haudit, hmessages.trans ?_⟩
  decide +kernel

end Audit

end TapAudit
