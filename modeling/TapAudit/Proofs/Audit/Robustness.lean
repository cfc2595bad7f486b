import TapAudit.Proofs.Audit.Collect
import TapAudit.Proofs.Audit.Run
import TapAudit.Proofs.Invariant.Problems
import TapAudit.Proofs.Precedence

/-!
# What stops an audit

Files that cannot be read, texts that define no formula, and committed texts that cannot be had are
all passed over. What does stop an audit is a formula whose version has to be read off a URL with a
faulty authority, be it the present formula or the one that was last committed, and a number that is
too long to be read in one of them.

- `entry_succeeds_iff`: a file is reported on unless one of its two texts is faulty or their
  versions cannot be compared.
- `hasRepository_iff`: the repositories that can be named.
- `audit_eq_ok_iff`: the reports of an audit.
- `audit_succeeds_iff`: the audits that give a report.
- `audit_reports`: **an audit stops at faulty URLs and long numbers only.**
-/

namespace TapAudit.Audit

open History (Source Baseline)
open Snapshot (IsFaulty)

/-! ## One file -/

/-- The text that was handed out is faulty. -/
def IsFaultyBaseline (baseline : Baseline) : Prop :=
  ∃ old, baseline = .text old ∧ IsFaulty old

/-- The text that was handed out defines a formula. -/
def IsFormulaBaseline (baseline : Baseline) : Prop :=
  ∃ old, baseline = .text old ∧ Script.isFormula old

/-- The versions of the two texts cannot be compared, because a number in them is too long. -/
def AreBeyondComparison (text : List Char) (baseline : Baseline) : Prop :=
  ∃ old current historical, baseline = .text old ∧
    Snapshot.ofText text = .ok (some current) ∧ Snapshot.ofText old = .ok (some historical) ∧
      ¬ Number.AreReadable (Version.comparedNumerals current.version historical.version)

/-- A file at which an audit stops. -/
def StopsAt (w : World) (path : Path) (baseline : Baseline) : Prop :=
  ∃ text, readFormula w path = .ok text ∧
    (IsFaulty text ∨ Script.isFormula text ∧ IsFaultyBaseline baseline ∨
      AreBeyondComparison text baseline)

theorem isTold_of_readText {text old : List Char} {current historical : Snapshot}
    (hcurrent : Snapshot.readText text = .ok (some current))
    (hhistorical : Snapshot.readText old = .ok (some historical)) :
    Invariant.IsTold current historical := by
  have hnow := Snapshot.areWritable_of_readText hcurrent
  have hbefore := Snapshot.areWritable_of_readText hhistorical
  exact ⟨fun _ => ⟨hbefore.scheme, hnow.scheme⟩, fun _ _ => ⟨hbefore.revision, hnow.revision⟩,
    fun _ => hnow.revision⟩

theorem checkedProblems_fails_iff {text old : List Char} {current historical : Snapshot}
    (hcurrent : Snapshot.readText text = .ok (some current))
    (hhistorical : Snapshot.readText old = .ok (some historical)) :
    (∃ fault, Invariant.checkedProblems current (some historical) = .error fault) ↔
      ¬ Number.AreReadable (Version.comparedNumerals current.version historical.version) := by
  have htold := isTold_of_readText hcurrent hhistorical
  rw [← not_iff_not, ← exists_ok_iff, not_not]
  simp only [Invariant.checkedProblems_eq_ok_iff, exists_and_left, exists_eq', and_true, htold]

theorem comparison_fails_iff {text old : List Char} {current : Snapshot}
    (hcurrent : Snapshot.readText text = .ok (some current)) :
    (∃ fault, ((Snapshot.readText old).bind fun historical =>
        (Invariant.checkedProblems current historical).mapError Snapshot.Fault.number) =
          .error fault) ↔
      IsFaulty old ∨ AreBeyondComparison text (.text old) := by
  have hbeyond : AreBeyondComparison text (.text old) ↔ ∃ historical,
      Snapshot.ofText old = .ok (some historical) ∧
        ¬ Number.AreReadable (Version.comparedNumerals current.version historical.version) := by
    simp [AreBeyondComparison, (Snapshot.readText_eq_ok_iff.mp hcurrent).2]
  rw [hbeyond, ← Snapshot.readText_fails_iff]
  cases hhistorical : Snapshot.readText old with
  | error fault => simp [Except.bind]
  | ok historical =>
    rw [(Snapshot.readText_eq_ok_iff.mp hhistorical).2]
    cases historical with
    | none => simp [Except.bind, Invariant.checkedProblems, Except.mapError]
    | some historical =>
      simp only [Except.ok.injEq, Option.some.injEq, exists_eq_left', reduceCtorEq, exists_false,
        false_or, ← checkedProblems_fails_iff hcurrent hhistorical]
      exact mapError_fails_iff

theorem versionProblems_fails_iff {text : List Char} {baseline : Baseline} :
    (∃ fault, versionProblems text baseline = .error fault) ↔
      IsFaulty text ∨ Script.isFormula text ∧ IsFaultyBaseline baseline ∨
        AreBeyondComparison text baseline := by
  rw [versionProblems]
  cases hcurrent : Snapshot.readText text with
  | error fault =>
    have hfaulty : IsFaulty text := Snapshot.readText_fails_iff.mp ⟨fault, hcurrent⟩
    simp [Except.bind, hfaulty]
  | ok current =>
    have hsound : ¬ IsFaulty text := by
      rw [← Snapshot.readText_fails_iff, hcurrent]
      simp
    have htext := (Snapshot.readText_eq_ok_iff.mp hcurrent).2
    rw [or_iff_right hsound]
    cases current with
    | none =>
      have hnone := Snapshot.not_isFormula_of_ofText htext
      simp [Except.bind, hnone, AreBeyondComparison, htext]
    | some current =>
      rw [and_iff_right (Snapshot.isFormula_of_ofText htext)]
      cases baseline with
      | untracked =>
        simp [Except.bind, Auditor.baselineSnapshot, Invariant.checkedProblems, Except.mapError,
          IsFaultyBaseline, AreBeyondComparison]
      | text old =>
        have hfaulty : IsFaultyBaseline (.text old) ↔ IsFaulty old := by simp [IsFaultyBaseline]
        rw [hfaulty]
        exact comparison_fails_iff hcurrent

theorem versionProblems_ne_nil_iff {text : List Char} {baseline : Baseline}
    {problems : List String} (h : versionProblems text baseline = .ok problems) :
    problems ≠ [] ↔
      ∃ old current historical, baseline = .text old ∧
        Snapshot.ofText text = .ok (some current) ∧ Snapshot.ofText old = .ok (some historical) ∧
          Invariant.problems current (some historical) ≠ [] := by
  obtain ⟨current, hcurrent, h⟩ := bind_eq_ok.mp h
  have htext := (Snapshot.readText_eq_ok_iff.mp hcurrent).2
  constructor
  · intro hne
    cases current with
    | none => exact absurd (Except.ok.inj h).symm hne
    | some current =>
      obtain ⟨historical, hhistorical, h⟩ := bind_eq_ok.mp h
      rw [mapError_eq_ok] at h
      cases historical with
      | none => exact absurd (Except.ok.inj h).symm hne
      | some historical =>
        obtain ⟨-, rfl⟩ := Invariant.checkedProblems_eq_ok_iff.mp h
        cases baseline with
        | untracked => cases hhistorical
        | text old =>
          have hold := (Snapshot.readText_eq_ok_iff.mp hhistorical).2
          exact ⟨old, current, historical, rfl, htext, hold, hne⟩
  · rintro ⟨old, current', historical, rfl, hcurrent', hold, hne⟩
    rw [hcurrent'] at htext
    cases htext
    obtain ⟨historical', hhistorical, h⟩ := bind_eq_ok.mp h
    rw [(Snapshot.readText_eq_ok_iff.mp hhistorical).2] at hold
    cases hold
    obtain ⟨-, rfl⟩ := Invariant.checkedProblems_eq_ok_iff.mp (mapError_eq_ok.mp h)
    exact hne

theorem entry_succeeds_iff {w : World} {strict : Bool} {path : Path} {baseline : Baseline} :
    (∃ found, entry w strict path baseline = .ok found) ↔ ¬ StopsAt w path baseline := by
  rw [StopsAt, entry]
  cases readFormula w path with
  | error reason => simp
  | ok text =>
    rw [exists_ok_iff]
    simp only [map_eq_error, versionProblems_fails_iff, Except.ok.injEq, exists_eq_left']

/--
What is reported of a file for which `baseline` was handed out: the one finding that it cannot be
read, or all findings on its text and those of a comparison that needs two formulae.
-/
def IsEntry (w : World) (strict : Bool) (path : Path) (baseline : Baseline)
    (found : List Finding) : Prop :=
  match readFormula w path with
  | .error reason => found = [unreadableFinding path reason]
  | .ok text =>
    ∃ problems, found = ownFindings strict text path ++ problems.map (versionFinding path) ∧
      (problems ≠ [] → Script.isFormula text ∧ IsFormulaBaseline baseline)

theorem isEntry_of_entry {w : World} {strict : Bool} {path : Path} {baseline : Baseline}
    {found : List Finding} (h : entry w strict path baseline = .ok found) :
    IsEntry w strict path baseline found := by
  rw [entry] at h
  rw [IsEntry]
  cases hread : readFormula w path with
  | error reason =>
    rw [hread] at h
    exact (Except.ok.inj h).symm
  | ok text =>
    rw [hread] at h
    obtain ⟨problems, hproblems, hfound⟩ := map_eq_ok.mp h
    refine ⟨problems, hfound.symm, fun hne => ?_⟩
    obtain ⟨old, _, _, rfl, htext, hold, -⟩ := (versionProblems_ne_nil_iff hproblems).mp hne
    exact ⟨Snapshot.isFormula_of_ofText htext, old, rfl, Snapshot.isFormula_of_ofText hold⟩

/-! ## A whole audit -/

/-- What is handed out for a file after the files `before` it were audited. -/
def served (w : World) (c : Config) (before : List Path) (path : Path) : Baseline :=
  if c.history then
    match repositoryOf w c with
    | .ok repository =>
      let source := Source.remembering w.tree w.cwd (Source.ofRepository repository)
      source.baseline (stateAfter w source ([], []) before) path
    | .error _ => .untracked
  else .untracked

/-- The repository of a configuration can be named, if it is needed. -/
def HasRepository (w : World) (c : Config) : Prop :=
  c.history → ∃ repository, repositoryOf w c = .ok repository

theorem hasRepository_iff {w : World} {c : Config} :
    HasRepository w c ↔
      (c.history → ∀ path, c.repository = some path →
        (∀ part ∈ path.parts, '\x00' ∉ part) ∧ ¬ w.tree.leadsRound (path.locate w.cwd)) := by
  refine imp_congr_right fun _ => ?_
  rw [repositoryOf]
  cases c.repository with
  | none => simp [bind, Except.bind, pure, Except.pure]
  | some path =>
    simp only [Option.some.injEq, forall_eq', ← FileTree.resolve_succeeds_iff]
    cases w.tree.resolve w.cwd path <;>
      simp [Except.mapError, bind, Except.bind, pure, Except.pure]

theorem repositoryOf_eq_ok {w : World} {c : Config} {r : History.Repository}
    (h : repositoryOf w c = .ok r) : r.git = w.git ∧ r.tree = w.tree ∧ r.cwd = w.cwd := by
  rw [repositoryOf] at h
  split at h
  all_goals
    obtain ⟨root, -, h⟩ := bind_eq_ok.mp h
    cases h
    exact ⟨rfl, rfl, rfl⟩

theorem baseline_fixed_nil (tree : FileTree) (cwd : Location) (state : Unit) (path : Path) :
    (Source.fixed tree cwd []).baseline state path = .untracked := by
  rw [Source.baseline, Source.fixed]
  dsimp only
  cases History.locate tree cwd path <;> rfl

theorem served_of_repository {w : World} {c : Config} {repository : History.Repository}
    (hhistory : c.history) (hrepository : repositoryOf w c = .ok repository) (before : List Path)
    (path : Path) :
    served w c before path =
      (Source.remembering w.tree w.cwd (Source.ofRepository repository)).baseline
        (stateAfter w (Source.remembering w.tree w.cwd (Source.ofRepository repository)) ([], [])
          before) path := by
  rw [served, if_pos hhistory, hrepository]

theorem served_of_not_history {w : World} {c : Config} (hhistory : ¬ c.history)
    (before : List Path) (path : Path) : served w c before path = .untracked := by
  rw [served, if_neg hhistory]

theorem collect_auditFiles_eq_ok_iff {σ : Type} {w : World} {c : Config} {source : Source σ}
    {state : σ} {paths : List Path} {report : Report} :
    (collect w c paths >>= auditFiles w c.strict source state) = .ok report ↔
      collect w c paths = .ok (report.map Prod.fst) ∧ IsRun w c.strict source state report := by
  rw [bind_eq_ok]
  constructor
  · rintro ⟨files, hfiles, h⟩
    obtain ⟨rfl, hrun⟩ := auditFiles_eq_ok_iff.mp h
    exact ⟨hfiles, hrun⟩
  · rintro ⟨hfiles, hrun⟩
    exact ⟨_, hfiles, auditFiles_eq_ok_iff.mpr ⟨rfl, hrun⟩⟩

/-- A report has an entry for each file that is collected, against what is served for it. -/
theorem audit_eq_ok_iff {w : World} {c : Config} {paths : List Path} {report : Report} :
    audit w c paths = .ok report ↔
      HasRepository w c ∧ collect w c paths = .ok (report.map Prod.fst) ∧
        ∀ front path found back, report = front ++ (path, found) :: back →
          entry w c.strict path (served w c (front.map Prod.fst) path) = .ok found := by
  by_cases hhistory : c.history
  · rw [audit, if_pos hhistory, bind_eq_ok]
    constructor
    · rintro ⟨repository, hrepository, h⟩
      obtain ⟨hfiles, hrun⟩ := collect_auditFiles_eq_ok_iff.mp h
      refine ⟨fun _ => ⟨repository, hrepository⟩, hfiles, fun front path found back heq => ?_⟩
      rw [served_of_repository hhistory hrepository]
      exact hrun front path found back heq
    · rintro ⟨hrepository, hfiles, hrun⟩
      obtain ⟨repository, hrepository⟩ := hrepository hhistory
      refine ⟨repository, hrepository, collect_auditFiles_eq_ok_iff.mpr ⟨hfiles, ?_⟩⟩
      intro front path found back heq
      rw [← served_of_repository hhistory hrepository]
      exact hrun front path found back heq
  · rw [audit, if_neg hhistory]
    refine collect_auditFiles_eq_ok_iff.trans ?_
    simp only [IsRun, baseline_fixed_nil, served_of_not_history hhistory]
    exact (and_iff_right fun h => absurd h hhistory).symm

theorem exists_report {P : List Path → Path → List Finding → Prop} {files : List Path} :
    (∃ report : Report, report.map Prod.fst = files ∧
        ∀ front path found back, report = front ++ (path, found) :: back →
          P (front.map Prod.fst) path found) ↔
      ∀ before path after, files = before ++ path :: after → ∃ found, P before path found := by
  constructor
  · rintro ⟨report, rfl, hreport⟩ before path after heq
    obtain ⟨front, tail, rfl, rfl, htail⟩ := List.map_eq_append_iff.mp heq
    obtain ⟨⟨path', found⟩, back, rfl, rfl, -⟩ := List.map_eq_cons_iff.mp htail
    exact ⟨found, hreport front path' found back rfl⟩
  · induction files generalizing P with
    | nil => exact fun _ => ⟨[], rfl, fun front path found back h => absurd h (by simp)⟩
    | cons path rest ih =>
      intro h
      obtain ⟨found, hfound⟩ := h [] path rest rfl
      obtain ⟨others, hmap, hothers⟩ := ih (P := fun before => P (path :: before))
        fun before path' after heq => h (path :: before) path' after (by rw [heq]; rfl)
      refine ⟨(path, found) :: others, by rw [List.map_cons, hmap], ?_⟩
      intro front path' found' back heq
      cases front with
      | nil =>
        injection heq with hhead
        cases hhead
        exact hfound
      | cons e front =>
        injection heq with hhead htail
        cases hhead
        exact hothers front path' found' back htail

theorem audit_succeeds_iff {w : World} {c : Config} {paths : List Path} :
    (∃ report, audit w c paths = .ok report) ↔
      HasRepository w c ∧ ∃ files, collect w c paths = .ok files ∧
        ∀ before path after, files = before ++ path :: after →
          ¬ StopsAt w path (served w c before path) := by
  have hentry : ∀ path baseline,
      ¬ StopsAt w path baseline ↔ ∃ found, entry w c.strict path baseline = .ok found :=
    fun _ _ => entry_succeeds_iff.symm
  simp only [audit_eq_ok_iff, hentry, ← exists_report]
  constructor
  · rintro ⟨report, hrepository, hcollect, hreport⟩
    exact ⟨hrepository, _, hcollect, report, rfl, hreport⟩
  · rintro ⟨hrepository, files, hcollect, report, rfl, hreport⟩
    exact ⟨report, hrepository, hcollect, hreport⟩

/--
**An audit stops at faulty URLs and long numbers only.** It gives a report as soon as its files can
be named, unless the present or the committed text of one of them has a faulty URL or a number that
is too long, or their versions cannot be compared for such a number. Its report then has one entry
for each file, in order, and an entry lacks at most the findings that need a text that could not be
used.
-/
theorem audit_reports (w : World) (c : Config) (paths : List Path) :
    ((∃ report, audit w c paths = .ok report) ↔
      HasRepository w c ∧ ∃ files, collect w c paths = .ok files ∧
        ∀ before path after, files = before ++ path :: after →
          ¬ StopsAt w path (served w c before path)) ∧
    ∀ report, audit w c paths = .ok report →
      collect w c paths = .ok (report.map Prod.fst) ∧ (report.map Prod.fst).Nodup ∧
        ∀ front path found back, report = front ++ (path, found) :: back →
          IsEntry w c.strict path (served w c (front.map Prod.fst) path) found := by
  refine ⟨audit_succeeds_iff, fun report h => ?_⟩
  obtain ⟨-, hcollect, hreport⟩ := audit_eq_ok_iff.mp h
  refine ⟨hcollect, collect_nodup hcollect, fun front path found back heq => ?_⟩
  exact isEntry_of_entry (hreport front path found back heq)

/-- A file that is no text, a formula, and a formula whose URL has one bracket. -/
def sample : World where
  tree :=
    { files :=
        [(["a.rb".toList], [0xFF]),
         (["b.rb".toList],
          "class B < Formula\n  url \"http://b/b-1.0.zip\"\nend\n".toUTF8.data.toList),
         (["c.rb".toList],
          "class C < Formula\n  url \"http://[c/c-1.0.zip\"\nend\n".toUTF8.data.toList)] }
  cwd := []
  git _ _ := .timedOut

/-- The first file has its one finding and leaves the second to be audited; the third stops the
audit. -/
theorem audit_reports_sample :
    (∃ report, audit sample {} [Path.ofText "a.rb".toList, Path.ofText "b.rb".toList] = .ok report ∧
        collect sample {} [Path.ofText "a.rb".toList, Path.ofText "b.rb".toList] =
          .ok (report.map Prod.fst)) ∧
      ¬ (HasRepository sample {} ∧ ∃ files,
          collect sample {} [Path.ofText "b.rb".toList, Path.ofText "c.rb".toList] = .ok files ∧
            ∀ before path after, files = before ++ path :: after →
              ¬ StopsAt sample path (served sample {} before path)) := by
  constructor
  · have hreport : audit sample {} [Path.ofText "a.rb".toList, Path.ofText "b.rb".toList] =
        .ok [(Path.ofText "a.rb".toList, [unreadableFinding (Path.ofText "a.rb".toList)
              "'utf-8' codec can't decode byte 0xff in position 0: invalid start byte"]),
          (Path.ofText "b.rb".toList, [])] := by decide +kernel
    exact ⟨_, hreport, ((audit_reports sample {} _).2 _ hreport).1⟩
  · intro h
    obtain ⟨report, hreport⟩ := (audit_reports sample {} _).1.mpr h
    have hstops : audit sample {} [Path.ofText "b.rb".toList, Path.ofText "c.rb".toList] =
        .error (.formula (.url .brackets)) := by decide +kernel
    rw [hstops] at hreport
    cases hreport

end TapAudit.Audit
