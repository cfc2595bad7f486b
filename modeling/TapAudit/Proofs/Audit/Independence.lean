import Mathlib.Data.List.Perm.Basic
import TapAudit.Proofs.Audit.Robustness
import TapAudit.Proofs.History.Steady

/-!
# Files are audited by themselves

The files of an audit share one source, which remembers what it has answered. If the program behind
it is steady, a file nevertheless gets the findings that it gets in an audit of its own, and the
order of the files is the order of the report and nothing else.

- `served_steady`: what is handed out for a file does not depend on the files before it.
- `collect_eq_self`: paths of different files stand for themselves.
- `audit_eq_ok_iff_of_steady`: the reports of an audit, without regard to order.
- `audit_independent`: **files are audited independently of each other.**
-/

namespace TapAudit.Audit

open History (Source Baseline Repository)

/-! ## What is handed out -/

theorem baseline_remembering {r : Repository} (hsteady : r.git.IsSteady)
    {state : List History.Git.Call × History.Answers} (hstate : r.RemembersCommitted state)
    (path : Path) :
    (Source.remembering r.tree r.cwd (Source.ofRepository r)).baseline state path =
      r.baselineOf path := by
  rw [Source.baseline, Repository.baselineOf]
  split
  · next answer hanswer =>
    obtain ⟨file, hfile, hvalue⟩ := (History.remembering_steady hsteady hstate).1 answer hanswer
    rw [hfile, hvalue]
  · next fault hfault =>
    split
    · next file hfile => exact (History.baselineAt_of_fault hsteady hfile hfault).symm
    · rfl

theorem stateAfter_remembersCommitted {r : Repository} (hsteady : r.git.IsSteady) (w : World)
    (files : List Path) :
    r.RemembersCommitted
      (stateAfter w (Source.remembering r.tree r.cwd (Source.ofRepository r)) ([], []) files) :=
  stateAfter_preserves (I := r.RemembersCommitted)
    (fun _ _ hstate => (History.remembering_steady hsteady hstate).2)
    (fun _ hmem => absurd hmem List.not_mem_nil) files

theorem served_steady {w : World} (hsteady : w.git.IsSteady) (c : Config) (before : List Path)
    (path : Path) : served w c before path = served w c [] path := by
  by_cases hhistory : c.history
  · rw [served, served, if_pos hhistory, if_pos hhistory]
    cases hr : repositoryOf w c with
    | error fault => rfl
    | ok r =>
      obtain ⟨hgit, htree, hcwd⟩ := repositoryOf_eq_ok hr
      rw [← hgit] at hsteady
      dsimp only
      rw [← htree, ← hcwd,
        baseline_remembering hsteady (stateAfter_remembersCommitted hsteady w before),
        baseline_remembering hsteady (stateAfter_remembersCommitted hsteady w [])]
  · rw [served_of_not_history hhistory, served_of_not_history hhistory]

/-! ## Files that stand for themselves -/

theorem isDirectory_of_isFile {w : World} {path : Path} (h : isFile w path = .ok true) :
    isDirectory w path = .ok false := by
  rw [isFile, mapError_eq_ok, FileTree.isFile] at h
  rw [isDirectory, mapError_eq_ok, FileTree.isDirectory]
  split at h
  · next hlookup => rw [hlookup]
  · cases h
  · cases h

theorem isDirectory_of_mem_expand {w : World} {c : Config} {path : Path} {files : List Path}
    (h : expand w c path = .ok files) : ∀ file ∈ files, isDirectory w file = .ok false := by
  rcases expand_eq_ok.mp h with ⟨hpath, rfl⟩ | ⟨inside, -, -, hfiles⟩
  · intro file hmem
    rwa [List.mem_singleton.mp hmem]
  · intro file hmem
    rw [filesOf] at hfiles
    split at hfiles
    · obtain ⟨_, -, hfiles⟩ := bind_eq_ok.mp hfiles
      exact isDirectory_of_isFile (isFile_of_mem_onlyFiles hfiles file hmem)
    · cases hfiles
      exact absurd hmem List.not_mem_nil

theorem expand_of_not_isDirectory {w : World} {c : Config} {path : Path}
    (h : isDirectory w path = .ok false) : expand w c path = .ok [path] :=
  expand_eq_ok.mpr (.inl ⟨h, rfl⟩)

theorem isDirectory_of_mem_collect {w : World} {c : Config} {paths files : List Path}
    (h : collect w c paths = .ok files) {file : Path} (hmem : file ∈ files) :
    isDirectory w file = .ok false ∧ ∃ location, w.tree.resolve w.cwd file = .ok location := by
  obtain ⟨found, hfound, hdistinct⟩ := bind_eq_ok.mp h
  have hfile : file ∈ found := (distinct_sublist hdistinct).subset hmem
  refine ⟨?_, distinct_succeeds_iff.mp ⟨files, hdistinct⟩ file hfile⟩
  have hexpand := expandAll_succeeds_iff.mp ⟨found, hfound, fun _ _ => trivial⟩
  obtain ⟨found', hfound', hfiles⟩ := expandAll_succeeds_iff.mpr fun path hpath =>
    have ⟨files, hfiles, _⟩ := hexpand path hpath
    ⟨files, hfiles, isDirectory_of_mem_expand hfiles⟩
  rw [hfound] at hfound'
  cases hfound'
  exact hfiles file hfile

theorem expandAll_eq_self {w : World} {c : Config} {paths : List Path}
    (hfiles : ∀ path ∈ paths, isDirectory w path = .ok false) :
    expandAll w c paths = .ok paths := by
  induction paths with
  | nil => rfl
  | cons path rest ih =>
    rw [List.forall_mem_cons] at hfiles
    exact expandAll_cons.mpr
      ⟨[path], rest, expand_of_not_isDirectory hfiles.1, ih hfiles.2, rfl⟩

theorem distinct_eq_self {w : World} {seen : List Location} {paths : List Path}
    (hresolve : ∀ path ∈ paths, ∃ location, w.tree.resolve w.cwd path = .ok location)
    (hnodup : (paths.map (Path.locate w.cwd)).Nodup)
    (hseen : ∀ path ∈ paths, path.locate w.cwd ∉ seen) : distinct w seen paths = .ok paths := by
  induction paths generalizing seen with
  | nil => rfl
  | cons path rest ih =>
    rw [List.forall_mem_cons] at hresolve hseen
    rw [List.map_cons, List.nodup_cons] at hnodup
    obtain ⟨⟨location, hlocation⟩, hresolve⟩ := hresolve
    have hlocate := FileTree.locate_of_resolve hlocation
    have hnew : seen.contains location ≠ true := by
      rw [← hlocate]
      exact fun h => hseen.1 (List.contains_iff_mem.mp h)
    have hrest : distinct w (location :: seen) rest = .ok rest := by
      refine ih hresolve hnodup.2 fun other hother hmem => ?_
      rcases List.mem_cons.mp hmem with heq | hmem
      · exact hnodup.1 (List.mem_map.mpr ⟨other, hother, heq.trans hlocate.symm⟩)
      · exact hseen.2 other hother hmem
    rw [distinct_cons hlocation, if_neg hnew, hrest]
    rfl

theorem collect_eq_self {w : World} {c : Config} {paths : List Path}
    (hfiles : ∀ path ∈ paths, isDirectory w path = .ok false)
    (hresolve : ∀ path ∈ paths, ∃ location, w.tree.resolve w.cwd path = .ok location)
    (hnodup : (paths.map (Path.locate w.cwd)).Nodup) : collect w c paths = .ok paths := by
  rw [collect, expandAll_eq_self hfiles]
  exact distinct_eq_self hresolve hnodup fun _ _ => List.not_mem_nil

/-! ## Reports -/

/-- With a steady program the place of a file in a report is of no account. -/
theorem audit_eq_ok_iff_of_steady {w : World} (hsteady : w.git.IsSteady) {c : Config}
    {paths : List Path} {report : Report} :
    audit w c paths = .ok report ↔
      HasRepository w c ∧ collect w c paths = .ok (report.map Prod.fst) ∧
        ∀ e ∈ report, entry w c.strict e.1 (served w c [] e.1) = .ok e.2 := by
  rw [audit_eq_ok_iff]
  refine and_congr_right fun _ => and_congr_right fun _ => ⟨fun h e hmem => ?_, ?_⟩
  · obtain ⟨front, back, rfl⟩ := List.append_of_mem hmem
    rw [← served_steady hsteady c (front.map Prod.fst)]
    exact h front e.1 e.2 back rfl
  · rintro h front path found back rfl
    rw [served_steady hsteady]
    exact h (path, found) (List.mem_append_right front List.mem_cons_self)

theorem exists_reordered {report : Report} {paths : List Path}
    (h : paths.Perm (report.map Prod.fst)) :
    ∃ reordered : Report, reordered.map Prod.fst = paths ∧ reordered.Perm report := by
  have hreport : List.Forall₂ (fun path e => path = Prod.fst e) (report.map Prod.fst) report :=
    List.forall₂_map_left_iff.mpr (List.forall₂_same.mpr fun _ _ => rfl)
  obtain ⟨reordered, hreordered, hperm⟩ := List.perm_comp_forall₂ h hreport
  refine ⟨reordered, ?_, hperm⟩
  rw [← List.forall₂_eq_eq_eq, List.forall₂_map_left_iff]
  exact hreordered.flip.imp fun _ _ heq => heq.symm

/--
**Files are audited independently of each other.** With a steady program, whatever an audit reports
of a file is all that an audit of this file alone reports. So paths of different files, none of them
a directory, may be given in any order: the report has the same entries, in that order.
-/
theorem audit_independent {w : World} {c : Config} {paths : List Path} {report : Report}
    (hsteady : w.git.IsSteady) (h : audit w c paths = .ok report) :
    (∀ path found, (path, found) ∈ report → audit w c [path] = .ok [(path, found)]) ∧
      ((∀ path ∈ paths, isDirectory w path ≠ .ok true) →
        (paths.map (Path.locate w.cwd)).Nodup →
          ∀ others, others.Perm paths → ∃ reordered : Report,
            audit w c others = .ok reordered ∧ reordered.map Prod.fst = others ∧
              reordered.Perm report) := by
  obtain ⟨hrepository, hcollect, hentries⟩ := (audit_eq_ok_iff_of_steady hsteady).mp h
  constructor
  · intro path found hmem
    have hpath : path ∈ report.map Prod.fst := List.mem_map_of_mem hmem
    obtain ⟨hfile, hresolve⟩ := isDirectory_of_mem_collect hcollect hpath
    refine (audit_eq_ok_iff_of_steady hsteady).mpr ⟨hrepository, ?_, ?_⟩
    · exact collect_eq_self (List.forall_mem_singleton.mpr hfile)
        (List.forall_mem_singleton.mpr hresolve) (List.nodup_singleton _)
    · exact List.forall_mem_singleton.mpr (hentries (path, found) hmem)
  · intro hfiles hnodup others hothers
    have hself : ∀ path ∈ paths, isDirectory w path = .ok false ∧
        ∃ location, w.tree.resolve w.cwd path = .ok location := by
      intro path hmem
      obtain ⟨files, hexpand, hresolve⟩ := collect_succeeds_iff.mp ⟨_, hcollect⟩ path hmem
      rcases expand_eq_ok.mp hexpand with ⟨hfile, rfl⟩ | ⟨_, hdirectory, -⟩
      · exact ⟨hfile, hresolve path List.mem_cons_self⟩
      · exact absurd hdirectory (hfiles path hmem)
    have hreport : report.map Prod.fst = paths := by
      rw [collect_eq_self (fun path hmem => (hself path hmem).1)
        (fun path hmem => (hself path hmem).2) hnodup] at hcollect
      exact (Except.ok.inj hcollect).symm
    obtain ⟨reordered, hmap, hperm⟩ := exists_reordered (hreport ▸ hothers)
    refine ⟨reordered, ?_, hmap, hperm⟩
    refine (audit_eq_ok_iff_of_steady hsteady).mpr ⟨hrepository, ?_, fun e hmem => ?_⟩
    · rw [hmap]
      exact collect_eq_self (fun path hmem => (hself path (hothers.subset hmem)).1)
        (fun path hmem => (hself path (hothers.subset hmem)).2)
        ((hothers.map _).nodup_iff.mpr hnodup)
    · exact hentries e (hperm.subset hmem)

/-- A file that is no text and a formula whose version was larger when it was committed. -/
def loweredSample : World where
  tree :=
    { files :=
        [(["a.rb".toList], [0xFF]),
         (["b.rb".toList],
          "class B < Formula\n  url \"http://b/b-1.0.zip\"\nend\n".toUTF8.data.toList)] }
  cwd := []
  git _ call :=
    if call.arguments = ["show".toList, "HEAD:b.rb".toList] then
      .exited 0 "class B < Formula\n  url \"http://b/b-1.1.zip\"\nend\n".toUTF8.data.toList []
    else .exited 128 [] []

/-- The formula has its finding alone and in front of the other file as well as behind it. -/
theorem audit_independent_lowered :
    audit loweredSample { repository := some (Path.ofText "/".toList) }
        [Path.ofText "b.rb".toList] =
      .ok [(Path.ofText "b.rb".toList,
        [versionFinding (Path.ofText "b.rb".toList)
          "stable version should not decrease (from 1.1 to 1.0)"])] ∧
      ∃ reordered : Report,
        audit loweredSample { repository := some (Path.ofText "/".toList) }
            [Path.ofText "b.rb".toList, Path.ofText "a.rb".toList] = .ok reordered ∧
          reordered.map Prod.fst = [Path.ofText "b.rb".toList, Path.ofText "a.rb".toList] := by
  have hreport : audit loweredSample { repository := some (Path.ofText "/".toList) }
      [Path.ofText "a.rb".toList, Path.ofText "b.rb".toList] =
        .ok [(Path.ofText "a.rb".toList, [unreadableFinding (Path.ofText "a.rb".toList)
              "'utf-8' codec can't decode byte 0xff in position 0: invalid start byte"]),
          (Path.ofText "b.rb".toList, [versionFinding (Path.ofText "b.rb".toList)
              "stable version should not decrease (from 1.1 to 1.0)"])] := by decide +kernel
  have h := audit_independent (fun _ _ => rfl) hreport
  refine ⟨h.1 _ _ (List.mem_cons_of_mem _ (List.mem_singleton_self _)), ?_⟩
  obtain ⟨reordered, haudit, hmap, -⟩ :=
    h.2 (by decide +kernel) (by decide +kernel) _ (List.Perm.swap _ _ [])
  exact ⟨reordered, haudit, hmap⟩

end TapAudit.Audit
