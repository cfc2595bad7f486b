import TapAudit.Audit
import TapAudit.Proofs.Snapshot

/-!
# A run over files

What an audit reports of a file depends on the file and on the committed text that the source hands
out for it; the files before it matter only through the state in which they leave the source. A run
is therefore described by that state, which is there even if the run stops early.

- `auditFile_eq`: one file is audited against what the source hands out for it.
- `stateAfter_preserves`: what each question to a source preserves holds throughout.
- `auditFiles_eq_ok_iff`: the report of a run, entry by entry.
-/

namespace TapAudit

open History (Source Baseline)

variable {σ : Type}

/-- What a source hands out for a file. A source that fails counts as having nothing. -/
def History.Source.baseline (source : Source σ) (state : σ) (path : Path) : Baseline :=
  match (source.lastCommitted path state).1 with
  | .ok answer => answer.value
  | .error _ => .untracked

/-- The state of a source after it was asked about a file. -/
def History.Source.next (source : Source σ) (state : σ) (path : Path) : σ :=
  (source.lastCommitted path state).2

namespace Audit

/-! ## One file -/

/-- The auditor of a text that has no history. -/
def alone (strict : Bool) (text : List Char) (path : Path) : Auditor Unit :=
  { formula := Formula.ofText text path, strict, source := Source.failing [] }

/-- The findings on a text for which its history is of no account. -/
def ownFindings (strict : Bool) (text : List Char) (path : Path) : List Finding :=
  (alone strict text path).fileFindings ++ (alone strict text path).classFindings

/-- A finding of the comparison with the last commit. -/
def versionFinding (path : Path) (message : String) : Finding :=
  { level := .error, rule := Rule.versionInvariant.id, file := path, message }

/-- The finding on a file that cannot be read. -/
def unreadableFinding (path : Path) (reason : String) : Finding :=
  { level := .error, rule := unreadable, file := path, message := unreadableMessage reason }

/-- The problems of a text, given what was handed out for it. -/
def versionProblems (text : List Char) (baseline : Baseline) :
    Except Snapshot.Fault (List String) :=
  (Snapshot.readText text).bind fun
    | none => .ok []
    | some current =>
      (Auditor.baselineSnapshot baseline).bind fun historical =>
        (Invariant.checkedProblems current historical).mapError Snapshot.Fault.number

/-- What is reported of a file, given what was handed out for it. -/
def entry (w : World) (strict : Bool) (path : Path) (baseline : Baseline) :
    Except Snapshot.Fault (List Finding) :=
  match readFormula w path with
  | .error reason => .ok [unreadableFinding path reason]
  | .ok text =>
    (versionProblems text baseline).map fun problems =>
      ownFindings strict text path ++ problems.map (versionFinding path)

/-- The state of a source after a file was audited. The source is asked about formulae only. -/
def stateStep (w : World) (source : Source σ) (state : σ) (path : Path) : σ :=
  match readFormula w path with
  | .error _ => state
  | .ok text => if Script.isFormula text then source.next state path else state

theorem historyFindings_eq (source : Source σ) (state : σ) (strict : Bool) (text : List Char)
    (path : Path) :
    ({ formula := Formula.ofText text path, strict, source } : Auditor σ).historyFindings state =
      (versionProblems text (source.baseline state path)).map fun problems =>
        (problems.map (versionFinding path),
          if Script.isFormula text then source.next state path else state) := by
  rw [Auditor.historyFindings, Snapshot.formula_snapshot, versionProblems]
  cases h : Snapshot.readText text with
  | error fault => rfl
  | ok current =>
    have hread := (Snapshot.readText_eq_ok_iff.mp h).2
    cases current with
    | none =>
      rw [if_neg (Snapshot.not_isFormula_of_ofText hread)]
      rfl
    | some current =>
      rw [if_pos (Snapshot.isFormula_of_ofText hread)]
      change (Auditor.baselineSnapshot (source.baseline state path) >>= _) =
        Except.map _ ((Auditor.baselineSnapshot (source.baseline state path)).bind _)
      cases Auditor.baselineSnapshot (source.baseline state path) with
      | error fault => rfl
      | ok historical =>
        change ((Invariant.checkedProblems current historical).mapError _ >>= _) =
          Except.map _ ((Invariant.checkedProblems current historical).mapError _)
        cases Invariant.checkedProblems current historical <;> rfl

theorem auditFile_eq (w : World) (strict : Bool) (source : Source σ) (state : σ) (path : Path) :
    auditFile w strict source state path =
      ((entry w strict path (source.baseline state path)).map fun found =>
        (found, stateStep w source state path)).mapError .formula := by
  rw [auditFile, entry, stateStep]
  cases readFormula w path with
  | error reason => rfl
  | ok text =>
    dsimp only
    rw [Auditor.findings, historyFindings_eq]
    cases versionProblems text (source.baseline state path) <;> rfl

/-! ## Several files -/

/-- The state of a source after files were audited. -/
def stateAfter (w : World) (source : Source σ) (state : σ) (files : List Path) : σ :=
  files.foldl (stateStep w source) state

theorem stateStep_preserves {I : σ → Prop} {w : World} {source : Source σ} {state : σ}
    (hnext : ∀ state path, I state → I (source.next state path)) (hstate : I state) (path : Path) :
    I (stateStep w source state path) := by
  rw [stateStep]
  split
  · exact hstate
  · split
    · exact hnext state path hstate
    · exact hstate

theorem stateAfter_preserves {I : σ → Prop} {w : World} {source : Source σ} {state : σ}
    (hnext : ∀ state path, I state → I (source.next state path)) (hstate : I state)
    (files : List Path) : I (stateAfter w source state files) :=
  List.foldlRecOn files (stateStep w source) hstate fun _ h path _ =>
    stateStep_preserves hnext h path

/-- Every entry of a report is what its file gives in the state that the entries before it
leave. -/
def IsRun (w : World) (strict : Bool) (source : Source σ) (state : σ) (report : Report) : Prop :=
  ∀ front path found back, report = front ++ (path, found) :: back →
    entry w strict path
      (source.baseline (stateAfter w source state (front.map Prod.fst)) path) = .ok found

theorem isRun_nil (w : World) (strict : Bool) (source : Source σ) (state : σ) :
    IsRun w strict source state [] := by
  intro front path found back h
  exact absurd h (by simp)

theorem isRun_cons {w : World} {strict : Bool} {source : Source σ} {state : σ} {path : Path}
    {found : List Finding} {rest : Report} :
    IsRun w strict source state ((path, found) :: rest) ↔
      entry w strict path (source.baseline state path) = .ok found ∧
        IsRun w strict source (stateStep w source state path) rest := by
  constructor
  · intro h
    refine ⟨h [] path found rest rfl, fun front path' found' back heq => ?_⟩
    exact h ((path, found) :: front) path' found' back (by rw [heq, List.cons_append])
  · rintro ⟨hfirst, hrest⟩ front path' found' back heq
    cases front with
    | nil =>
      injection heq with hhead htail
      cases hhead
      exact hfirst
    | cons e front =>
      injection heq with hhead htail
      cases hhead
      exact hrest front path' found' back htail

theorem auditFiles_cons {w : World} {strict : Bool} {source : Source σ} {state : σ} {path : Path}
    {rest : List Path} {report : Report} :
    auditFiles w strict source state (path :: rest) = .ok report ↔
      ∃ found others, report = (path, found) :: others ∧
        entry w strict path (source.baseline state path) = .ok found ∧
          auditFiles w strict source (stateStep w source state path) rest = .ok others := by
  rw [auditFiles, bind_eq_ok]
  constructor
  · rintro ⟨⟨found, next⟩, hfile, hrest⟩
    rw [auditFile_eq, mapError_eq_ok, map_eq_ok] at hfile
    obtain ⟨found', hentry, hpair⟩ := hfile
    cases hpair
    obtain ⟨others, hothers, hreport⟩ := bind_eq_ok.mp hrest
    cases hreport
    exact ⟨found, others, rfl, hentry, hothers⟩
  · rintro ⟨found, others, rfl, hentry, hothers⟩
    refine ⟨(found, stateStep w source state path), ?_, bind_eq_ok.mpr ⟨others, hothers, rfl⟩⟩
    rw [auditFile_eq, hentry]
    rfl

/-- A run gives one entry for each file, in order. -/
theorem auditFiles_eq_ok_iff {w : World} {strict : Bool} {source : Source σ} {state : σ}
    {files : List Path} {report : Report} :
    auditFiles w strict source state files = .ok report ↔
      report.map Prod.fst = files ∧ IsRun w strict source state report := by
  induction files generalizing state report with
  | nil =>
    rw [auditFiles, Except.ok.injEq, List.map_eq_nil_iff]
    constructor
    · rintro rfl
      exact ⟨rfl, isRun_nil w strict source state⟩
    · exact fun h => h.1.symm
  | cons path rest ih =>
    rw [auditFiles_cons]
    constructor
    · rintro ⟨found, others, rfl, hentry, hothers⟩
      obtain ⟨hmap, hrun⟩ := ih.mp hothers
      exact ⟨by rw [List.map_cons, hmap], isRun_cons.mpr ⟨hentry, hrun⟩⟩
    · rintro ⟨hmap, hrun⟩
      obtain ⟨⟨path', found⟩, others, rfl, rfl, hothers⟩ := List.map_eq_cons_iff.mp hmap
      obtain ⟨hentry, hrun⟩ := isRun_cons.mp hrun
      exact ⟨found, others, rfl, hentry, ih.mpr ⟨hothers, hrun⟩⟩

end Audit

end TapAudit
