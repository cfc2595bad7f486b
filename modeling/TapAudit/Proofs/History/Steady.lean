import TapAudit.Proofs.History.Source

/-!
# Steady programs

If the program answers a call in one way whatever was called before, the committed text of a file is
one text throughout: it does not matter when the file is asked for, nor whether the answer is
remembered or had from the program.

- `Repository.committed_steady`: the calls before do not matter.
- `remembering_steady`: nor do the answers that are remembered.
-/

namespace TapAudit.History

/-- The answer to a call does not depend on the calls before. -/
def Git.IsSteady (git : Git) : Prop :=
  ∀ calls call, git calls call = git [] call

namespace Repository

variable {r : Repository}

theorem ending_steady (hsteady : r.git.IsSteady) (calls : List Git.Call) (call : Git.Call) :
    r.ending calls call = r.ending [] call := by
  rw [ending, ending, hsteady calls]

theorem findRoot_steady (hsteady : r.git.IsSteady) (calls : List Git.Call) (file : Location) :
    (r.findRoot calls file).1 = (r.findRoot [] file).1 := by
  unfold findRoot
  cases r.root with
  | some root => rfl
  | none =>
    dsimp only [ask]
    rw [ending_steady hsteady calls]

theorem showFile_steady (hsteady : r.git.IsSteady) (calls : List Git.Call) (file root : Location)
    (names : List Name) :
    (r.showFile calls file root names).1 = (r.showFile [] file root names).1 := by
  unfold showFile
  dsimp only [ask]
  rw [ending_steady hsteady calls]

theorem committed_steady (hsteady : r.git.IsSteady) (calls : List Git.Call) (file : Location) :
    (r.committed calls file).1 = (r.committed [] file).1 := by
  have hroot := findRoot_steady hsteady calls file
  unfold committed
  cases hfound : r.findRoot calls file with
  | mk result later =>
    cases hfirst : r.findRoot [] file with
    | mk result' first =>
      rw [hfound, hfirst] at hroot
      change result = result' at hroot
      subst hroot
      rcases result with fault | missing | root
      · rfl
      · rfl
      · dsimp only
        cases file.relativeTo? root with
        | none => rfl
        | some names =>
          dsimp only
          rw [showFile_steady hsteady later, showFile_steady hsteady first]

/-- What is committed at a location, if it is the first that is asked for. -/
def baselineAt (r : Repository) (file : Location) : Baseline :=
  match (r.committed [] file).1 with
  | .ok result => (Baseline.ofResult result).value
  | .error _ => .untracked

/-- What is committed for a path. -/
def baselineOf (r : Repository) (path : Path) : Baseline :=
  match locate r.tree r.cwd path with
  | .ok file => r.baselineAt file
  | .error _ => .untracked

/-- All that is remembered is what is committed. -/
def RemembersCommitted (r : Repository) (state : List Git.Call × Answers) : Prop :=
  ∀ e ∈ state.2, e.2 = r.baselineAt e.1

end Repository

variable {r : Repository} {path : Path} {file : Location}

theorem ofRepository_steady (hsteady : r.git.IsSteady)
    (hfile : locate r.tree r.cwd path = .ok file) (calls : List Git.Call) :
    ((Source.ofRepository r).lastCommitted path calls).1 =
      (r.committed [] file).1.map Baseline.ofResult := by
  rw [lastCommitted_of_locate calls hfile]
  dsimp only
  rw [Repository.committed_steady hsteady]

theorem remembering_steady (hsteady : r.git.IsSteady) {state : List Git.Call × Answers}
    (hstate : r.RemembersCommitted state) :
    (∀ answer,
        ((Source.remembering r.tree r.cwd (Source.ofRepository r)).lastCommitted path state).1 =
          .ok answer →
            ∃ file, locate r.tree r.cwd path = .ok file ∧ answer.value = r.baselineAt file) ∧
      r.RemembersCommitted
        ((Source.remembering r.tree r.cwd (Source.ofRepository r)).lastCommitted path state).2 := by
  refine remembering_answers (P := fun file baseline => baseline = r.baselineAt file) ?_ hstate
  intro path file calls answer hfile h
  rw [ofRepository_steady hsteady hfile] at h
  obtain ⟨result, hresult, rfl⟩ := map_eq_ok.mp h
  rw [Repository.baselineAt, hresult]

/-- If a question for a location is not answered, nothing is committed there. -/
theorem baselineAt_of_fault (hsteady : r.git.IsSteady)
    (hfile : locate r.tree r.cwd path = .ok file) {state : List Git.Call × Answers} {fault : Fault}
    (h : ((Source.remembering r.tree r.cwd (Source.ofRepository r)).lastCommitted path state).1 =
      .error fault) : r.baselineAt file = .untracked := by
  rw [Source.remembering] at h
  dsimp only at h
  rw [hfile] at h
  dsimp only at h
  have hasked := ofRepository_steady hsteady hfile state.1
  cases hfind : state.2.find? file with
  | some baseline =>
    rw [hfind] at h
    cases h
  | none =>
    rw [hfind] at h
    dsimp only at h
    cases hresult : (r.committed [] file).1 with
    | error fault => rw [Repository.baselineAt, hresult]
    | ok result =>
      rw [hresult] at hasked
      cases hanswer : (Source.ofRepository r).lastCommitted path state.1 with
      | mk answer inner =>
        rw [hanswer] at hasked h
        change answer = .ok _ at hasked
        subst hasked
        cases h

end TapAudit.History
