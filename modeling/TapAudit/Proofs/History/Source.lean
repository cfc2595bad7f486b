import TapAudit.Proofs.History.Repository

/-!
# What sources hand out

A committed text that is handed out was shown by some call of `git`, made at the root of the
repository and naming the file from there. Remembering answers does not add any.

- `committed_shown`: where the texts of a repository come from.
- `committed_of_serves`: what a program that serves a file makes of it.
- `remembering_answers`: what holds of all answers of a source holds of those that are remembered.
- `remembering_shown`: so the answers of a repository that are remembered were shown.
-/

namespace TapAudit.History

/-! ## Git -/

/-- The root from which a file is asked for: the given one, or one that the program names. -/
def Repository.IsRoot (r : Repository) (file root : Location) : Prop :=
  match r.root with
  | some given => root = given
  | none =>
    ∃ calls output errors,
      r.ending calls (r.rootCall file) = .ok (.exited 0 output errors) ∧
        r.namedRoot output = .ok (some root)

/-- Some call that asks for the file is answered with this output. -/
def Repository.Shows (r : Repository) (file : Location) (output : List UInt8) : Prop :=
  ∃ calls root names errors, r.IsRoot file root ∧ file.relativeTo? root = some names ∧
    r.ending calls (r.showCall root names) = .ok (.exited 0 output errors)

/-- A baseline that was shown, unless there is none. -/
def Repository.IsShown (r : Repository) (file : Location) (baseline : Baseline) : Prop :=
  ∀ text, baseline = .text text →
    ∃ output, r.Shows file output ∧ text = Text.Utf8.decodeLenient output

/-- The root is given, or the program names it whatever was called before. -/
def Repository.HasRoot (r : Repository) (file root : Location) : Prop :=
  r.root = some root ∨
    r.root = none ∧ ∀ calls, ∃ output errors,
      r.ending calls (r.rootCall file) = .ok (.exited 0 output errors) ∧
        r.namedRoot output = .ok (some root)

/-- Whatever was called before, the program shows these octets for the file. -/
def Repository.Serves (r : Repository) (file : Location) (octets : List UInt8) : Prop :=
  ∃ root names, r.HasRoot file root ∧ file.relativeTo? root = some names ∧
    ∀ calls, ∃ errors,
      r.ending calls (r.showCall root names) = .ok (.exited 0 octets errors)

namespace Repository

theorem Obtains.isRoot {r : Repository} {calls : List Git.Call} {file root : Location}
    (h : r.Obtains calls file root) : r.IsRoot file root := by
  rw [IsRoot]
  rcases h with hgiven | ⟨hnone, output, errors, hcall, hnames⟩
  · rw [hgiven]
  · rw [hnone]
    exact ⟨calls, output, errors, hcall, namedRoot_eq_some_iff.mpr hnames⟩

theorem committed_shown {r : Repository} {calls : List Git.Call} {file : Location}
    {text : List Char} (h : (r.committed calls file).1 = .ok (.ok text)) :
    ∃ output, r.Shows file output ∧ text = Text.Utf8.decodeLenient output := by
  obtain ⟨output, errors, ⟨root, names, hroot, hfile, hcall⟩, htext⟩ := committed_eq_ok_iff.mp h
  have hnames := Location.relativeTo?_eq_some_iff.mpr hfile
  exact ⟨output, ⟨_, root, names, errors, hroot.isRoot, hnames, hcall⟩, htext⟩

theorem HasRoot.obtains {r : Repository} {file root : Location} (h : r.HasRoot file root)
    (calls : List Git.Call) : r.Obtains calls file root := by
  rcases h with hgiven | ⟨hnone, hnamed⟩
  · exact .inl hgiven
  · obtain ⟨output, errors, hcall, hroot⟩ := hnamed calls
    exact .inr ⟨hnone, output, errors, hcall, namedRoot_eq_some_iff.mp hroot⟩

theorem committed_of_serves {r : Repository} {file : Location} {octets : List UInt8}
    (h : r.Serves file octets) (calls : List Git.Call) :
    (r.committed calls file).1 = .ok (.ok (Text.Utf8.decodeLenient octets)) := by
  obtain ⟨root, names, hroot, hnames, hshow⟩ := h
  obtain ⟨errors, hcall⟩ := hshow (calls ++ r.rootCalls file)
  have hfile := Location.relativeTo?_eq_some_iff.mp hnames
  exact committed_eq_ok_iff.mpr
    ⟨octets, errors, ⟨root, names, hroot.obtains calls, hfile, hcall⟩, rfl⟩

end Repository

theorem ofRepository_shown {r : Repository} {path : Path} {file : Location}
    {calls : List Git.Call} {answer : Logged Baseline} (hfile : locate r.tree r.cwd path = .ok file)
    (h : ((Source.ofRepository r).lastCommitted path calls).1 = .ok answer) :
    r.IsShown file answer.value := by
  intro text htext
  rw [lastCommitted_of_locate calls hfile] at h
  obtain ⟨result, hresult, hanswer⟩ := map_eq_ok.mp h
  rw [← hanswer] at htext
  cases result with
  | error missing => cases htext
  | ok content =>
    cases htext
    exact Repository.committed_shown hresult

/-! ## Remembered answers -/

variable {σ : Type}

theorem mem_of_find? {answers : Answers} {file : Location} {baseline : Baseline}
    (h : answers.find? file = some baseline) : (file, baseline) ∈ answers := by
  obtain ⟨⟨location, found⟩, hfind, rfl⟩ := Option.map_eq_some_iff.mp h
  have hlocation : location = file := by simpa using List.find?_some hfind
  exact hlocation ▸ List.mem_of_find?_eq_some hfind

/-- What holds of all answers of a source, and of those remembered so far, goes on to hold. -/
theorem remembering_answers {tree : FileTree} {cwd : Location} {source : Source σ}
    {P : Location → Baseline → Prop}
    (hsource : ∀ path file state answer, locate tree cwd path = .ok file →
      (source.lastCommitted path state).1 = .ok answer → P file answer.value)
    {path : Path} {state : σ × Answers} (hstate : ∀ e ∈ state.2, P e.1 e.2) :
    (∀ answer, ((Source.remembering tree cwd source).lastCommitted path state).1 = .ok answer →
        ∃ file, locate tree cwd path = .ok file ∧ P file answer.value) ∧
      ∀ e ∈ ((Source.remembering tree cwd source).lastCommitted path state).2.2, P e.1 e.2 := by
  rw [Source.remembering]
  dsimp only
  cases hfile : locate tree cwd path with
  | error fault => exact ⟨fun _ h => absurd h (by simp), hstate⟩
  | ok file =>
    dsimp only
    cases hfind : state.2.find? file with
    | some baseline =>
      refine ⟨?_, hstate⟩
      rintro _ ⟨⟩
      exact ⟨file, rfl, hstate _ (mem_of_find? hfind)⟩
    | none =>
      dsimp only
      cases hasked : source.lastCommitted path state.1 with
      | mk result inner =>
        cases result with
        | error fault => exact ⟨fun _ h => absurd h (by simp), hstate⟩
        | ok answer =>
          have hanswer : P file answer.value :=
            hsource path file state.1 answer hfile (by rw [hasked])
          refine ⟨?_, fun e hmem => ?_⟩
          · rintro _ ⟨⟩
            exact ⟨file, rfl, hanswer⟩
          · rcases List.mem_cons.mp hmem with rfl | hmem
            · exact hanswer
            · exact hstate e hmem

/-- The answers that are remembered were shown. -/
def Repository.RemembersShown (r : Repository) (state : List Git.Call × Answers) : Prop :=
  ∀ e ∈ state.2, r.IsShown e.1 e.2

theorem remembering_shown {r : Repository} {path : Path} {state : List Git.Call × Answers}
    (hstate : r.RemembersShown state) :
    (∀ answer,
        ((Source.remembering r.tree r.cwd (Source.ofRepository r)).lastCommitted path state).1 =
          .ok answer → ∃ file, locate r.tree r.cwd path = .ok file ∧ r.IsShown file answer.value) ∧
      r.RemembersShown
        ((Source.remembering r.tree r.cwd (Source.ofRepository r)).lastCommitted path state).2 :=
  remembering_answers (fun _ _ _ _ hfile => ofRepository_shown hfile) hstate

end TapAudit.History
