import TapAudit.Proofs.History.Repository

/-!
# What a repository answers

A question for a path without null characters is answered as its calls end, with a text or with one
note. It breaks off in three cases: the path leads into a loop of links, the program names a root
that does, or a call is broken off because its time limit is too large.

- `answered_unreached`, `answered_reached`: what becomes of a question without and with a root that
  leads to the file.
- `ofRepository_answered`: **which calls are made, when a question breaks off, and what it is
  answered otherwise.**
-/

namespace TapAudit.History

open Text

namespace Repository

variable (r : Repository)

/-- The program is asked to show the text and says that the commit does not have the file. -/
def Lacks (calls : List Git.Call) (file : Location) : Prop :=
  ∃ outcome, r.ShowEnds calls file (.ok outcome) ∧ outcome.SaysMissing

/-- The calls that are made for a question after earlier ones. -/
structure Asked (calls : List Git.Call) (file : Location) (made : List Git.Call) : Prop where
  /-- Behind a loop of links nothing is asked for. -/
  looped : r.tree.leadsRound file → made = []
  /-- The text is asked for if a root is had that leads to the file. -/
  shown : ¬ r.tree.leadsRound file → ∀ root names, r.Obtains calls file root →
    file = root ++ names → made = r.rootCalls file ++ r.showCalls root names
  /-- Otherwise no call is made but for the root. -/
  unshown : ¬ r.tree.leadsRound file → (∀ root, r.Obtains calls file root → ¬ root <+: file) →
    made = r.rootCalls file

/-- A question has no answer at all. -/
inductive BreaksOff (calls : List Git.Call) (file : Location) : Prop
  | looped (h : r.tree.leadsRound file)
  | lost (h : r.LosesRoot calls file)
  | limit (h : r.ShowEnds calls file (.error .limitTooLarge))

/-- The answer to a question. -/
structure Answered (calls : List Git.Call) (file : Location) (answer : Logged Baseline) : Prop where
  /-- The answer is a text if the program shows one. -/
  text_iff : ∀ text, answer.value = .text text ↔
    ∃ output errors, r.ShowEnds calls file (.ok (.exited 0 output errors)) ∧
      text = Utf8.decodeLenient output
  /-- A text comes without a note. -/
  silent : ∀ text, answer.value = .text text → answer.log = []
  /-- Without a text there is one note, of minor interest if the commit lacks the file. -/
  noted : answer.value = .untracked → ∃ record, answer.log = [record] ∧
    (r.Lacks calls file ∧ record.level = .debug ∨ ¬ r.Lacks calls file ∧ record.level = .warning)

variable {r : Repository} {calls : List Git.Call} {file root : Location} {names : List Name}

theorem value_ofResult_iff {result : Except Missing (List Char)} {text : List Char} :
    (Baseline.ofResult result).value = .text text ↔ result = .ok text := by
  cases result <;> simp [Baseline.ofResult]

theorem log_ofResult {result : Except Missing (List Char)} {text : List Char}
    (h : (Baseline.ofResult result).value = .text text) : (Baseline.ofResult result).log = [] := by
  rw [value_ofResult_iff.mp h]
  rfl

/-! ## Calls -/

theorem Asks.asked {result : Except Fault (Except Missing (List Char))} {later : List Git.Call}
    (h : r.Asks calls file result later) (hround : ¬ r.tree.leadsRound file) :
    ∃ made, later = calls ++ made ∧ r.Asked calls file made := by
  have hunreached (hreach : ∀ root, r.Obtains calls file root → ¬ root <+: file) :
      r.Asked calls file (r.rootCalls file) :=
    { looped := fun hloop => absurd hloop hround
      shown := fun _ root names hroot hfile => absurd ⟨names, hfile.symm⟩ (hreach root hroot)
      unshown := fun _ _ => rfl }
  cases h with
  | lost fault hreach => exact ⟨_, rfl, hunreached hreach⟩
  | unreached missing hreach => exact ⟨_, rfl, hunreached hreach⟩
  | reached root names hroot _ hfile =>
    refine ⟨_, List.append_assoc .., fun hloop => absurd hloop hround, ?_, ?_⟩
    · intro _ other names' hother hfile'
      obtain rfl := hroot.unique hother
      rw [List.append_cancel_left (hfile.symm.trans hfile')]
    · exact fun _ hreach => absurd ⟨names, hfile.symm⟩ (hreach root hroot)

/-! ## Answers -/

theorem answered_unreached {missing : Missing}
    (hreach : ∀ root, r.Obtains calls file root → ¬ root <+: file)
    (hlevel : missing.record.level = .warning) :
    r.Answered calls file (Baseline.ofResult (.error missing)) := by
  constructor
  case text_iff => simp [value_ofResult_iff, not_showEnds hreach]
  case silent => exact fun text => log_ofResult
  case noted =>
    have hlacks : ¬ r.Lacks calls file := fun ⟨_, hends, _⟩ => not_showEnds hreach hends
    exact fun _ => ⟨_, rfl, .inr ⟨hlacks, hlevel⟩⟩

theorem answered_reached (hroot : r.Obtains calls file root) (hfile : file = root ++ names)
    {result : Except Missing (List Char)}
    (hresult : (r.showFile (calls ++ r.rootCalls file) file root names).1 = .ok result) :
    r.Answered calls file (Baseline.ofResult result) := by
  constructor
  case text_iff =>
    intro text
    rw [value_ofResult_iff]
    have htext := @showFile_eq_ok_iff r (calls ++ r.rootCalls file) file root names text
    simp only [showEnds_iff hroot hfile, ← htext, hresult, Except.ok.injEq]
  case silent => exact fun text => log_ofResult
  case noted =>
    cases result with
    | ok text => exact nofun
    | error missing =>
      have hlacks : r.Lacks calls file ↔ missing.record.level = .debug := by
        rw [showFile_missing hresult]
        simp only [Lacks, showEnds_iff hroot hfile]
      refine fun _ => ⟨_, rfl, ?_⟩
      rw [hlacks]
      cases missing.record.level <;> simp

theorem Asks.answered {result : Except Missing (List Char)} {later : List Git.Call}
    (h : r.Asks calls file (.ok result) later) :
    r.Answered calls file (Baseline.ofResult result) := by
  generalize hasked : Except.ok result = asked at h
  cases h with
  | lost fault => cases hasked
  | unreached missing hreach _ hlevel =>
    cases hasked
    exact answered_unreached hreach hlevel
  | reached root names hroot _ hfile => exact answered_reached hroot hfile hasked.symm

end Repository

/--
**Which calls are made, when a question breaks off, and what it is answered otherwise.** The program
may end its calls in any way, and differently each time. A question breaks off only if the way to
the file or to the root that the program names leads into a loop of links, or if the time limit is
too large for a call.
-/
theorem ofRepository_answered (r : Repository) (calls : List Git.Call) (path : Path)
    (hpath : ∀ part ∈ path.parts, '\x00' ∉ part) :
    ∃ result made,
      (Source.ofRepository r).lastCommitted path calls = (result, calls ++ made) ∧
        r.Asked calls (path.locate r.cwd) made ∧
        ((∃ fault, result = .error fault) ↔ r.BreaksOff calls (path.locate r.cwd)) ∧
        ∀ answer, result = .ok answer → r.Answered calls (path.locate r.cwd) answer := by
  by_cases hround : r.tree.leadsRound (path.locate r.cwd)
  · have hfile : locate r.tree r.cwd path = .error (.path (.linkLoop (path.locate r.cwd))) := by
      rw [locate, FileTree.resolve_of_leadsRound hpath hround]
      rfl
    refine ⟨_, [], by rw [lastCommitted_of_not_locate calls hfile, List.append_nil],
      ⟨fun _ => rfl, ?_, ?_⟩, ?_, ?_⟩
    · exact fun hnot => absurd hround hnot
    · exact fun hnot => absurd hround hnot
    · exact ⟨fun _ => .looped hround, fun _ => ⟨_, rfl⟩⟩
    · intro answer hanswer
      cases hanswer
  · have hfile : locate r.tree r.cwd path = .ok (path.locate r.cwd) :=
      mapError_eq_ok.mpr (FileTree.resolve_eq_ok_iff.mpr ⟨hpath, hround, rfl⟩)
    have hasks : r.Asks calls (path.locate r.cwd) _ _ := Repository.asks_committed
    obtain ⟨made, hmade, hcalls⟩ := hasks.asked hround
    refine ⟨_, made, by rw [lastCommitted_of_locate calls hfile, ← hmade], hcalls, ?_,
      fun answer hanswer => ?_⟩
    · simp only [map_eq_error, hasks.fails_iff]
      constructor
      · rintro (hlost | hlimit)
        · exact .lost hlost
        · exact .limit hlimit
      · rintro (hloop | hlost | hlimit)
        · exact absurd hloop hround
        · exact .inl hlost
        · exact .inr hlimit
    · obtain ⟨result, hresult, rfl⟩ := map_eq_ok.mp hanswer
      rw [hresult] at hasks
      exact hasks.answered

/-- A repository whose commit does not have the file, while one may be a loop of links. -/
def absentSample (loops : List Location) : Repository where
  git calls _ :=
    if calls = [] then .exited 0 "/tap\n".toUTF8.data.toList []
    else .exited 128 [] "fatal: path 'a.rb' does not exist in 'HEAD'\n".toUTF8.data.toList
  tree := { loops }
  cwd := ["tap".toList, "Formula".toList]

/-- The absent file is noted after two calls; a file that is a loop of links is not asked for. -/
theorem ofRepository_answered_absent :
    let file : Location := ["tap".toList, "Formula".toList, "a.rb".toList]
    ((absentSample []).Answered [] file
        ⟨.untracked, [⟨.debug, "Formula/a.rb has no committed revision"⟩]⟩ ∧
      (absentSample []).Asked [] file
        [(absentSample []).rootCall file,
          (absentSample []).showCall ["tap".toList] ["Formula".toList, "a.rb".toList]]) ∧
      ∃ fault, ((Source.ofRepository (absentSample [file])).lastCommitted
        (Path.ofText "a.rb".toList) []).1 = .error fault := by
  intro file
  constructor
  · obtain ⟨result, made, hasked, hcalls, -, hanswered⟩ :=
      ofRepository_answered (absentSample []) [] (Path.ofText "a.rb".toList) (by decide +kernel)
    have hresult : (Source.ofRepository (absentSample [])).lastCommitted
        (Path.ofText "a.rb".toList) [] =
          (.ok ⟨.untracked, [⟨.debug, "Formula/a.rb has no committed revision"⟩]⟩,
            [(absentSample []).rootCall file,
              (absentSample []).showCall ["tap".toList] ["Formula".toList, "a.rb".toList]]) := by
      decide +kernel
    obtain ⟨hvalue, hmade⟩ := Prod.mk.inj (hresult.symm.trans hasked)
    rw [List.nil_append] at hmade
    exact ⟨hanswered _ hvalue.symm, hmade ▸ hcalls⟩
  · obtain ⟨result, made, hasked, -, hfails, -⟩ :=
      ofRepository_answered (absentSample [file]) [] (Path.ofText "a.rb".toList) (by decide +kernel)
    rw [hasked]
    exact hfails.mpr (.looped (by decide +kernel))

end TapAudit.History
