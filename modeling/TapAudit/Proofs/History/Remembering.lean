import Mathlib.Data.List.Basic
import TapAudit.Proofs.History.Source

/-!
# Runs of questions

A source that remembers is asked for one path after the other, while the source behind it may answer
as it likes, or not at all. Paths count as one if they lead to one location, however they are
spelled.

- `Remembers.of_known`, `Remembers.of_unknown`: a known answer is kept, and the source behind is
  asked for others.
- `Remembers.find?_after`: a question makes known what it was answered, and nothing else.
- `find?_before`: what is known at a question was given as the answer to an earlier one.
- `remembering_run`: **a location has one answer throughout, the first that the source behind
  gives.**
-/

namespace TapAudit.History

/-! ## Questions -/

/-- A question to a source, with the states that it leads from and to. -/
structure Question (τ : Type) where
  path : Path
  before : τ
  result : Except Fault (Logged Baseline)
  after : τ

variable {σ τ : Type}

/-- The question of a path to a source. -/
def Source.question (source : Source τ) (state : τ) (path : Path) : Question τ :=
  let (result, after) := source.lastCommitted path state
  { path, before := state, result, after }

/-- The questions of paths, one after the other. -/
def Source.questions (source : Source τ) (state : τ) : List Path → List (Question τ)
  | [] => []
  | path :: rest =>
    source.question state path :: source.questions (source.question state path).after rest

/-- The source, which also keeps the paths that it is asked for. -/
def Source.noting (source : Source σ) : Source (σ × List Path) where
  lastCommitted path state :=
    let (result, inner) := source.lastCommitted path state.1
    (result, (inner, state.2 ++ [path]))

/-- The state of a source that remembers, in front of one that keeps the paths it is asked for. -/
abbrev Remembering (σ : Type) : Type :=
  (σ × List Path) × Answers

/-- The question is answered for a location. -/
def Question.Gives (tree : FileTree) (cwd : Location) (q : Question τ) (file : Location)
    (baseline : Baseline) : Prop :=
  locate tree cwd q.path = .ok file ∧ ∃ answer, q.result = .ok answer ∧ answer.value = baseline

/-- What becomes of a question that comes after earlier ones. -/
structure Question.IsServed (tree : FileTree) (cwd : Location) (source : Source σ)
    (earlier : List (Question (Remembering σ))) (q : Question (Remembering σ)) : Prop where
  /-- A path that leads nowhere is not asked for. -/
  unlocated : ∀ fault, locate tree cwd q.path = .error fault →
    q.result = .error fault ∧ q.after = q.before
  /-- A location that has been answered for keeps its answer, and the source behind is not asked. -/
  kept : ∀ p ∈ earlier, ∀ file baseline, p.Gives tree cwd file baseline →
    locate tree cwd q.path = .ok file → q.result = .ok (pure baseline) ∧ q.after = q.before
  /-- A location that has not been answered for is passed on, be it that it was asked for or not. -/
  passed : ∀ file, locate tree cwd q.path = .ok file →
    (∀ p ∈ earlier, ∀ baseline, ¬ p.Gives tree cwd file baseline) →
      (q.result, q.after.1) = source.noting.lastCommitted q.path q.before.1
  /-- A question that is not answered makes nothing known. -/
  failed : ∀ fault, q.result = .error fault → q.after.2 = q.before.2
  /-- What is known of other locations stays. -/
  apart : ∀ file, locate tree cwd q.path ≠ .ok file → q.after.2.find? file = q.before.2.find? file

/-- Each question of a run is served as befits the earlier ones. -/
def IsServedRun (tree : FileTree) (cwd : Location) (source : Source σ)
    (run : List (Question (Remembering σ))) : Prop :=
  ∀ earlier q later, run = earlier ++ q :: later → q.IsServed tree cwd source earlier

/-! ## One question -/

/-- What a source that remembers does at a question. -/
inductive Remembers (tree : FileTree) (cwd : Location) (source : Source τ)
    (q : Question (τ × Answers)) : Prop
  | unlocated (fault : Fault) (hpath : locate tree cwd q.path = .error fault)
      (hresult : q.result = .error fault) (hafter : q.after = q.before)
  | known (file : Location) (baseline : Baseline) (hpath : locate tree cwd q.path = .ok file)
      (hfind : q.before.2.find? file = some baseline) (hresult : q.result = .ok (pure baseline))
      (hafter : q.after = q.before)
  | asked (file : Location) (hpath : locate tree cwd q.path = .ok file)
      (hfind : q.before.2.find? file = none)
      (hasked : (q.result, q.after.1) = source.lastCommitted q.path q.before.1)
      (hafter : q.after.2 =
        match q.result with
        | .ok answer => (file, answer.value) :: q.before.2
        | .error _ => q.before.2)

theorem remembers_question (tree : FileTree) (cwd : Location) (source : Source τ)
    (state : τ × Answers) (path : Path) :
    Remembers tree cwd source ((Source.remembering tree cwd source).question state path) := by
  rw [Source.question, Source.remembering]
  dsimp only
  cases hpath : locate tree cwd path with
  | error fault => exact .unlocated fault hpath rfl rfl
  | ok file =>
    dsimp only
    cases hfind : state.2.find? file with
    | some baseline => exact .known file baseline hpath hfind rfl rfl
    | none =>
      dsimp only
      cases hasked : source.lastCommitted path state.1 with
      | mk result inner =>
        cases result with
        | error fault => exact .asked file hpath hfind hasked.symm rfl
        | ok answer => exact .asked file hpath hfind hasked.symm rfl

theorem find?_cons (answers : Answers) (file location : Location) (baseline : Baseline) :
    Answers.find? ((location, baseline) :: answers) file =
      if location = file then some baseline else answers.find? file := by
  rw [Answers.find?, List.find?_cons]
  by_cases h : location = file
  · rw [if_pos h, beq_iff_eq.mpr h]
    rfl
  · rw [if_neg h, beq_eq_false_iff_ne.mpr h]
    rfl

section

variable {tree : FileTree} {cwd : Location} {source : Source τ} {q : Question (τ × Answers)}
  {file : Location} {baseline : Baseline}

theorem Question.not_gives_of_error {q : Question τ} {fault : Fault} (h : q.result = .error fault) :
    ¬ q.Gives tree cwd file baseline := by
  rintro ⟨-, answer, hanswer, -⟩
  rw [h] at hanswer
  cases hanswer

theorem Question.gives_iff {q : Question τ} {location : Location} {answer : Logged Baseline}
    (hpath : locate tree cwd q.path = .ok location) (hresult : q.result = .ok answer) :
    q.Gives tree cwd file baseline ↔ location = file ∧ answer.value = baseline := by
  rw [Gives, hpath, hresult]
  simp

theorem Remembers.find?_after (h : Remembers tree cwd source q) :
    q.after.2.find? file = some baseline ↔
      q.before.2.find? file = some baseline ∨ q.Gives tree cwd file baseline := by
  cases h with
  | unlocated fault _ hresult hafter =>
    rw [hafter, or_iff_left (Question.not_gives_of_error hresult)]
  | known location known hpath hfind hresult hafter =>
    rw [hafter, Question.gives_iff hpath hresult, or_iff_left_of_imp]
    rintro ⟨rfl, rfl⟩
    exact hfind
  | asked location hpath hfind _ hafter =>
    cases hresult : q.result with
    | error fault =>
      rw [hresult] at hafter
      rw [hafter, or_iff_left (Question.not_gives_of_error hresult)]
    | ok answer =>
      rw [hresult] at hafter
      rw [hafter, find?_cons, Question.gives_iff hpath hresult]
      by_cases hfile : location = file
      · subst hfile
        simp [hfind]
      · simp [hfile]

theorem Remembers.of_unlocated {fault : Fault} (h : Remembers tree cwd source q)
    (hfault : locate tree cwd q.path = .error fault) :
    q.result = .error fault ∧ q.after = q.before := by
  cases h with
  | unlocated fault' hpath hresult hafter =>
    rw [hpath] at hfault
    cases hfault
    exact ⟨hresult, hafter⟩
  | known _ _ hpath =>
    rw [hpath] at hfault
    cases hfault
  | asked _ hpath =>
    rw [hpath] at hfault
    cases hfault

theorem Remembers.of_known (h : Remembers tree cwd source q)
    (hfile : locate tree cwd q.path = .ok file)
    (hknown : q.before.2.find? file = some baseline) :
    q.result = .ok (pure baseline) ∧ q.after = q.before := by
  cases h with
  | unlocated _ hpath =>
    rw [hpath] at hfile
    cases hfile
  | known location known hpath hfind hresult hafter =>
    rw [hpath] at hfile
    cases hfile
    rw [hfind] at hknown
    cases hknown
    exact ⟨hresult, hafter⟩
  | asked location hpath hfind =>
    rw [hpath] at hfile
    cases hfile
    rw [hfind] at hknown
    cases hknown

theorem Remembers.of_unknown (h : Remembers tree cwd source q)
    (hfile : locate tree cwd q.path = .ok file)
    (hnone : q.before.2.find? file = none) :
    (q.result, q.after.1) = source.lastCommitted q.path q.before.1 := by
  cases h with
  | unlocated _ hpath =>
    rw [hpath] at hfile
    cases hfile
  | known location known hpath hfind =>
    rw [hpath] at hfile
    cases hfile
    rw [hnone] at hfind
    cases hfind
  | asked _ _ _ hasked => exact hasked

theorem Remembers.of_fault {fault : Fault} (h : Remembers tree cwd source q)
    (hfault : q.result = .error fault) : q.after.2 = q.before.2 := by
  cases h with
  | unlocated _ _ _ hafter => rw [hafter]
  | known _ _ _ _ _ hafter => rw [hafter]
  | asked _ _ _ _ hafter => rw [hafter, hfault]

theorem Remembers.of_elsewhere (h : Remembers tree cwd source q)
    (hfile : locate tree cwd q.path ≠ .ok file) : q.after.2.find? file = q.before.2.find? file := by
  refine Option.ext fun baseline => ?_
  rw [h.find?_after, or_iff_left]
  exact fun hgives => hfile hgives.1

end

/-! ## Runs -/

theorem remembers_of_mem {tree : FileTree} {cwd : Location} {source : Source τ}
    {state : τ × Answers} {paths : List Path} {q : Question (τ × Answers)}
    (h : q ∈ (Source.remembering tree cwd source).questions state paths) :
    Remembers tree cwd source q := by
  induction paths generalizing state with
  | nil => cases h
  | cons path rest ih =>
    rcases List.mem_cons.mp h with rfl | h
    · exact remembers_question ..
    · exact ih h

/-- What is known at a question was known at first or given as the answer to an earlier one. -/
theorem find?_before {tree : FileTree} {cwd : Location} {source : Source τ} {state : τ × Answers}
    {paths : List Path} {earlier later : List (Question (τ × Answers))}
    {q : Question (τ × Answers)}
    (h : (Source.remembering tree cwd source).questions state paths = earlier ++ q :: later)
    {file : Location} {baseline : Baseline} :
    q.before.2.find? file = some baseline ↔
      state.2.find? file = some baseline ∨ ∃ p ∈ earlier, p.Gives tree cwd file baseline := by
  induction earlier generalizing state paths with
  | nil =>
    cases paths with
    | nil => cases h
    | cons path rest =>
      obtain ⟨rfl, -⟩ := List.cons.inj h
      simp [Source.question]
  | cons p earlier ih =>
    cases paths with
    | nil => cases h
    | cons path rest =>
      obtain ⟨rfl, hrest⟩ := List.cons.inj h
      rw [ih hrest, (remembers_question tree cwd source state path).find?_after,
        List.exists_mem_cons_iff, or_assoc]
      rfl

/--
**A location has one answer throughout, the first that the source behind gives.** The source behind
may answer differently from one call to the next and may fail; it is asked for a location until it
has answered once, and what is asked for other locations makes no difference.
-/
theorem remembering_run (tree : FileTree) (cwd : Location) (source : Source σ) (state : σ)
    (paths : List Path) :
    IsServedRun tree cwd source
      ((Source.remembering tree cwd source.noting).questions ((state, []), []) paths) := by
  intro earlier q later hrun
  have hq : Remembers tree cwd source.noting q :=
    remembers_of_mem (hrun ▸ List.mem_append_right _ List.mem_cons_self)
  have hknown {file : Location} {baseline : Baseline} :
      q.before.2.find? file = some baseline ↔ ∃ p ∈ earlier, p.Gives tree cwd file baseline := by
    rw [find?_before hrun]
    exact or_iff_right nofun
  constructor
  case unlocated => exact fun fault hfault => hq.of_unlocated hfault
  case kept =>
    intro p hp file baseline hgives hfile
    exact hq.of_known hfile (hknown.mpr ⟨p, hp, hgives⟩)
  case passed =>
    intro file hfile hnone
    refine hq.of_unknown hfile (Option.eq_none_iff_forall_ne_some.mpr fun baseline hfind => ?_)
    obtain ⟨p, hp, hgives⟩ := hknown.mp hfind
    exact hnone p hp baseline hgives
  case failed => exact fun fault hfault => hq.of_fault hfault
  case apart => exact fun file hfile => hq.of_elsewhere hfile

/-- A source that fails at its first call and afterwards tells how often it was called. Of two
spellings of one path both have the answer to the second call. -/
example :
    let counting : Source Nat :=
      { lastCommitted := fun _ n =>
          (if n = 0 then .error (.failure [])
            else .ok (pure (.text (List.replicate n '+'))), n + 1) }
    let paths := ["a.rb", "b/../a.rb", "b.rb", "a.rb"].map fun text => Path.ofText text.toList
    ((Source.remembering {} [] counting.noting).questions ((0, []), []) paths).map (·.result) =
      [.error (.failure []), .ok (pure (.text ['+'])), .ok (pure (.text ['+', '+'])),
        .ok (pure (.text ['+']))] := by
  decide +kernel

end TapAudit.History
