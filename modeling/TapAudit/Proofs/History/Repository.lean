import TapAudit.History.Source
import TapAudit.Proofs.Except
import TapAudit.Proofs.FileTree
import TapAudit.Proofs.Text.Blank
import TapAudit.Proofs.Text.Search

/-!
# Questions to a repository

A question to a repository makes up to two calls of the program, one for the root unless that is
given, and one for the text if the root leads to the file.

- `findsRoot_findRoot`: how the search for a root ends.
- `showFile_eq_ok_iff`, `showFile_fails_iff`: when a text is had, and when it is a fault to ask.
- `asks_committed`: which calls are made.
- `committed_eq_ok_iff`: when a question has a text.
-/

namespace TapAudit.History

open Text

/-- The call failed, and the program says that the commit does not have the file. -/
def Git.Outcome.SaysMissing : Git.Outcome → Prop
  | .exited code _ errors =>
    code ≠ 0 ∧ ∃ sign ∈ missingFileSigns, sign.toList <:+: Utf8.decodeLenient errors
  | .timedOut => False
  | .failed _ => False

namespace Repository

variable (r : Repository)

/-! ## Calls -/

/-- The call that asks for the root of the repository that holds a file. -/
def rootCall (file : Location) : Git.Call where
  directory := file.dropLast
  arguments := ["rev-parse".toList, "--show-toplevel".toList]
  timeout := r.timeout

/-- The call that asks for the committed text of the file that a root leads to by `names`. -/
def showCall (root : Location) (names : List Name) : Git.Call where
  directory := root
  arguments := ["show".toList, r.ref ++ ':' :: Path.toText { slashes := 0, parts := names }]
  timeout := r.timeout

/-- The calls that are made for the root: none if it is given. -/
def rootCalls (file : Location) : List Git.Call :=
  if r.root = none then [r.rootCall file] else []

/-- The call that asks for the text, unless it cannot be made. -/
def showCalls (root : Location) (names : List Name) : List Git.Call :=
  if (r.showCall root names).holdsNull then [] else [r.showCall root names]

/-- The output is the name of a root: valid, without null characters, and not behind a loop of
links. -/
def Names (output : List UInt8) (root : Location) : Prop :=
  ∃ text, Utf8.decode output = .ok text ∧ '\x00' ∉ text ∧ ¬ r.tree.leadsRound root ∧
    (Path.ofText (strip text)).locate r.cwd = root

/-- The root that is had after earlier calls: it is given, or the program names it. -/
def Obtains (calls : List Git.Call) (file root : Location) : Prop :=
  r.root = some root ∨
    r.root = none ∧ ∃ output errors,
      r.ending calls (r.rootCall file) = .ok (.exited 0 output errors) ∧ r.Names output root

/-- The text is asked for at a root that is had and leads to the file, and this is how it ends. -/
def ShowEnds (calls : List Git.Call) (file : Location)
    (ending : Except Git.Refusal Git.Outcome) : Prop :=
  ∃ root names, r.Obtains calls file root ∧ file = root ++ names ∧
    r.ending (calls ++ r.rootCalls file) (r.showCall root names) = ending

/-- No root is had, nor a reason why: the time limit is too large, or the program names a place
behind a loop of links. -/
inductive LosesRoot (calls : List Git.Call) (file : Location) : Prop
  | limit (hnone : r.root = none)
      (hcall : r.ending calls (r.rootCall file) = .error .limitTooLarge)
  | loop (hnone : r.root = none) (output errors : List UInt8) (text : List Char)
      (hcall : r.ending calls (r.rootCall file) = .ok (.exited 0 output errors))
      (hdecode : Utf8.decode output = .ok text) (hnull : '\x00' ∉ text)
      (hloop : r.tree.leadsRound ((Path.ofText (strip text)).locate r.cwd))

variable {r : Repository} {calls : List Git.Call} {file root : Location} {names : List Name}

theorem answer_of_ending {call : Git.Call} {outcome : Git.Outcome}
    (h : r.ending calls call = .ok outcome) : r.git calls call = outcome := by
  rw [ending] at h
  split at h
  · cases h
  · unfold Git.Call.ending at h
    split at h
    · next hfailed =>
      cases h
      exact hfailed
    · cases h
    · exact Except.ok.inj h

/-! ## The root -/

theorem ask_root : r.ask calls file.dropLast ["rev-parse".toList, "--show-toplevel".toList] =
    (r.ending calls (r.rootCall file), calls ++ [r.rootCall file]) := by
  rfl

theorem holdsNull_ofText_strip {text : List Char} :
    (Path.ofText (strip text)).holdsNull = false ↔ '\x00' ∉ text := by
  rw [Path.holdsNull_eq_false_iff, ← mem_strip_iff (by decide),
    ← Path.exists_mem_parts_iff (by decide) (by decide)]
  simp

theorem namedRoot_of_decode {output : List UInt8} {text : List Char}
    (h : Utf8.decode output = .ok text) :
    r.namedRoot output =
      if '\x00' ∈ text then .ok none
      else if r.tree.leadsRound ((Path.ofText (strip text)).locate r.cwd) then
        .error (.path (.linkLoop ((Path.ofText (strip text)).locate r.cwd)))
      else .ok (some ((Path.ofText (strip text)).locate r.cwd)) := by
  rw [namedRoot, h]
  dsimp only
  rw [FileTree.resolve]
  by_cases hnull : '\x00' ∈ text
  · have hheld : (Path.ofText (strip text)).holdsNull = true := by
      rw [← Bool.not_eq_false, holdsNull_ofText_strip]
      exact not_not_intro hnull
    rw [if_pos hnull, hheld]
    rfl
  · rw [if_neg hnull, holdsNull_ofText_strip.mpr hnull]
    cases r.tree.leadsRound ((Path.ofText (strip text)).locate r.cwd) <;> rfl

theorem namedRoot_eq_some_iff {output : List UInt8} :
    r.namedRoot output = .ok (some root) ↔ r.Names output root := by
  rw [Names]
  cases hdecode : Utf8.decode output with
  | error fault => simp [namedRoot, hdecode]
  | ok text =>
    simp only [namedRoot_of_decode hdecode, Except.ok.injEq, exists_eq_left']
    split_ifs with hnull hround
    · simp [hnull]
    · simp only [false_iff, not_and]
      rintro - hnot rfl
      exact hnot hround
    · simp only [Except.ok.injEq, Option.some.injEq, hnull, not_false_eq_true, true_and]
      refine ⟨?_, fun h => h.2⟩
      rintro rfl
      exact ⟨hround, rfl⟩

theorem namedRoot_fails_iff {output : List UInt8} :
    (∃ fault, r.namedRoot output = .error fault) ↔
      ∃ text, Utf8.decode output = .ok text ∧ '\x00' ∉ text ∧
        r.tree.leadsRound ((Path.ofText (strip text)).locate r.cwd) := by
  cases hdecode : Utf8.decode output with
  | error fault => simp [namedRoot, hdecode]
  | ok text =>
    simp only [namedRoot_of_decode hdecode, Except.ok.injEq, exists_eq_left']
    split_ifs with hnull hround
    · simp [hnull]
    · simp [hnull, hround]
    · simp [hround]

theorem findRoot_calls : (r.findRoot calls file).2 = calls ++ r.rootCalls file := by
  rw [findRoot, rootCalls]
  cases r.root with
  | some given => simp
  | none => rw [if_pos rfl, ask_root]

theorem obtains_iff_of_none (hnone : r.root = none) :
    r.Obtains calls file root ↔ ∃ output errors,
      r.ending calls (r.rootCall file) = .ok (.exited 0 output errors) ∧
        r.namedRoot output = .ok (some root) := by
  simp only [Obtains, hnone, namedRoot_eq_some_iff, reduceCtorEq, false_or, true_and]

theorem losesRoot_iff_of_none (hnone : r.root = none) :
    r.LosesRoot calls file ↔ r.ending calls (r.rootCall file) = .error .limitTooLarge ∨
      ∃ output errors, r.ending calls (r.rootCall file) = .ok (.exited 0 output errors) ∧
        ∃ fault, r.namedRoot output = .error fault := by
  simp only [namedRoot_fails_iff]
  constructor
  · rintro (⟨-, hcall⟩ | ⟨-, output, errors, text, hcall, hdecode, hnull, hloop⟩)
    · exact .inl hcall
    · exact .inr ⟨output, errors, hcall, text, hdecode, hnull, hloop⟩
  · rintro (hcall | ⟨output, errors, hcall, text, hdecode, hnull, hloop⟩)
    · exact .limit hnone hcall
    · exact .loop hnone output errors text hcall hdecode hnull hloop

theorem not_losesRoot_of_root (hgiven : r.root = some root) : ¬ r.LosesRoot calls file := by
  rintro (⟨hnone, -⟩ | ⟨hnone, -⟩) <;> rw [hgiven] at hnone <;> cases hnone

/-- How the search for a root ends: with a root, with a reason that matters, or with a fault. -/
inductive FindsRoot (r : Repository) (calls : List Git.Call) (file : Location) :
    Except Fault (Except Missing Location) → Prop
  | found (root : Location) (hroot : r.Obtains calls file root)
      (hkept : ¬ r.LosesRoot calls file) : FindsRoot r calls file (.ok (.ok root))
  | missing (missing : Missing) (hroot : ∀ root, ¬ r.Obtains calls file root)
      (hkept : ¬ r.LosesRoot calls file) (hlevel : missing.record.level = .warning) :
      FindsRoot r calls file (.ok (.error missing))
  | lost (fault : Fault) (hroot : ∀ root, ¬ r.Obtains calls file root)
      (hlost : r.LosesRoot calls file) : FindsRoot r calls file (.error fault)

theorem findsRoot_findRoot : r.FindsRoot calls file (r.findRoot calls file).1 := by
  rw [findRoot]
  cases hgiven : r.root with
  | some given => exact .found given (.inl hgiven) (not_losesRoot_of_root hgiven)
  | none =>
    have hobtains {root : Location} := @obtains_iff_of_none r calls file root hgiven
    have hloses := @losesRoot_iff_of_none r calls file hgiven
    dsimp only
    rw [ask_root]
    dsimp only
    cases hcall : r.ending calls (r.rootCall file) with
    | error refusal =>
      cases refusal with
      | invalid => exact .missing _ (by simp [hobtains, hcall]) (by simp [hloses, hcall]) rfl
      | limitTooLarge => exact .lost _ (by simp [hobtains, hcall]) (by simp [hloses, hcall])
    | ok outcome =>
      cases outcome with
      | timedOut => exact .missing _ (by simp [hobtains, hcall]) (by simp [hloses, hcall]) rfl
      | failed message =>
        exact .missing _ (by simp [hobtains, hcall]) (by simp [hloses, hcall]) rfl
      | exited code output errors =>
        dsimp only
        split_ifs with hcode
        · exact .missing _ (by simp [hobtains, hcall, hcode]) (by simp [hloses, hcall, hcode]) rfl
        · obtain rfl : code = 0 := not_not.mp hcode
          cases hnamed : r.namedRoot output with
          | error fault =>
            exact .lost _ (by simp [hobtains, hcall, hnamed]) (by simp [hloses, hcall, hnamed])
          | ok named =>
            cases named with
            | none =>
              exact .missing _ (by simp [hobtains, hcall, hnamed])
                (by simp [hloses, hcall, hnamed]) rfl
            | some root =>
              exact .found root (by simp [hobtains, hcall, hnamed])
                (by simp [hloses, hcall, hnamed])

theorem Obtains.unique {other : Location} (h : r.Obtains calls file root)
    (hother : r.Obtains calls file other) : other = root := by
  rcases h with h | ⟨hnone, h⟩
  · rcases hother with hother | ⟨hnone, -⟩
    · exact Option.some.inj (hother.symm.trans h)
    · rw [h] at hnone
      cases hnone
  · have h := (obtains_iff_of_none hnone).mp (.inr ⟨hnone, h⟩)
    obtain ⟨output, errors, hcall, hroot⟩ := h
    obtain ⟨output', errors', hcall', hother⟩ := (obtains_iff_of_none hnone).mp hother
    rw [hcall] at hcall'
    cases hcall'
    rw [hroot] at hother
    exact (Option.some.inj (Except.ok.inj hother)).symm

/-! ## The text -/

theorem ask_show :
    r.ask calls root ["show".toList, r.ref ++ ':' :: Path.toText { slashes := 0, parts := names }] =
      (r.ending calls (r.showCall root names), calls ++ r.showCalls root names) := by
  rw [ask, showCalls]
  change (r.ending calls (r.showCall root names),
    if (r.showCall root names).holdsNull then calls else calls ++ [r.showCall root names]) = _
  split_ifs
  · rw [List.append_nil]
  · rfl

/-- A sign is found in what the program says, be the blanks around that stripped off or not. -/
theorem any_sign_iff {errors : List Char} :
    (missingFileSigns.any fun sign => hasInfix sign.toList (strip errors)) = true ↔
      ∃ sign ∈ missingFileSigns, sign.toList <:+: errors := by
  have hends : ∀ sign ∈ missingFileSigns,
      (∀ c, sign.toList.head? = some c → isBlank c = false) ∧
        ∀ c, sign.toList.getLast? = some c → isBlank c = false := by
    have hletters : isBlank 'd' = false ∧ isBlank 'e' = false ∧ isBlank 'n' = false := by decide
    simp [missingFileSigns, hletters]
  rw [List.any_eq_true]
  refine exists_congr fun sign => and_congr_right fun hsign => ?_
  rw [hasInfix_iff, infix_strip_iff (hends sign hsign).1 (hends sign hsign).2]

theorem showFile_calls :
    (r.showFile calls file root names).2 = calls ++ r.showCalls root names := by
  rw [showFile, ask_show]

theorem showFile_eq_ok_iff {text : List Char} :
    (r.showFile calls file root names).1 = .ok (.ok text) ↔
      ∃ output errors, r.ending calls (r.showCall root names) = .ok (.exited 0 output errors) ∧
        text = Utf8.decodeLenient output := by
  rw [showFile, ask_show]
  dsimp only
  cases hcall : r.ending calls (r.showCall root names) with
  | error refusal => cases refusal <;> simp [refused]
  | ok outcome =>
    cases outcome with
    | timedOut => simp
    | failed message => simp
    | exited code output errors =>
      dsimp only
      by_cases hcode : code = 0
      · subst hcode
        simp [eq_comm]
      · rw [if_neg hcode]
        split <;> simp [hcode]

theorem showFile_fails_iff :
    (∃ fault, (r.showFile calls file root names).1 = .error fault) ↔
      r.ending calls (r.showCall root names) = .error .limitTooLarge := by
  rw [showFile, ask_show]
  dsimp only
  cases hcall : r.ending calls (r.showCall root names) with
  | error refusal => cases refusal <;> simp [refused]
  | ok outcome =>
    cases outcome with
    | timedOut => simp
    | failed message => simp
    | exited code output errors =>
      dsimp only
      split_ifs <;> simp

theorem showFile_missing {missing : Missing}
    (h : (r.showFile calls file root names).1 = .ok (.error missing)) :
    missing.record.level = .debug ↔
      ∃ outcome, r.ending calls (r.showCall root names) = .ok outcome ∧ outcome.SaysMissing := by
  rw [showFile, ask_show] at h
  dsimp only at h
  cases hcall : r.ending calls (r.showCall root names) with
  | error refusal =>
    rw [hcall] at h
    cases refusal <;> cases h
    simp [Missing.record]
  | ok outcome =>
    simp only [Except.ok.injEq, exists_eq_left']
    rw [hcall] at h
    cases outcome with
    | timedOut =>
      cases h
      simp [Missing.record, Git.Outcome.SaysMissing]
    | failed message =>
      cases h
      simp [Missing.record, Git.Outcome.SaysMissing]
    | exited code output errors =>
      dsimp only at h
      split at h
      · cases h
      · next hcode =>
        rw [Git.Outcome.SaysMissing, and_iff_right hcode, ← any_sign_iff]
        split at h
        · next hsign =>
          cases h
          simp [Missing.record, hsign]
        · next hsign =>
          cases h
          simp [Missing.record, hsign]

/-! ## A question -/

/-- At most one root is had, so the text is asked for in one way. -/
theorem showEnds_iff {ending : Except Git.Refusal Git.Outcome} (hroot : r.Obtains calls file root)
    (hfile : file = root ++ names) :
    r.ShowEnds calls file ending ↔
      r.ending (calls ++ r.rootCalls file) (r.showCall root names) = ending := by
  constructor
  · rintro ⟨other, names', hother, hfile', hending⟩
    obtain rfl := hroot.unique hother
    obtain rfl := List.append_cancel_left (hfile.symm.trans hfile')
    exact hending
  · exact fun hending => ⟨root, names, hroot, hfile, hending⟩

theorem not_showEnds {ending : Except Git.Refusal Git.Outcome}
    (hreach : ∀ root, r.Obtains calls file root → ¬ root <+: file) :
    ¬ r.ShowEnds calls file ending := by
  rintro ⟨root, names, hroot, hfile, -⟩
  exact hreach root hroot ⟨names, hfile.symm⟩

/-- How a question for the committed text of a file goes. -/
inductive Asks (r : Repository) (calls : List Git.Call) (file : Location) :
    Except Fault (Except Missing (List Char)) → List Git.Call → Prop
  | lost (fault : Fault) (hreach : ∀ root, r.Obtains calls file root → ¬ root <+: file)
      (hlost : r.LosesRoot calls file) :
      Asks r calls file (.error fault) (calls ++ r.rootCalls file)
  | unreached (missing : Missing) (hreach : ∀ root, r.Obtains calls file root → ¬ root <+: file)
      (hkept : ¬ r.LosesRoot calls file) (hlevel : missing.record.level = .warning) :
      Asks r calls file (.ok (.error missing)) (calls ++ r.rootCalls file)
  | reached (root : Location) (names : List Name) (hroot : r.Obtains calls file root)
      (hkept : ¬ r.LosesRoot calls file) (hfile : file = root ++ names) :
      Asks r calls file (r.showFile (calls ++ r.rootCalls file) file root names).1
        (calls ++ r.rootCalls file ++ r.showCalls root names)

theorem asks_committed :
    r.Asks calls file (r.committed calls file).1 (r.committed calls file).2 := by
  have hcalls : (r.findRoot calls file).2 = calls ++ r.rootCalls file := findRoot_calls
  have hfound : r.FindsRoot calls file (r.findRoot calls file).1 := findsRoot_findRoot
  rw [committed]
  cases h : r.findRoot calls file with
  | mk result later =>
    rw [h] at hcalls hfound
    change later = _ at hcalls
    subst hcalls
    cases hfound with
    | lost fault hroot hlost => exact .lost fault (fun root h => absurd h (hroot root)) hlost
    | missing missing hroot hkept hlevel =>
      exact .unreached missing (fun root h => absurd h (hroot root)) hkept hlevel
    | found root hroot hkept =>
      dsimp only
      cases hnames : file.relativeTo? root with
      | none =>
        refine .unreached _ (fun other hother hbelow => ?_) hkept rfl
        obtain rfl := hroot.unique hother
        obtain ⟨names, hfile⟩ := hbelow
        rw [Location.relativeTo?_eq_some_iff.mpr hfile.symm] at hnames
        cases hnames
      | some names =>
        dsimp only
        have hfile := Location.relativeTo?_eq_some_iff.mp hnames
        have hasks := Asks.reached root names hroot hkept hfile
        rwa [← showFile_calls] at hasks

theorem Asks.eq_ok_iff {result : Except Fault (Except Missing (List Char))}
    {later : List Git.Call} (h : r.Asks calls file result later) {text : List Char} :
    result = .ok (.ok text) ↔
      ∃ output errors, r.ShowEnds calls file (.ok (.exited 0 output errors)) ∧
        text = Utf8.decodeLenient output := by
  cases h with
  | lost fault hreach => simp [not_showEnds hreach]
  | unreached missing hreach => simp [not_showEnds hreach]
  | reached root names hroot hkept hfile =>
    simp only [showEnds_iff hroot hfile]
    exact showFile_eq_ok_iff

theorem Asks.fails_iff {result : Except Fault (Except Missing (List Char))}
    {later : List Git.Call} (h : r.Asks calls file result later) :
    (∃ fault, result = .error fault) ↔
      r.LosesRoot calls file ∨ r.ShowEnds calls file (.error .limitTooLarge) := by
  cases h with
  | lost fault hreach hlost => simp [hlost]
  | unreached missing hreach hkept => simp [hkept, not_showEnds hreach]
  | reached root names hroot hkept hfile =>
    rw [showEnds_iff hroot hfile, or_iff_right hkept, showFile_fails_iff]

theorem committed_eq_ok_iff {text : List Char} :
    (r.committed calls file).1 = .ok (.ok text) ↔
      ∃ output errors, r.ShowEnds calls file (.ok (.exited 0 output errors)) ∧
        text = Utf8.decodeLenient output :=
  asks_committed.eq_ok_iff

end Repository

section

variable {r : Repository} {path : Path} (calls : List Git.Call)

theorem lastCommitted_of_locate {file : Location} (h : locate r.tree r.cwd path = .ok file) :
    (Source.ofRepository r).lastCommitted path calls =
      ((r.committed calls file).1.map Baseline.ofResult, (r.committed calls file).2) := by
  rw [Source.ofRepository]
  dsimp only
  rw [h]

theorem lastCommitted_of_not_locate {fault : Fault}
    (h : locate r.tree r.cwd path = .error fault) :
    (Source.ofRepository r).lastCommitted path calls = (.error fault, calls) := by
  rw [Source.ofRepository]
  dsimp only
  rw [h]

end

end TapAudit.History
