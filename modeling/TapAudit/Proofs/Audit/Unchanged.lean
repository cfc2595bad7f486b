import TapAudit.Proofs.Audit.Robustness
import TapAudit.Proofs.History.Source
import TapAudit.Proofs.Script.LineEnds

/-!
# Files that have not changed

A file that holds exactly the octets that were committed. The two sides are read differently: the
present text with its line ends made plain, the committed one as it is. The two texts then have the
same version fields, unless some carriage return stands alone.

- `ofText_plain`: version fields do not depend on the form of line ends.
- `problems_self`: a state of a formula may follow itself.
- `served_shown`: whatever an audit compares with was shown by `git`.
- `unchanged_file`: **an unchanged file has version findings only through lone carriage returns.**
-/

namespace TapAudit

open Text (HasLoneReturn Plain normalizeLineEnds plain_normalizeLineEnds)
open History (Source Baseline)

/-! ## Equal texts -/

theorem Snapshot.ofText_plain {s t : List Char} (h : Plain s t) :
    Snapshot.ofText s = Snapshot.ofText t := by
  by_cases hs : Script.isFormula s
  · have ht : Script.isFormula t := (Script.isFormula_plain h).symm.trans hs
    rw [ofText_formula hs, ofText_formula ht, Script.declarations_plain h]
  · have ht : ¬ Script.isFormula t := fun ht => hs ((Script.isFormula_plain h).trans ht)
    rw [ofText_of_not_formula hs, ofText_of_not_formula ht]

theorem Version.compare_self (version : Option (List Char)) :
    (Version.compare version version).value = .equal ∨
      (Version.compare version version).value = .incomparable := by
  cases version with
  | none => exact .inr rfl
  | some version =>
    left
    rw [Version.compare, if_pos rfl]
    rfl

theorem Invariant.problems_self (s : Snapshot) : Invariant.problems s (some s) = [] := by
  have hscheme : schemeProblems s s = [] := by
    rw [schemeProblems, if_neg (by omega), if_neg (by omega)]
  have hversion := Version.compare_self s.version
  rw [problems]
  generalize (Version.compare s.version s.version).value = delta at hversion
  have hdecrease : versionProblems s s delta = [] := by
    refine if_neg fun h => ?_
    rw [h.1] at hversion
    exact absurd hversion (by decide)
  have hrevision : revisionProblems s s delta = [] := by
    rcases hversion with rfl | rfl
    · rw [revisionProblems, if_neg (by omega), if_neg (by omega)]
    · rfl
  rw [hscheme, hdecrease, hrevision]
  rfl

namespace Audit

/-! ## What is compared -/

/-- A finding of the comparison with the last commit. -/
def IsVersionFinding (f : Finding) : Prop :=
  f.rule = Rule.versionInvariant.id

theorem not_isVersionFinding_of_own {strict : Bool} {text : List Char} {path : Path} :
    ∀ f ∈ ownFindings strict text path, ¬ IsVersionFinding f := by
  have htext : ∀ f ∈ (alone strict text path).textFindings, ¬ IsVersionFinding f := by
    rw [Auditor.textFindings]
    simp only [List.forall_mem_append]
    refine ⟨⟨?_, ?_⟩, ?_⟩ <;> split <;> simp [IsVersionFinding, Auditor.finding, Rule.id]
  have hstructure : ∀ f ∈ (alone strict text path).structureFindings, ¬ IsVersionFinding f := by
    rw [Auditor.structureFindings]
    simp only [List.forall_mem_append, List.forall_mem_map]
    refine ⟨⟨?_, ?_⟩, ?_⟩ <;> simp [IsVersionFinding, Auditor.finding, Rule.id]
  have hclass : ∀ f ∈ (alone strict text path).classFindings, ¬ IsVersionFinding f := by
    rw [Auditor.classFindings]
    split <;> simp [IsVersionFinding, Auditor.finding, Rule.id]
  rw [ownFindings, Auditor.fileFindings]
  simp only [List.forall_mem_append]
  refine ⟨⟨htext, ?_⟩, hclass⟩
  split
  · exact hstructure
  · exact fun _ hmem => absurd hmem List.not_mem_nil

theorem stateAfter_remembersShown (w : World) (r : History.Repository) (files : List Path) :
    r.RemembersShown
      (stateAfter w (Source.remembering r.tree r.cwd (Source.ofRepository r)) ([], []) files) :=
  stateAfter_preserves (I := r.RemembersShown)
    (fun _ _ hstate => (History.remembering_shown hstate).2)
    (fun _ hmem => absurd hmem List.not_mem_nil) files

/-- Whatever an audit compares with was shown by the program. -/
theorem served_shown {w : World} {c : Config} {before : List Path} {path : Path}
    {text : List Char} (h : served w c before path = .text text) :
    ∃ r file output, repositoryOf w c = .ok r ∧ w.tree.resolve w.cwd path = .ok file ∧
      r.Shows file output ∧ text = Text.Utf8.decodeLenient output := by
  rw [served] at h
  split at h
  · cases hr : repositoryOf w c with
    | error fault =>
      rw [hr] at h
      cases h
    | ok r =>
      rw [hr] at h
      dsimp only at h
      obtain ⟨-, htree, hcwd⟩ := repositoryOf_eq_ok hr
      rw [← htree, ← hcwd, Source.baseline] at h
      split at h
      · next answer hanswer =>
        obtain ⟨file, hfile, hshown⟩ :=
          (History.remembering_shown (stateAfter_remembersShown w r before)).1 answer hanswer
        obtain ⟨output, houtput, htext⟩ := hshown text h
        rw [htree, hcwd] at hfile
        exact ⟨r, file, output, rfl, mapError_eq_ok.mp hfile, houtput, htext⟩
      · cases h
  · cases h

/-! ## Unchanged files -/

/-- Whenever the program shows the file, it shows these octets. -/
def ServesExactly (w : World) (c : Config) (path : Path) (octets : List UInt8) : Prop :=
  ∀ r file output, repositoryOf w c = .ok r → w.tree.resolve w.cwd path = .ok file →
    r.Shows file output → output = octets

theorem readFormula_eq {w : World} {path : Path} {octets : List UInt8} {text : List Char}
    (hread : w.tree.read w.cwd path = .ok octets) (hdecode : Text.Utf8.decode octets = .ok text) :
    readFormula w path = .ok (normalizeLineEnds text) := by
  rw [readFormula, hread]
  dsimp only
  rw [hdecode]

theorem exists_versionFinding_iff {strict : Bool} {text : List Char} {path : Path}
    {problems : List String} :
    (∃ f ∈ ownFindings strict text path ++ problems.map (versionFinding path),
        IsVersionFinding f) ↔ problems ≠ [] := by
  constructor
  · rintro ⟨f, hmem, hf⟩ rfl
    rw [List.map_nil, List.append_nil] at hmem
    exact not_isVersionFinding_of_own f hmem hf
  · intro hne
    obtain ⟨message, hmessage⟩ := List.exists_mem_of_ne_nil problems hne
    exact ⟨versionFinding path message,
      List.mem_append_right _ (List.mem_map_of_mem hmessage), rfl⟩

/-- The line ends of a text matter: a carriage return stands alone in it, and the text with plain
line ends may not follow the text as it is. -/
def LineEndsMatter (text : List Char) : Prop :=
  HasLoneReturn text ∧
    ∃ current historical, Snapshot.ofText (normalizeLineEnds text) = .ok (some current) ∧
      Snapshot.ofText text = .ok (some historical) ∧
        Invariant.problems current (some historical) ≠ []

theorem lineEndsMatter_of_problems {text : List Char} {current historical : Snapshot}
    (hcurrent : Snapshot.ofText (normalizeLineEnds text) = .ok (some current))
    (hhistorical : Snapshot.ofText text = .ok (some historical))
    (hne : Invariant.problems current (some historical) ≠ []) : LineEndsMatter text := by
  refine ⟨?_, current, historical, hcurrent, hhistorical, hne⟩
  by_contra hlone
  rw [← Snapshot.ofText_plain (plain_normalizeLineEnds hlone), hhistorical] at hcurrent
  cases hcurrent
  exact hne (Invariant.problems_self _)

theorem unchanged_entry {w : World} {strict : Bool} {path : Path} {baseline : Baseline}
    {found : List Finding} {octets : List UInt8} (hread : w.tree.read w.cwd path = .ok octets)
    (hbaseline : ∀ old, baseline = .text old → old = Text.Utf8.decodeLenient octets)
    (hentry : entry w strict path baseline = .ok found) :
    (∃ f ∈ found, IsVersionFinding f) ↔
      ∃ text, Text.Utf8.decode octets = .ok text ∧ baseline = .text text ∧
        LineEndsMatter text := by
  cases hdecode : Text.Utf8.decode octets with
  | error fault =>
    have hunreadable : readFormula w path = .error fault.message := by
      rw [readFormula, hread]
      dsimp only
      rw [hdecode]
    rw [entry, hunreadable] at hentry
    cases hentry
    constructor
    · rintro ⟨f, hmem, hf⟩
      cases List.mem_singleton.mp hmem
      exact absurd hf (show unreadable ≠ Rule.versionInvariant.id by decide)
    · rintro ⟨text, htext, -⟩
      cases htext
  | ok text =>
    rw [entry, readFormula_eq hread hdecode] at hentry
    obtain ⟨problems, hproblems, rfl⟩ := map_eq_ok.mp hentry
    rw [exists_versionFinding_iff, versionProblems_ne_nil_iff hproblems]
    constructor
    · rintro ⟨old, current, historical, hold, hcurrent, hhistorical, hne⟩
      have htext : old = text :=
        (hbaseline old hold).trans (Text.Utf8.decodeLenient_of_decode hdecode)
      subst htext
      exact ⟨old, rfl, hold, lineEndsMatter_of_problems hcurrent hhistorical hne⟩
    · rintro ⟨_, htext, hold, -, current, historical, hcurrent, hhistorical, hne⟩
      cases htext
      exact ⟨text, current, historical, hold, hcurrent, hhistorical, hne⟩

/--
**An unchanged file has version findings only through lone carriage returns.** If nothing but its
own octets is committed for a file, it has a version finding exactly if the committed text was had
and its line ends matter, for which a carriage return has to stand alone.
-/
theorem unchanged_file {w : World} {c : Config} {paths : List Path} {front back : Report}
    {path : Path} {found : List Finding} {octets : List UInt8}
    (hreport : audit w c paths = .ok (front ++ (path, found) :: back))
    (hread : w.tree.read w.cwd path = .ok octets) (hserves : ServesExactly w c path octets) :
    (¬ HasLoneReturn (Text.Utf8.decodeLenient octets) → ∀ f ∈ found, ¬ IsVersionFinding f) ∧
      ((∃ f ∈ found, IsVersionFinding f) ↔
        ∃ text, Text.Utf8.decode octets = .ok text ∧
          served w c (front.map Prod.fst) path = .text text ∧ LineEndsMatter text) := by
  have hbaseline : ∀ old, served w c (front.map Prod.fst) path = .text old →
      old = Text.Utf8.decodeLenient octets := by
    intro old hold
    obtain ⟨r, file, output, hr, hfile, hshows, rfl⟩ := served_shown hold
    rw [hserves r file output hr hfile hshows]
  have hiff := unchanged_entry hread hbaseline
    ((audit_eq_ok_iff.mp hreport).2.2 front path found back rfl)
  refine ⟨fun hlone f hmem hf => ?_, hiff⟩
  obtain ⟨text, hdecode, -, hmatter⟩ := hiff.mp ⟨f, hmem, hf⟩
  exact hlone (Text.Utf8.decodeLenient_of_decode hdecode ▸ hmatter.1)

/-- A tree of one file, whose octets are the output of every call. -/
def single (text : String) : World where
  tree := { files := [(["foo.rb".toList], text.toUTF8.data.toList)] }
  cwd := []
  git _ _ := .exited 0 text.toUTF8.data.toList []

theorem servesExactly_single (text : String) (c : Config) (path : Path) :
    ServesExactly (single text) c path text.toUTF8.data.toList := by
  rintro r file output hr - ⟨calls, root, names, errors, -, -, hcall⟩
  have hanswer := History.Repository.answer_of_ending hcall
  rw [(repositoryOf_eq_ok hr).1] at hanswer
  cases hanswer
  rfl

/-- A formula whose lines end in carriage returns is one line when it was committed, and declares
its version scheme only at present. -/
theorem unchanged_file_lone_returns :
    ∃ text, Text.Utf8.decode
        "class Foo < Formula\r  version_scheme 2\rend\r\n".toUTF8.data.toList = .ok text ∧
      served (single "class Foo < Formula\r  version_scheme 2\rend\r\n")
        { repository := some (Path.ofText "/".toList) } [] (Path.ofText "foo.rb".toList) =
          .text text ∧ LineEndsMatter text := by
  have hreport : audit (single "class Foo < Formula\r  version_scheme 2\rend\r\n")
      { repository := some (Path.ofText "/".toList) } [Path.ofText "foo.rb".toList] =
        .ok ([] ++ (Path.ofText "foo.rb".toList, [versionFinding (Path.ofText "foo.rb".toList)
          "version_schemes should only increment by 1"]) :: []) := by decide +kernel
  exact (unchanged_file hreport (by decide +kernel) (servesExactly_single _ _ _)).2.mp
    ⟨_, List.mem_singleton_self _, rfl⟩

end Audit

end TapAudit
