import TapAudit.Auditor
import TapAudit.Proofs.Script.EndMarker

/-!
# Findings on inline data

A script that has inline data should use it. Whether it does is looked for in the whole file, so a
patch in which the word `DATA` stands counts as a use of itself.

- `Rule.id_injective`: a finding tells of which rule it is.
- `rule_of_mem_structureFindings`: what strict mode adds to a file is of the strict rules.
- `dataFindings_eq`: what a check of the file finds of its inline data.
- `usesData_patched`: a patch counts like the script in front of it.
- `patchFindings_eq`: what is found of a script with a patch.
- `patchFindings_eq_iff`: **two patches of a script are told apart if only one of them uses data.**
-/

namespace TapAudit

open History (Source)
open Script (usesData hasEndLine endMarker)
open Text

/-! ## Rules -/

theorem Rule.ofId?_id (rule : Rule) : ofId? rule.id = some rule := by
  cases rule <;> decide

theorem Rule.id_injective : Function.Injective Rule.id := by
  intro rule other h
  have hrule := ofId?_id rule
  rw [h, ofId?_id other] at hrule
  exact (Option.some.inj hrule).symm

namespace Auditor

variable {σ : Type}

theorem rule_of_mem_structureFindings {a : Auditor σ} {f : Finding}
    (h : f ∈ a.structureFindings) : ∃ rule : Rule, rule.isStrict = true ∧ f.rule = rule.id := by
  rw [structureFindings] at h
  rcases List.mem_append.mp h with h | h
  · rcases List.mem_append.mp h with h | h
    · obtain ⟨violation, -, rfl⟩ := List.mem_map.mp h
      exact ⟨.componentOrder, rfl, rfl⟩
    · obtain ⟨message, -, rfl⟩ := List.mem_map.mp h
      exact ⟨.stableContainment, rfl, rfl⟩
  · obtain ⟨message, -, rfl⟩ := List.mem_map.mp h
    exact ⟨.mutualExclusion, rfl, rfl⟩

/-- The findings of one rule. -/
def ofRule (rule : Rule) (found : List Finding) : List Finding :=
  found.filter fun f => f.rule == rule.id

theorem ofRule_append (rule : Rule) (found others : List Finding) :
    ofRule rule (found ++ others) = ofRule rule found ++ ofRule rule others :=
  List.filter_append ..

theorem ofRule_structureFindings (a : Auditor σ) {rule : Rule} (h : rule.isStrict = false) :
    ofRule rule a.structureFindings = [] := by
  refine List.filter_eq_nil_iff.mpr fun f hf => ?_
  obtain ⟨strictRule, hstrict, hrule⟩ := rule_of_mem_structureFindings hf
  rw [beq_iff_eq, hrule]
  intro heq
  rw [Rule.id_injective heq, h] at hstrict
  cases hstrict

/-! ## One file -/

/-- What a check of the file finds of its inline data. -/
def dataFindings (a : Auditor σ) (state : σ) : Except Snapshot.Fault (List Finding) :=
  (a.run { source := state } .file).map fun p => ofRule .dataEnd p.results

/-- The finding on inline data that nothing uses. -/
def unusedData (path : Path) : Finding :=
  { level := .error, rule := Rule.dataEnd.id, file := path
    message := "'__END__' was found, but 'DATA' is not used" }

/-- The finding on a use of inline data that is not there. -/
def missingData (path : Path) : Finding :=
  { level := .error, rule := Rule.dataEnd.id, file := path
    message := "'DATA' was found, but no '__END__'" }

theorem dataFindings_eq (a : Auditor σ) (state : σ) :
    a.dataFindings state =
      .ok (match usesData a.formula.text, hasEndLine a.formula.text with
        | true, false => [missingData a.formula.path]
        | false, true => [unusedData a.formula.path]
        | _, _ => []) := by
  have hstructure : ofRule .dataEnd (if a.strict then a.structureFindings else []) = [] := by
    split
    · exact ofRule_structureFindings a rfl
    · rfl
  change Except.ok (ofRule .dataEnd a.fileFindings) = _
  rw [fileFindings, ofRule_append, hstructure, List.append_nil, textFindings, ofRule_append,
    ofRule_append]
  cases Script.endsWithLineFeed a.formula.text <;> cases usesData a.formula.text <;>
    cases hasEndLine a.formula.text <;> rfl

end Auditor

/-! ## A script and its patch -/

namespace Script

/-- A script with a patch as its inline data. -/
def patched (script patch : List Char) : List Char :=
  script ++ '\n' :: (endMarker ++ '\n' :: patch)

theorem hasEndLine_patched (script patch : List Char) :
    hasEndLine (patched script patch) = true := by
  rw [hasEndLine_iff, patched, lines, splitOn_append_sep,
    splitOn_append_cons feed_not_mem_endMarker]
  exact List.mem_append_right _ List.mem_cons_self

theorem usesData_patched (script patch : List Char) :
    usesData (patched script patch) = (usesData script || usesData patch) := by
  have hmarker : usesData endMarker = false := by decide
  rw [patched, usesData_append, usesData_append, hmarker, Bool.false_or]

end Script

namespace Auditor

variable {σ : Type}

/-- What a check of a script with a patch finds of its inline data. -/
def patchFindings (source : Source σ) (state : σ) (strict : Bool) (path : Path)
    (script patch : List Char) : Except Snapshot.Fault (List Finding) :=
  dataFindings { formula := Formula.ofText (Script.patched script patch) path, strict, source }
    state

/-- A patch is found unused if neither the script nor the patch itself uses data. -/
theorem patchFindings_eq (source : Source σ) (state : σ) (strict : Bool) (path : Path)
    (script patch : List Char) :
    patchFindings source state strict path script patch =
      .ok (if usesData script || usesData patch then [] else [unusedData path]) := by
  have hends := Script.hasEndLine_patched script patch
  have huses := Script.usesData_patched script patch
  rw [patchFindings, dataFindings_eq]
  dsimp only [Formula.ofText]
  rw [hends, huses]
  cases usesData script || usesData patch <;> rfl

/--
**Two patches of a script are told apart if only one of them uses data.** What is found depends on
the script alone exactly if the script uses data or both patches stand to the word `DATA` alike, and
the inline data is found unused if neither the script nor the patch itself uses it.
-/
theorem patchFindings_eq_iff (source : Source σ) (state : σ) (strict : Bool) (path : Path)
    (script p q : List Char) :
    (patchFindings source state strict path script p =
        patchFindings source state strict path script q ↔
      usesData script = true ∨ usesData p = usesData q) ∧
    patchFindings source state strict path script p =
      .ok (if usesData script || usesData p then [] else [unusedData path]) := by
  refine ⟨?_, patchFindings_eq ..⟩
  rw [patchFindings_eq, patchFindings_eq]
  cases usesData script with
  | true => simp
  | false => cases usesData p <;> cases usesData q <;> simp

/-- A script without any use of inline data. That the inline data is unused is found as long as the
word `DATA` does not stand in the patch. -/
theorem patchFindings_samples :
    let script := "class Foo < Formula\nend".toList
    let found := patchFindings (Source.failing []) () false (Path.ofText "foo.rb".toList) script
    let patch := "+#define SIZE 1\n".toList
    let other := "+static int DATA;\n".toList
    (hasEndLine script = false ∧ hasEndLine patch = false ∧ hasEndLine other = false) ∧
      found patch ≠ found other ∧
        found patch = .ok [unusedData (Path.ofText "foo.rb".toList)] ∧ found other = .ok [] := by
  intro script found patch other
  refine ⟨by decide +kernel, ?_, ?_, ?_⟩
  · exact (patchFindings_eq_iff _ _ _ _ script patch other).1.not.mpr (by decide +kernel)
  · exact (patchFindings_eq_iff _ _ _ _ script patch other).2.trans (by decide +kernel)
  · exact (patchFindings_eq_iff _ _ _ _ script other patch).2.trans (by decide +kernel)

end Auditor

end TapAudit
