import Mathlib.Data.List.Forall2
import TapAudit.CommandLine.Program
import TapAudit.Proofs.Audit.Robustness
import TapAudit.Proofs.Report.Json
import TapAudit.Proofs.Report.Tally

/-!
# The document of an audit

With JSON output an audit prints one document. It has an entry for each file, with its findings in
order, and its numbers are those of the findings. An audit without files prints nothing at all.

- `describes_ofReport`: the document of a report says what the report says.
- `runAudit_document`: **an audit with JSON output prints a document that describes its report, if
  it has files.**
-/

namespace TapAudit.Report

open Audit (Report)

/-! ## What a document says -/

/-- An object in which no two members have one name, with a member of this name and value. -/
def Json.HasMember (document : Json) (name : String) (value : Json) : Prop :=
  ∃ members, document = .object members ∧ (members.map Prod.fst).Nodup ∧
    (name.toList, value) ∈ members

/-- An item that describes a finding. -/
structure DescribesFinding (item : Json) (f : Finding) : Prop where
  level : item.HasMember "level" (.string f.level.label.toList)
  rule : item.HasMember "rule" (.string f.rule.toList)
  message : item.HasMember "message" (.string f.message.toList)
  line : item.HasMember "line" (f.line.elim .null .number)

/-- An entry with the path of a file and its findings in order. -/
def DescribesFile (entry : List Char × Json) (audited : Path × List Finding) : Prop :=
  entry.1 = audited.1.toText ∧
    ∃ items, entry.2 = .array items ∧ List.Forall₂ DescribesFinding items audited.2

/-- A summary with the exact numbers of a report. -/
structure DescribesNumbers (summary : Json) (report : Report) : Prop where
  formulae : summary.HasMember "formulae" (.number report.length)
  errors : summary.HasMember "errors" (.number (countOf report .error))
  warnings : summary.HasMember "warnings" (.number (countOf report .warning))
  info : summary.HasMember "info" (.number (countOf report .info))
  byRule : ∃ counts : List (String × Nat),
    summary.HasMember "by_rule" (.object (counts.map fun (rule, n) => (rule.toList, .number n))) ∧
      IsTally counts ((findings report).map Finding.rule) ∧
      countOf report .error + countOf report .warning + countOf report .info =
        (counts.map Prod.snd).sum

/-- A document with the mode of an audit, an entry for each file, in order and under a name of its
own, and the numbers. -/
structure Describes (document : Json) (strict : Bool) (report : Report) : Prop where
  strict : document.HasMember "strict" (.boolean strict)
  files : ∃ entries, document.HasMember "files" (.object entries) ∧
    (entries.map Prod.fst).Nodup ∧ List.Forall₂ DescribesFile entries report
  summary : ∃ summary, document.HasMember "summary" summary ∧ DescribesNumbers summary report

/-! ## The document of a report -/

theorem describes_ofFinding (f : Finding) : DescribesFinding (Json.ofFinding f) f := by
  have hnames : ["level".toList, "rule".toList, "message".toList, "line".toList].Nodup := by
    decide
  refine ⟨⟨_, rfl, hnames, ?_⟩, ⟨_, rfl, hnames, ?_⟩, ⟨_, rfl, hnames, ?_⟩, ⟨_, rfl, hnames, ?_⟩⟩
  · simp
  · simp
  · simp
  · cases f.line <;> simp

theorem describes_ofTally (report : Report) :
    DescribesNumbers (Json.ofTally report) report := by
  have hnames : ["formulae".toList, "errors".toList, "warnings".toList, "info".toList,
      "by_rule".toList].Nodup := by decide
  have htally := isTally_byRule report
  have hsum : countOf report .error + countOf report .warning + countOf report .info =
      ((byRule report).map Prod.snd).sum := by
    rw [countOf_add, htally.sum_eq, List.length_map]
  refine ⟨⟨_, rfl, hnames, ?_⟩, ⟨_, rfl, hnames, ?_⟩, ⟨_, rfl, hnames, ?_⟩, ⟨_, rfl, hnames, ?_⟩,
    byRule report, ⟨_, rfl, hnames, ?_⟩, htally, hsum⟩
  all_goals simp

theorem describes_entries (report : Report) :
    List.Forall₂ DescribesFile
      (report.map fun (path, found) => (path.toText, Json.array (found.map Json.ofFinding)))
      report := by
  refine List.forall₂_map_left_iff.mpr (List.forall₂_same.mpr fun audited _ => ⟨rfl, _, rfl, ?_⟩)
  exact List.forall₂_map_left_iff.mpr (List.forall₂_same.mpr fun f _ => describes_ofFinding f)

theorem describes_ofReport (strict : Bool) {report : Report}
    (hnodup : ((report.map Prod.fst).map Path.toText).Nodup) :
    Describes (Json.ofReport strict report) strict report := by
  have hnames : ["strict".toList, "files".toList, "summary".toList].Nodup := by decide
  have hpaths : ((report.map fun (path, found) =>
      (path.toText, Json.array (found.map Json.ofFinding))).map Prod.fst).Nodup := by
    rw [List.map_map] at hnodup ⊢
    exact hnodup
  constructor
  · exact ⟨_, rfl, hnames, List.mem_cons_self⟩
  · refine ⟨_, ⟨_, rfl, hnames, ?_⟩, hpaths, describes_entries report⟩
    exact List.mem_cons_of_mem _ List.mem_cons_self
  · refine ⟨_, ⟨_, rfl, hnames, ?_⟩, describes_ofTally report⟩
    exact List.mem_cons_of_mem _ (List.mem_cons_of_mem _ List.mem_cons_self)

/-! ## What is printed -/

open CommandLine (Ending)

theorem runAudit_eq_ok_iff {w : World} {c : Config} {failOn : FailOn} {paths : List Path}
    {ending : Ending} :
    CommandLine.runAudit w c failOn true paths = .ok ending ↔
      ∃ report, Audit.audit w c paths = .ok report ∧
        ending =
          if report = [] then { exitCode := 0, report := [noFiles.toList] }
          else
            { exitCode := exitCode report failOn
              output := (Json.ofReport c.strict report).toText } := by
  unfold CommandLine.runAudit
  rw [bind_eq_ok]
  refine exists_congr fun report => and_congr mapError_eq_ok ?_
  cases report with
  | nil => exact ⟨fun h => (Except.ok.inj h).symm, fun h => congrArg Except.ok h.symm⟩
  | cons audited rest =>
    exact ⟨fun h => (Except.ok.inj h).symm, fun h => congrArg Except.ok h.symm⟩

/--
**An audit with JSON output prints a document that describes its report, if it has files.** It ends
well whenever there is a report, with an entry for each file that is collected. If there is any,
what is printed is one document and nothing else, which tells the findings of each file under its
own name and their exact numbers. If there is none, nothing is printed.
-/
theorem runAudit_document {w : World} (htree : Audit.HasNames w.tree) (c : Config) (failOn : FailOn)
    (words : List (List Char)) :
    ((∃ ending, CommandLine.runAudit w c failOn true (words.map Path.ofText) = .ok ending) ↔
      ∃ report, Audit.audit w c (words.map Path.ofText) = .ok report) ∧
    ∀ ending, CommandLine.runAudit w c failOn true (words.map Path.ofText) = .ok ending →
      ∃ report, Audit.audit w c (words.map Path.ofText) = .ok report ∧
        Audit.collect w c (words.map Path.ofText) = .ok (report.map Prod.fst) ∧
        (report ≠ [] →
          ∃ document, Json.read? ending.output = some document ∧
            Describes document c.strict report) ∧
        (report = [] → ending.output = [] ∧ Json.read? ending.output = none) := by
  constructor
  · constructor
    · rintro ⟨ending, h⟩
      obtain ⟨report, hreport, -⟩ := runAudit_eq_ok_iff.mp h
      exact ⟨report, hreport⟩
    · rintro ⟨report, hreport⟩
      exact ⟨_, runAudit_eq_ok_iff.mpr ⟨report, hreport, rfl⟩⟩
  · intro ending h
    obtain ⟨report, hreport, rfl⟩ := runAudit_eq_ok_iff.mp h
    obtain ⟨-, hcollect, -⟩ := Audit.audit_eq_ok_iff.mp hreport
    refine ⟨report, hreport, hcollect, fun hfiles => ?_, fun hnone => ?_⟩
    · rw [if_neg hfiles]
      refine ⟨_, Json.read?_toText _, describes_ofReport c.strict ?_⟩
      exact Audit.collect_texts_nodup htree hcollect
    · rw [if_pos hnone]
      exact ⟨rfl, rfl⟩

/-- A directory with a formula that does not end its last line, and an empty one. -/
def sample : World where
  tree :=
    { files := [(["tap".toList, "a.rb".toList], "class A < Formula\nend".toUTF8.data.toList)]
      directories := [["none".toList]] }
  cwd := []
  git _ _ := .timedOut

/-- The error of the formula is counted; where there is no formula, there is no document. -/
theorem runAudit_document_sample :
    (∃ ending document summary,
        CommandLine.runAudit sample {} .error true [Path.ofText "tap".toList] = .ok ending ∧
          Json.read? ending.output = some document ∧
          document.HasMember "summary" summary ∧ summary.HasMember "errors" (.number 1)) ∧
      ∃ ending,
        CommandLine.runAudit sample {} .error true [Path.ofText "none".toList] = .ok ending ∧
          ending.output = [] := by
  have htree : Audit.HasNames sample.tree := by
    unfold Audit.HasNames sample Path.IsName
    decide
  constructor
  · have hreport : Audit.audit sample {} [Path.ofText "tap".toList] =
        .ok [(Path.ofText "tap/a.rb".toList,
          [{ level := .error, rule := "trailing-newline", file := Path.ofText "tap/a.rb".toList,
             message := "File should end with a newline" }])] := by decide +kernel
    obtain ⟨hends, hdocument⟩ := runAudit_document htree {} .error ["tap".toList]
    obtain ⟨ending, hending⟩ := hends.mpr ⟨_, hreport⟩
    obtain ⟨report, hsame, -, hfiles, -⟩ := hdocument ending hending
    cases hreport.symm.trans hsame
    obtain ⟨document, hread, hdescribes⟩ := hfiles (List.cons_ne_nil _ _)
    obtain ⟨summary, hsummary, hnumbers⟩ := hdescribes.summary
    exact ⟨ending, document, summary, hending, hread, hsummary, hnumbers.errors⟩
  · have hreport : Audit.audit sample {} [Path.ofText "none".toList] = .ok [] := by
      decide +kernel
    obtain ⟨hends, hdocument⟩ := runAudit_document htree {} .error ["none".toList]
    obtain ⟨ending, hending⟩ := hends.mpr ⟨_, hreport⟩
    obtain ⟨report, hsame, -, -, hnone⟩ := hdocument ending hending
    cases hreport.symm.trans hsame
    exact ⟨ending, hending, (hnone rfl).1⟩

end TapAudit.Report
