import TapAudit.CommandLine.Program
import TapAudit.Proofs.Audit.Robustness
import TapAudit.Proofs.Audit.Strictness

/-!
# The exit code of an audit

How an audit is shown and which code it ends with are two things (`runAudit_eq`): what is shown
depends on the format and not on the level from which on findings make it fail, and the code depends
on that level and not on the format. Without strict mode nothing but errors is reported, so that the
level makes no difference either.

- `exitCode_eq`: the code says whether a report has a finding of one of the failing levels.
- `level_of_mem_findings`: without strict mode all findings of a report are errors.
- `runAudit_exitCode`: **the exit code is decided by the findings.**
-/

namespace TapAudit.Report

open Audit (Report)
open CommandLine (Ending runAudit)

/-! ## The code of a report -/

/-- A report at which an audit fails. -/
def Fails (report : Report) (failOn : FailOn) : Prop :=
  (∃ f ∈ findings report, f.level = .error) ∨
    (failOn = .warning ∧ ∃ f ∈ findings report, f.level = .warning)

instance (report : Report) (failOn : FailOn) : Decidable (Fails report failOn) :=
  inferInstanceAs (Decidable (_ ∨ _))

theorem countOf_pos_iff (report : Report) (level : Level) :
    0 < countOf report level ↔ ∃ f ∈ findings report, f.level = level := by
  rw [countOf, List.countP_pos_iff]
  simp only [beq_iff_eq]

theorem fails_iff (report : Report) (failOn : FailOn) :
    Fails report failOn ↔
      0 < countOf report .error ∨ (failOn = .warning ∧ 0 < countOf report .warning) := by
  rw [Fails, countOf_pos_iff, countOf_pos_iff]

theorem exitCode_eq (report : Report) (failOn : FailOn) :
    exitCode report failOn = if Fails report failOn then 1 else 0 := by
  simp only [fails_iff]
  cases failOn <;> simp [exitCode]

/-! ## The findings without strict mode -/

theorem level_of_mem_entry {w : World} {path : Path} {baseline : History.Baseline}
    {found : List Finding} (h : Audit.entry w false path baseline = .ok found) :
    ∀ f ∈ found, f.level = .error := by
  intro f hf
  unfold Audit.entry at h
  split at h
  · cases h
    rw [List.mem_singleton.mp hf]
    rfl
  · next text _ =>
    obtain ⟨problems, -, rfl⟩ := map_eq_ok.mp h
    have hfile : ((Audit.alone false text path).withStrict false).findings () .file =
        .ok ((Audit.alone false text path).fileFindings, ()) := rfl
    have hclass : ((Audit.alone false text path).withStrict false).findings () .classBody =
        .ok ((Audit.alone false text path).classFindings, ()) := rfl
    rcases List.mem_append.mp hf with hf | hf
    · rcases List.mem_append.mp hf with hf | hf
      · exact Auditor.level_of_mem_findings hfile hf
      · exact Auditor.level_of_mem_findings hclass hf
    · obtain ⟨message, -, rfl⟩ := List.mem_map.mp hf
      rfl

theorem level_of_mem_findings {w : World} {c : Config} {paths : List Path} {report : Report}
    (hstrict : c.strict = false) (h : Audit.audit w c paths = .ok report) :
    ∀ f ∈ findings report, f.level = .error := by
  obtain ⟨-, -, hentries⟩ := Audit.audit_eq_ok_iff.mp h
  intro f hf
  obtain ⟨⟨path, found⟩, hmem, hf⟩ := List.mem_flatMap.mp hf
  obtain ⟨front, back, heq⟩ := List.append_of_mem hmem
  have hentry := hentries front path found back heq
  rw [hstrict] at hentry
  exact level_of_mem_entry hentry f hf

theorem exitCode_of_lenient {w : World} {c : Config} {paths : List Path} {report : Report}
    (hstrict : c.strict = false) (h : Audit.audit w c paths = .ok report) (failOn : FailOn) :
    exitCode report failOn = exitCode report .error := by
  have hnone : ¬ ∃ f ∈ findings report, f.level = .warning := by
    rintro ⟨f, hf, hwarning⟩
    rw [level_of_mem_findings hstrict h f hf] at hwarning
    cases hwarning
  simp [exitCode_eq, Fails, hnone]

/-! ## What is shown -/

/-- What is shown of a report; the exit code is left open. -/
def shown (strict asJson : Bool) (report : Report) : Except CommandLine.Fault Ending :=
  if report.isEmpty then .ok { exitCode := 0, report := [noFiles.toList] }
  else if asJson then .ok { exitCode := 0, output := (Json.ofReport strict report).toText }
  else
    ((summaryLines strict report).mapError .markup).map fun lines =>
      { exitCode := 0, report := lines }

/-- A run shows its report, in a way that is independent of the code it ends with. -/
theorem runAudit_eq (w : World) (c : Config) (failOn : FailOn) (asJson : Bool)
    (paths : List Path) :
    runAudit w c failOn asJson paths =
      ((Audit.audit w c paths).mapError .audit).bind fun report =>
        (shown c.strict asJson report).map fun ending =>
          { ending with exitCode := exitCode report failOn } := by
  unfold runAudit shown
  refine congrArg (Except.bind _) (funext fun report => ?_)
  cases report with
  | nil => cases failOn <;> rfl
  | cons audited rest =>
    cases asJson with
    | true => rfl
    | false => cases summaryLines c.strict (audited :: rest) <;> rfl

theorem exists_report_of_runAudit {w : World} {c : Config} {failOn : FailOn} {asJson : Bool}
    {paths : List Path} {ending : Ending} (h : runAudit w c failOn asJson paths = .ok ending) :
    ∃ report, Audit.audit w c paths = .ok report ∧ ending.exitCode = exitCode report failOn := by
  rw [runAudit_eq] at h
  obtain ⟨report, hreport, h⟩ := bind_eq_ok.mp h
  obtain ⟨_, -, rfl⟩ := map_eq_ok.mp h
  exact ⟨report, mapError_eq_ok.mp hreport, rfl⟩

/-! ## Main result -/

/--
**The exit code is decided by the findings.** A run that ends well ends with 1 if its report has an
error, or a warning where warnings make it fail, and else with 0. Both formats end with one code,
and without strict mode a run is the same whether or not warnings make it fail.
-/
theorem runAudit_exitCode (w : World) (c : Config) (paths : List Path) :
    (∀ failOn asJson ending, runAudit w c failOn asJson paths = .ok ending →
      ∃ report, Audit.audit w c paths = .ok report ∧
        ending.exitCode = if Fails report failOn then 1 else 0) ∧
    (∀ failOn document summary, runAudit w c failOn true paths = .ok document →
      runAudit w c failOn false paths = .ok summary → document.exitCode = summary.exitCode) ∧
    (c.strict = false → ∀ asJson,
      runAudit w c .warning asJson paths = runAudit w c .error asJson paths) := by
  refine ⟨fun failOn asJson ending h => ?_, fun failOn document summary hdocument hsummary => ?_,
    fun hstrict asJson => ?_⟩
  · obtain ⟨report, hreport, hcode⟩ := exists_report_of_runAudit h
    exact ⟨report, hreport, hcode.trans (exitCode_eq report failOn)⟩
  · obtain ⟨report, hreport, hcode⟩ := exists_report_of_runAudit hdocument
    obtain ⟨report', hreport', hcode'⟩ := exists_report_of_runAudit hsummary
    cases hreport.symm.trans hreport'
    rw [hcode, hcode']
  · rw [runAudit_eq, runAudit_eq]
    cases hreport : Audit.audit w c paths with
    | error fault => rfl
    | ok report =>
      refine congrArg (fun code => (shown c.strict asJson report).map fun ending =>
        { ending with exitCode := code }) ?_
      exact exitCode_of_lenient hstrict hreport .warning

/-- A formula to which nothing is missing but a test. -/
def untested : World where
  tree :=
    { files := [(["a.rb".toList],
        "class A < Formula\n  desc \"Tool\"\nend\n".toUTF8.data.toList)] }
  cwd := []
  git _ _ := .timedOut

/-- The missing test makes a strict audit fail in both formats if warnings do so, and only then. -/
theorem runAudit_exitCode_untested :
    (∃ document summary,
        runAudit untested { strict := true } .warning true [Path.ofText "a.rb".toList] =
          .ok document ∧
        runAudit untested { strict := true } .warning false [Path.ofText "a.rb".toList] =
          .ok summary ∧
        document.exitCode = summary.exitCode ∧ summary.exitCode = 1) ∧
      (∃ summary,
        runAudit untested { strict := true } .error false [Path.ofText "a.rb".toList] =
          .ok summary ∧
        summary.exitCode = 0) ∧
      runAudit untested {} .warning false [Path.ofText "a.rb".toList] =
        runAudit untested {} .error false [Path.ofText "a.rb".toList] := by
  have hreport : Audit.audit untested { strict := true } [Path.ofText "a.rb".toList] =
      .ok [(Path.ofText "a.rb".toList,
        [{ level := .warning, rule := "missing-test", file := Path.ofText "a.rb".toList,
           message := "A \x60test do\x60 test block should be added" }])] := by decide +kernel
  have hends : ∀ failOn asJson, ∃ ending,
      runAudit untested { strict := true } failOn asJson [Path.ofText "a.rb".toList] =
        .ok ending := by
    intro failOn asJson
    have hok : (runAudit untested { strict := true } failOn asJson
        [Path.ofText "a.rb".toList]).isOk := by
      cases failOn <;> cases asJson <;> decide +kernel
    cases hrun : runAudit untested { strict := true } failOn asJson
        [Path.ofText "a.rb".toList] with
    | ok ending => exact ⟨ending, rfl⟩
    | error fault =>
      rw [hrun] at hok
      cases hok
  obtain ⟨hcode, hformat, -⟩ :=
    runAudit_exitCode untested { strict := true } [Path.ofText "a.rb".toList]
  obtain ⟨-, -, hlenient⟩ := runAudit_exitCode untested {} [Path.ofText "a.rb".toList]
  refine ⟨?_, ?_, hlenient rfl false⟩
  · obtain ⟨document, hdocument⟩ := hends .warning true
    obtain ⟨summary, hsummary⟩ := hends .warning false
    obtain ⟨report, hsame, hone⟩ := hcode _ _ _ hsummary
    cases hreport.symm.trans hsame
    exact ⟨document, summary, hdocument, hsummary, hformat _ _ _ hdocument hsummary, hone⟩
  · obtain ⟨summary, hsummary⟩ := hends .error false
    obtain ⟨report, hsame, hzero⟩ := hcode _ _ _ hsummary
    cases hreport.symm.trans hsame
    exact ⟨summary, hsummary, hzero⟩

end TapAudit.Report
