import TapAudit.Proofs.Audit.InlineData
import TapAudit.Proofs.Except

/-!
# What strict mode adds

Two audits of one formula, one of them strict, are run side by side through the same checks. They
ask their source the same questions, so they stay in step (`findings_lenient`): what the strict
audit finds beyond the other one is of the rules that are marked as strict, wherever in a check it
stands.

- `level_of_mem_findings`: without strict mode nothing but errors is found.
- `runAll_lenient`: **the run of the other audit is the strict run without its strict findings.**
- `runAll_eq`: with a source that keeps no state every check appends what it appends first.
- `strict_adds`: all of this for any sequence of checks.
-/

namespace TapAudit

open History (Source)

/-- The identifiers of the rules that are applied in strict mode only. -/
def strictIds : List String :=
  ["component-order", "stable-containment", "mutual-exclusion", "missing-test"]

theorem Rule.isStrict_iff (rule : Rule) : rule.isStrict = true ↔ rule.id ∈ strictIds := by
  cases rule <;> decide

/-- The findings of the rules that are always applied. -/
def lenient (found : List Finding) : List Finding :=
  found.filter (·.rule ∉ strictIds)

theorem lenient_append (found others : List Finding) :
    lenient (found ++ others) = lenient found ++ lenient others :=
  List.filter_append ..

theorem lenient_eq_nil {found : List Finding}
    (h : ∀ f ∈ found, ∃ rule : Rule, rule.isStrict = true ∧ f.rule = rule.id) :
    lenient found = [] := by
  apply List.filter_eq_nil_iff.mpr
  intro f hf
  obtain ⟨rule, hstrict, hrule⟩ := h f hf
  have hmem := rule.isStrict_iff.mp hstrict
  simp [hrule, hmem]

theorem lenient_eq_self {found : List Finding}
    (h : ∀ f ∈ found, ∃ rule : Rule, rule.isStrict = false ∧ f.rule = rule.id) :
    lenient found = found := by
  apply List.filter_eq_self.mpr
  intro f hf
  obtain ⟨rule, hlax, hrule⟩ := h f hf
  have hmem : rule.id ∉ strictIds := by
    rw [← rule.isStrict_iff, hlax]
    exact Bool.false_ne_true
  simp [hrule, hmem]

namespace Auditor

variable {σ : Type}

/-- The same audit with or without strict mode. -/
def withStrict (a : Auditor σ) (strict : Bool) : Auditor σ :=
  { a with strict }

/-! ## One check -/

theorem of_mem_textFindings {a : Auditor σ} {f : Finding} (h : f ∈ a.textFindings) :
    f.level = .error ∧ ∃ rule : Rule, rule.isStrict = false ∧ f.rule = rule.id := by
  unfold textFindings at h
  simp only [List.mem_append] at h
  rcases h with (h | h) | h
  · split at h
    · cases h
    · rw [List.mem_singleton.mp h]
      exact ⟨rfl, .trailingNewline, rfl, rfl⟩
  · split at h
    · rw [List.mem_singleton.mp h]
      exact ⟨rfl, .dataEnd, rfl, rfl⟩
    · cases h
  · split at h
    · rw [List.mem_singleton.mp h]
      exact ⟨rfl, .dataEnd, rfl, rfl⟩
    · cases h

theorem of_mem_historyFindings {a : Auditor σ} {state next : σ} {found : List Finding}
    (h : a.historyFindings state = .ok (found, next)) {f : Finding} (hf : f ∈ found) :
    f.level = .error ∧ ∃ rule : Rule, rule.isStrict = false ∧ f.rule = rule.id := by
  unfold historyFindings at h
  obtain ⟨current, -, h⟩ := bind_eq_ok.mp h
  cases current with
  | none =>
    cases h
    cases hf
  | some current =>
    obtain ⟨historical, -, h⟩ := bind_eq_ok.mp h
    obtain ⟨problems, -, h⟩ := bind_eq_ok.mp h
    cases h
    obtain ⟨message, -, rfl⟩ := List.mem_map.mp hf
    exact ⟨rfl, .versionInvariant, rfl, rfl⟩

theorem lenient_fileFindings (a : Auditor σ) :
    lenient (a.withStrict true).fileFindings = (a.withStrict false).fileFindings := by
  have htext : lenient a.textFindings = a.textFindings :=
    lenient_eq_self fun f hf => (of_mem_textFindings hf).2
  have hstructure : lenient a.structureFindings = [] :=
    lenient_eq_nil fun f hf => rule_of_mem_structureFindings hf
  show lenient (a.textFindings ++ a.structureFindings) = a.textFindings ++ []
  rw [lenient_append, htext, hstructure]

theorem lenient_classFindings (a : Auditor σ) :
    lenient (a.withStrict true).classFindings = (a.withStrict false).classFindings := by
  apply lenient_eq_nil
  intro f hf
  obtain ⟨message, -, rfl⟩ := List.mem_map.mp hf
  exact ⟨.missingTest, rfl, rfl⟩

theorem lenient_historyFindings (a : Auditor σ) (state : σ) :
    ((a.withStrict true).historyFindings state).map (fun r => (lenient r.1, r.2)) =
      (a.withStrict false).historyFindings state := by
  show (a.historyFindings state).map _ = a.historyFindings state
  cases h : a.historyFindings state with
  | error fault => rfl
  | ok r =>
    have hself : lenient r.1 = r.1 :=
      lenient_eq_self fun f hf => (of_mem_historyFindings h hf).2
    simp only [Except.map, hself]

/-- A check without strict mode finds what the strict one finds, less its strict findings, and
leaves the source in the same state. -/
theorem findings_lenient (a : Auditor σ) (state : σ) (check : Check) :
    ((a.withStrict true).findings state check).map (fun r => (lenient r.1, r.2)) =
      (a.withStrict false).findings state check := by
  cases check with
  | file => exact congrArg (fun found => Except.ok (found, state)) a.lenient_fileFindings
  | classBody => exact congrArg (fun found => Except.ok (found, state)) a.lenient_classFindings
  | history => exact a.lenient_historyFindings state
  | all =>
    unfold findings
    rw [← a.lenient_historyFindings, ← a.lenient_fileFindings, ← a.lenient_classFindings]
    cases (a.withStrict true).historyFindings state with
    | error fault => rfl
    | ok r =>
      show Except.ok (lenient (_ ++ _ ++ _), r.2) = Except.ok (lenient _ ++ lenient _ ++ _, r.2)
      rw [lenient_append, lenient_append]

theorem level_of_mem_findings {a : Auditor σ} {state next : σ} {check : Check}
    {found : List Finding} (h : (a.withStrict false).findings state check = .ok (found, next))
    {f : Finding} (hf : f ∈ found) : f.level = .error := by
  have hfile : (a.withStrict false).fileFindings = a.textFindings := List.append_nil _
  have hclass : (a.withStrict false).classFindings = [] := rfl
  cases check with
  | file =>
    cases h
    rw [hfile] at hf
    exact (of_mem_textFindings hf).1
  | classBody =>
    cases h
    rw [hclass] at hf
    cases hf
  | history => exact (of_mem_historyFindings h hf).1
  | all =>
    obtain ⟨r, hhistory, hr⟩ := bind_eq_ok.mp h
    cases hr
    rw [hfile, hclass, List.append_nil] at hf
    rcases List.mem_append.mp hf with hf | hf
    · exact (of_mem_textFindings hf).1
    · exact (of_mem_historyFindings hhistory hf).1

/-! ## Several checks -/

/-- Runs checks one after the other. -/
def runAll (a : Auditor σ) (p : Progress σ) (checks : List Check) :
    Except Snapshot.Fault (Progress σ) :=
  checks.foldlM a.run p

theorem runAll_cons (a : Auditor σ) (p : Progress σ) (check : Check) (rest : List Check) :
    a.runAll p (check :: rest) = a.run p check >>= fun q => a.runAll q rest := rfl

/-- Progress without the strict findings. -/
def Progress.lenient (p : Progress σ) : Progress σ :=
  { p with results := TapAudit.lenient p.results }

theorem run_lenient (a : Auditor σ) (p : Progress σ) (check : Check) :
    ((a.withStrict true).run p check).map Progress.lenient =
      (a.withStrict false).run p.lenient check := by
  unfold run
  show _ = (a.withStrict false).findings p.source check >>= _
  rw [← a.findings_lenient]
  cases (a.withStrict true).findings p.source check with
  | error fault => rfl
  | ok r =>
    show Except.ok (Progress.mk (TapAudit.lenient (p.results ++ r.1)) r.2) = _
    rw [lenient_append]
    rfl

theorem runAll_lenient (a : Auditor σ) (p : Progress σ) (checks : List Check) :
    ((a.withStrict true).runAll p checks).map Progress.lenient =
      (a.withStrict false).runAll p.lenient checks := by
  induction checks generalizing p with
  | nil => rfl
  | cons check rest ih =>
    rw [runAll_cons, runAll_cons, ← a.run_lenient]
    cases (a.withStrict true).run p check with
    | error fault => rfl
    | ok q => exact ih q

theorem level_of_mem_runAll {a : Auditor σ} {p q : Progress σ} {checks : List Check}
    (h : (a.withStrict false).runAll p checks = .ok q) (hp : ∀ f ∈ p.results, f.level = .error) :
    ∀ f ∈ q.results, f.level = .error := by
  induction checks generalizing p with
  | nil =>
    cases h
    exact hp
  | cons check rest ih =>
    rw [runAll_cons] at h
    obtain ⟨p', hrun, hrest⟩ := bind_eq_ok.mp h
    refine ih hrest ?_
    unfold run at hrun
    obtain ⟨r, hfindings, hr⟩ := bind_eq_ok.mp hrun
    cases hr
    intro f hf
    rcases List.mem_append.mp hf with hf | hf
    · exact hp f hf
    · exact level_of_mem_findings hfindings hf

/-! ## Sources without a state -/

/-- What a check appends, whenever it is run. -/
def appended (a : Auditor Unit) (check : Check) : Except Snapshot.Fault (List Finding) :=
  (a.findings () check).map (·.1)

theorem runAll_eq (a : Auditor Unit) (p : Progress Unit) (checks : List Check) :
    a.runAll p checks =
      (checks.mapM a.appended).map fun parts =>
        { results := p.results ++ parts.flatten, source := () } := by
  induction checks generalizing p with
  | nil => simp [runAll, Except.map, pure, Except.pure]
  | cons check rest ih =>
    have hrun : a.run p check =
        (a.appended check).map fun found => { results := p.results ++ found, source := () } := by
      unfold run appended
      cases a.findings p.source check <;> rfl
    rw [runAll_cons, List.mapM_cons, hrun]
    cases a.appended check with
    | error fault => rfl
    | ok found =>
      show a.runAll _ rest = _
      rw [ih]
      cases rest.mapM a.appended with
      | error fault => rfl
      | ok parts =>
        show Except.ok (Progress.mk _ _) = Except.ok (Progress.mk _ _)
        rw [List.flatten_cons, List.append_assoc]

/-- What checks find from the start. -/
def results (a : Auditor Unit) (checks : List Check) : Except Snapshot.Fault (List Finding) :=
  (a.runAll { source := () } checks).map (·.results)

/--
**Strict mode only adds findings.** Checks in any number and order append to what was found before,
each the same findings whatever was run before it. Without the findings of the four rules that are
marked as strict, a strict run that returns is the run without strict mode, and one run returns
exactly if the other does; without strict mode only errors are found.
-/
theorem strict_adds (a : Auditor Unit) (checks : List Check) :
    (∀ p, a.runAll p checks =
      (checks.mapM a.appended).map fun parts =>
        { results := p.results ++ parts.flatten, source := () }) ∧
    ((a.withStrict true).results checks).map (List.filter (·.rule ∉ strictIds)) =
      (a.withStrict false).results checks ∧
    (∀ found, (a.withStrict false).results checks = .ok found →
      ∀ f ∈ found, f.level = .error) ∧
    ∀ rule : Rule, rule.isStrict = true ↔ rule.id ∈ strictIds := by
  refine ⟨fun p => a.runAll_eq p checks, ?_, ?_, Rule.isStrict_iff⟩
  · have h := a.runAll_lenient { source := () } checks
    show (Except.map _ _).map _ = Except.map _ ((a.withStrict false).runAll _ checks)
    rw [show (a.withStrict false).runAll { source := () } checks = _ from h.symm]
    cases (a.withStrict true).runAll { source := () } checks <;> rfl
  · intro found hfound
    obtain ⟨q, hq, rfl⟩ := map_eq_ok.mp hfound
    exact level_of_mem_runAll hq (by simp)

end Auditor

end TapAudit
