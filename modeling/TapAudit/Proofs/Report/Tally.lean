import Mathlib.Algebra.GroupWithZero.Nat
import Mathlib.Data.List.Nodup
import TapAudit.Report.Tally

/-!
# The numbers of a report

- `countOf_add`: each finding is of one of three levels.
- `isTally_byRule`: the rules that are counted are those that occur, each as often as it occurs, and
  together they make up all findings.
-/

namespace TapAudit.Report

open Audit (Report)

/-! ## Levels -/

theorem countP_levels (found : List Finding) :
    found.countP (·.level == .error) + found.countP (·.level == .warning) +
      found.countP (·.level == .info) = found.length := by
  induction found with
  | nil => rfl
  | cons f found ih =>
    rw [List.countP_cons, List.countP_cons, List.countP_cons, List.length_cons, ← ih]
    cases f.level <;> simp <;> omega

theorem countOf_add (report : Report) :
    countOf report .error + countOf report .warning + countOf report .info =
      (findings report).length :=
  countP_levels (findings report)

/-! ## Rules -/

/-- Counts of rules: no rule is counted twice, each that occurs is counted as often as it occurs,
and the counts add up. -/
structure IsTally (counts : List (String × Nat)) (rules : List String) : Prop where
  nodup : (counts.map Prod.fst).Nodup
  mem_iff : ∀ rule n, (rule, n) ∈ counts ↔ 0 < n ∧ rules.count rule = n
  sum_eq : (counts.map Prod.snd).sum = rules.length

theorem fst_countRule (rule : String) (counts : List (String × Nat)) :
    (countRule rule counts).map Prod.fst =
      if rule ∈ counts.map Prod.fst then counts.map Prod.fst
      else counts.map Prod.fst ++ [rule] := by
  induction counts with
  | nil => rfl
  | cons entry rest ih =>
    obtain ⟨name, n⟩ := entry
    unfold countRule
    by_cases hname : name = rule
    · simp [hname]
    · rw [if_neg hname, List.map_cons, ih]
      by_cases hmem : rule ∈ rest.map Prod.fst
      · have hold : rule ∈ ((name, n) :: rest).map Prod.fst := List.mem_cons_of_mem _ hmem
        rw [if_pos hmem, if_pos hold]
        rfl
      · have hnew : rule ∉ ((name, n) :: rest).map Prod.fst := by
          rw [List.map_cons, List.mem_cons, not_or]
          exact ⟨Ne.symm hname, hmem⟩
        rw [if_neg hmem, if_neg hnew]
        rfl

theorem nodup_countRule {rule : String} {counts : List (String × Nat)}
    (h : (counts.map Prod.fst).Nodup) : ((countRule rule counts).map Prod.fst).Nodup := by
  rw [fst_countRule]
  split
  · exact h
  · next hnew =>
    rw [← List.concat_eq_append]
    exact h.concat hnew

/-- One count changes, if only from nothing to one. -/
theorem mem_countRule_iff {rule : String} {counts : List (String × Nat)}
    (h : (counts.map Prod.fst).Nodup) {name : String} {n : Nat} :
    (name, n) ∈ countRule rule counts ↔
      if name = rule then (rule ∉ counts.map Prod.fst ∧ n = 1) ∨ ∃ m, (rule, m) ∈ counts ∧ n = m + 1
      else (name, n) ∈ counts := by
  induction counts with
  | nil =>
    by_cases hname : name = rule <;> simp [countRule, hname]
  | cons entry rest ih =>
    obtain ⟨first, m⟩ := entry
    rw [List.map_cons, List.nodup_cons] at h
    unfold countRule
    by_cases hfirst : first = rule
    · subst hfirst
      rw [if_pos rfl]
      by_cases hname : name = first
      · subst hname
        have hrest (k : Nat) : (name, k) ∉ rest := by
          intro hk
          exact h.1 (List.mem_map.mpr ⟨(name, k), hk, rfl⟩)
        simp [hrest]
      · simp [hname]
    · rw [if_neg hfirst, List.mem_cons, ih h.2]
      by_cases hname : name = rule
      · subst hname
        simp [Ne.symm hfirst]
      · simp [hname]

theorem sum_countRule (rule : String) (counts : List (String × Nat)) :
    ((countRule rule counts).map Prod.snd).sum = (counts.map Prod.snd).sum + 1 := by
  induction counts with
  | nil => rfl
  | cons entry rest ih =>
    unfold countRule
    split
    · simp only [List.map_cons, List.sum_cons]
      omega
    · simp only [List.map_cons, List.sum_cons, ih]
      omega

theorem IsTally.countRule {counts : List (String × Nat)} {rules : List String}
    (h : IsTally counts rules) (rule : String) :
    IsTally (countRule rule counts) (rules ++ [rule]) := by
  refine ⟨nodup_countRule h.nodup, fun name n => ?_, ?_⟩
  · rw [mem_countRule_iff h.nodup, List.count_append]
    by_cases hname : name = rule
    · subst hname
      rw [if_pos rfl, List.count_singleton_self]
      -- a rule has a count exactly if it has occurred
      have hcounted : name ∈ counts.map Prod.fst ↔ 0 < rules.count name := by
        rw [List.mem_map]
        constructor
        · rintro ⟨⟨other, m⟩, hmem, rfl⟩
          obtain ⟨hpos, hcount⟩ := (h.mem_iff other m).mp hmem
          show 0 < rules.count other
          omega
        · intro hpos
          exact ⟨(name, rules.count name), (h.mem_iff name _).mpr ⟨hpos, rfl⟩, rfl⟩
      rw [hcounted]
      constructor
      · rintro (⟨hnew, rfl⟩ | ⟨m, hmem, rfl⟩)
        · omega
        · have hm := (h.mem_iff name m).mp hmem
          omega
      · rintro ⟨-, rfl⟩
        by_cases hpos : 0 < rules.count name
        · exact .inr ⟨_, (h.mem_iff name _).mpr ⟨hpos, rfl⟩, rfl⟩
        · exact .inl ⟨hpos, by omega⟩
    · have hother : [rule].count name = 0 := by simp [Ne.symm hname]
      rw [if_neg hname, h.mem_iff, hother, Nat.add_zero]
  · rw [sum_countRule, h.sum_eq, List.length_append, List.length_singleton]

theorem IsTally.foldl {counts : List (String × Nat)} {rules : List String}
    (h : IsTally counts rules) (found : List Finding) :
    IsTally (found.foldl (fun counts f => Report.countRule f.rule counts) counts)
      (rules ++ found.map Finding.rule) := by
  induction found generalizing counts rules with
  | nil =>
    rw [List.map_nil, List.append_nil]
    exact h
  | cons f found ih =>
    have hstep := ih (h.countRule f.rule)
    rwa [List.append_assoc] at hstep

theorem isTally_nil : IsTally [] [] where
  nodup := List.nodup_nil
  mem_iff rule n := by
    rw [List.count_nil]
    constructor
    · exact fun hmem => absurd hmem List.not_mem_nil
    · rintro ⟨hpos, rfl⟩
      exact absurd hpos (Nat.lt_irrefl 0)
  sum_eq := rfl

theorem isTally_byRule (report : Report) :
    IsTally (byRule report) ((findings report).map Finding.rule) :=
  isTally_nil.foldl (findings report)

end TapAudit.Report
