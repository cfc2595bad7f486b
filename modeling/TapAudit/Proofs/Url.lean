import TapAudit.Proofs.Except
import TapAudit.Url

/-!
# Faulty URLs

The path of a URL is not read if something is wrong with its authority, and for no other reason.

- `isFaulty_iff`: what may be wrong.
-/

namespace TapAudit.Url

/-- A URL whose path is not read. -/
def IsFaulty (url : List Char) : Prop :=
  ∃ fault, path url = .error fault

/-- The authority of a URL. -/
def authorityOf (url : List Char) : List Char :=
  (authority (scheme (cleaned url)).2).1

theorem path_eq_error_iff {url : List Char} {fault : Fault} :
    path url = .error fault ↔ checkAuthority (authorityOf url) = .error fault := by
  rw [path, authorityOf]
  dsimp only
  cases checkAuthority (authority (scheme (cleaned url)).2).1 <;>
    simp [bind, Except.bind, pure, Except.pure]

theorem checkAuthority_eq_ok_iff {authority : List Char} :
    checkAuthority authority = .ok () ↔
      authority.contains '[' = authority.contains ']' ∧
        (authority.contains '[' → checkBrackets authority = .ok ()) ∧
          authority.any hidesDelimiter = false := by
  rw [checkAuthority]
  cases authority.contains '[' <;> cases authority.contains ']' <;>
    cases authority.any hidesDelimiter <;> cases checkBrackets authority <;>
      simp [bind, Except.bind, pure, Except.pure]

/-- Brackets are of one kind only or hold no address, or some character stands for a delimiter. -/
theorem isFaulty_iff {url : List Char} :
    IsFaulty url ↔
      (authorityOf url).contains '[' ≠ (authorityOf url).contains ']' ∨
        ((authorityOf url).contains '[' ∧ checkBrackets (authorityOf url) ≠ .ok ()) ∨
          ∃ c ∈ authorityOf url, hidesDelimiter c := by
  have hnot : IsFaulty url ↔ ¬ checkAuthority (authorityOf url) = .ok () := by
    rw [IsFaulty]
    simp only [path_eq_error_iff]
    cases checkAuthority (authorityOf url) <;> simp
  rw [hnot, checkAuthority_eq_ok_iff, not_and_or, not_and_or, Classical.not_imp, Bool.not_eq_false,
    List.any_eq_true]

end TapAudit.Url
