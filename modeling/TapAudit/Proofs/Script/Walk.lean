import Mathlib.Tactic.Common
import TapAudit.Proofs.Log
import TapAudit.Proofs.Text.Blank
import TapAudit.Script.Walk

/-!
# Steps of a walk

A walk looks at a line without the blanks around it (`readLine_strip`), and walks can be put one
after the other (`readLines_append`).
-/

namespace TapAudit.Script.Walk

open Text

theorem readLine_strip (w : Walk) (raw : List Char) : w.readLine (strip raw) = w.readLine raw := by
  simp only [readLine, strip_strip]

@[simp] theorem readLines_nil (w : Walk) : w.readLines [] = pure ([], w) := rfl

theorem readLines_cons (w : Walk) (raw : List Char) (raws : List (List Char)) :
    w.readLines (raw :: raws) = (do
      let (first, w) ← w.readLine raw
      let (others, w) ← w.readLines raws
      pure (first ++ others, w)) := rfl

theorem readLines_map_strip (w : Walk) (raws : List (List Char)) :
    w.readLines (raws.map strip) = w.readLines raws := by
  induction raws generalizing w with
  | nil => rfl
  | cons raw raws ih => simp only [List.map_cons, readLines_cons, readLine_strip, ih]

theorem readLines_append (w : Walk) (front back : List (List Char)) :
    w.readLines (front ++ back) = (do
      let (first, w) ← w.readLines front
      let (others, w) ← w.readLines back
      pure (first ++ others, w)) := by
  induction front generalizing w with
  | nil => simp
  | cons raw front ih => simp [readLines_cons, ih]

/-! ## Putting walks together -/

variable {w w₁ w₂ : Walk} {first others : List Declaration} {raws : List (List Char)}

theorem readLines_cons_eq {raw : List Char} (hfirst : w.readLine raw = pure (first, w₁))
    (hothers : w₁.readLines raws = pure (others, w₂)) :
    w.readLines (raw :: raws) = pure (first ++ others, w₂) := by
  simp only [readLines_cons, hfirst, hothers, pure_bind]

theorem readLines_append_eq {front : List (List Char)}
    (hfirst : w.readLines front = pure (first, w₁))
    (hothers : w₁.readLines raws = pure (others, w₂)) :
    w.readLines (front ++ raws) = pure (first ++ others, w₂) := by
  simp only [readLines_append, hfirst, hothers, pure_bind]

/-! ## Lines of code -/

theorem readLine_code {w : Walk} {raw : List Char} (hstopped : w.stopped = false)
    (hheredoc : w.heredoc = none) (hend : strip raw ≠ "__END__".toList)
    (hcode : ((strip raw).isEmpty || (strip raw).head? == some '#') = false) :
    w.readLine raw = (do
      let (found, w) ← Walk.readStatements { w with line := w.line + 1 } (statements (strip raw))
      pure (found, { w with heredoc := heredoc? (strip raw) })) := by
  simp only [readLine, hstopped, hheredoc, if_neg hend, hcode, if_neg Bool.false_ne_true]

theorem readLine_blank {w : Walk} {raw : List Char} (h : strip raw = [])
    (hstopped : w.stopped = false) (hheredoc : w.heredoc = none) :
    w.readLine raw = pure ([], { w with line := w.line + 1 }) := by
  simp only [readLine, h, hstopped, hheredoc]
  rfl

theorem readStatements_singleton (w : Walk) (statement : List Char) :
    w.readStatements [statement] = w.act (action statement) := by
  simp [readStatements]

theorem setHeredoc_bind {m : Logged (List Declaration × Walk)} {heredoc : Option (List Char)}
    (h : m.value.2.heredoc = heredoc) :
    (do let (found, w) ← m; pure (found, { w with heredoc })) = m := by
  subst h
  ext1 <;> simp

theorem heredoc_act (w : Walk) (a : Action) : (w.act a).value.2.heredoc = w.heredoc := by
  cases a with
  | close => cases h : w.stack <;> simp [act, h]
  | openClass header isFormula =>
    simp only [act]
    split <;> rfl
  | declare kind argument opensBlock => rfl
  | bareHead => rfl
  | skip => rfl

end TapAudit.Script.Walk
