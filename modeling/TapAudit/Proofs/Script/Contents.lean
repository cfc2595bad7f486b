import TapAudit.Proofs.Log
import TapAudit.Proofs.Script.Moments
import TapAudit.Proofs.Script.Requoted

/-!
# What a statement does but for its text

Only the argument of a declaration is read from the contents of literals. So if the contents of the
literals of a statement are replaced, a walk declares the same but for the argument, and goes on in
the same way (`actAlike_requoted`). An action without its text does what the action does and makes
the same declarations without theirs (`Walk.act_shape`).
-/

namespace TapAudit

/-- A declaration without its text. -/
def Declaration.withoutArgument (d : Declaration) : Declaration :=
  { d with argument := [] }

namespace Script

namespace Walk

/-- What an action leads to, with the declarations without their texts. -/
def withoutArguments (result : List Declaration × Walk) : List Declaration × Walk :=
  (result.1.map Declaration.withoutArgument, result.2)

theorem act_shape (w : Walk) (a : Action) : w.act a.shape = withoutArguments <$> w.act a := by
  cases a with
  | close => cases hstack : w.stack <;> ext1 <;> simp [Action.shape, act, hstack, withoutArguments]
  | openClass header isFormula =>
    simp only [Action.shape, act]
    split <;> rfl
  | declare kind argument opensBlock => rfl
  | bareHead => rfl
  | skip => rfl

theorem Step.made_eq {w w' : Walk} {made : List Declaration} (h : Step w made w') :
    made = [] ∨ ∃ d, made = [d] := by
  cases h with
  | idle => exact .inl rfl
  | close => exact .inl rfl
  | openClass => exact .inl rfl
  | declare => exact .inr ⟨_, rfl⟩

/-- Read in the same state, both statements declare nothing, or one thing each that is the same but
for its argument, and the state behind them is the same. -/
def ActAlike (w : Walk) (s t : List Char) : Prop :=
  ((w.act (action s)).value.1 = [] ∧ (w.act (action t)).value.1 = [] ∨
    ∃ d e, (w.act (action s)).value.1 = [d] ∧ (w.act (action t)).value.1 = [e] ∧
      e.kind = d.kind ∧ e.line = d.line ∧ e.parent = d.parent ∧ e.opensBlock = d.opensBlock) ∧
    (w.act (action t)).value.2 = (w.act (action s)).value.2

end Walk

open Walk

variable {s t : List Char}

theorem withoutArguments_requoted (w : Walk) (h : Requoted .code s t) :
    withoutArguments <$> w.act (action t) = withoutArguments <$> w.act (action s) := by
  rw [← act_shape, ← act_shape, action_requoted h]

theorem made_requoted (w : Walk) (h : Requoted .code s t) :
    (w.act (action t)).value.1.map Declaration.withoutArgument =
      (w.act (action s)).value.1.map Declaration.withoutArgument :=
  congrArg (·.value.1) (withoutArguments_requoted w h)

theorem state_requoted (w : Walk) (h : Requoted .code s t) :
    (w.act (action t)).value.2 = (w.act (action s)).value.2 :=
  congrArg (·.value.2) (withoutArguments_requoted w h)

/--
**What stands in literals does not decide what a statement is.** Let the contents of closed literals
of a statement be replaced. Whatever the state in which it is read, it declares nothing before and
after, or the same but for the argument: a thing of the same kind, on the same line, in the same
block, that opens a block itself or does not. The state behind the statement is the same.
-/
theorem actAlike_requoted (w : Walk) (h : Requoted .code s t) : w.ActAlike s t := by
  refine ⟨?_, state_requoted w h⟩
  have hmade := made_requoted w h
  rcases (step_act w (action s)).made_eq with hs | ⟨d, hs⟩
  · rw [hs, List.map_nil, List.map_eq_nil_iff] at hmade
    exact .inl ⟨hs, hmade⟩
  · rw [hs, List.map_singleton, List.map_eq_singleton_iff] at hmade
    obtain ⟨e, ht, hsame⟩ := hmade
    obtain ⟨hkind, hline, hparent, -, hopens⟩ := Declaration.mk.inj hsame
    exact .inr ⟨d, e, hs, ht, hkind, hline, hparent, hopens⟩

/-- Words that would make something else of the statement do not in a literal. -/
theorem actAlike_desc :
    ActAlike { line := 2, stack := [none], seenClass := true } "desc 'Foo', \"bar\"".toList
      "desc 'end', \"= case 'x'; y do |z|\"".toList := by
  have hbar : Requoted .code ('"' :: ("bar".toList ++ '"' :: []))
      ('"' :: ("= case 'x'; y do |z|".toList ++ '"' :: [])) :=
    .literal (by decide) (enclosed_of_forall (by simp)) (enclosed_of_forall (by simp)) (.nil _)
  have hfoo : Requoted .code
      ('\'' :: ("Foo".toList ++ '\'' :: ", \"bar\"".toList))
      ('\'' :: ("end".toList ++ '\'' :: ", \"= case 'x'; y do |z|\"".toList)) :=
    .literal (by decide) (enclosed_of_forall (by simp)) (enclosed_of_forall (by simp))
      (.char ',' (.char ' ' hbar))
  exact actAlike_requoted _ (.char 'd' (.char 'e' (.char 's' (.char 'c' (.char ' ' hfoo)))))

end Script

end TapAudit
