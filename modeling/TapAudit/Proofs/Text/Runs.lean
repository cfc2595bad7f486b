import Mathlib.Tactic.Common

/-!
# Runs of characters

Readers take the characters of one kind from the start of a text. They take a whole run and no more
of it if the text does not go on with another character of the kind (`takeWhile_run`,
`dropWhile_run`).
-/

namespace TapAudit.Text

variable {p : Char → Bool} {run rest : List Char}

/-- A run of characters of a kind ends where this text starts. -/
def EndsRun (p : Char → Bool) (rest : List Char) : Prop :=
  ∀ c ∈ rest.head?, p c = false

theorem endsRun_nil : EndsRun p [] := by
  intro c hc
  cases hc

theorem endsRun_cons {c : Char} (h : p c = false) (rest : List Char) : EndsRun p (c :: rest) := by
  rintro _ ⟨rfl⟩
  exact h

theorem endsRun_dropWhile (text : List Char) : EndsRun p (text.dropWhile p) := by
  intro c hc
  have hhead := List.head?_dropWhile_not p text
  rwa [Option.mem_def.mp hc] at hhead

theorem takeWhile_run (hrun : ∀ c ∈ run, p c = true) (hrest : EndsRun p rest) :
    (run ++ rest).takeWhile p = run := by
  rw [List.takeWhile_append_of_pos hrun]
  cases rest with
  | nil => exact List.append_nil run
  | cons c rest => rw [List.takeWhile_cons_of_neg (by simp [hrest c rfl]), List.append_nil]

theorem dropWhile_run (hrun : ∀ c ∈ run, p c = true) (hrest : EndsRun p rest) :
    (run ++ rest).dropWhile p = rest := by
  rw [List.dropWhile_append_of_pos hrun]
  cases rest with
  | nil => rfl
  | cons c rest => rw [List.dropWhile_cons_of_neg (by simp [hrest c rfl])]

end TapAudit.Text
