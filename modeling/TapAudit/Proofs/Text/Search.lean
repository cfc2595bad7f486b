import Mathlib.Data.List.Infix
import Mathlib.Tactic.Common
import TapAudit.Text.Search

/-!
# Searching

A search fails exactly if its reader fails at every position (`firstMatch_eq_none`). A mark that is
no part of what comes first is found, if at all, in what comes after (`within_of_within_append`).
-/

namespace TapAudit.Text

variable {α : Type} {read : Option Char → List Char → Option α}

theorem firstMatch_cons_of_none {before : Option Char} {c : Char} {rest : List Char}
    (h : read before (c :: rest) = none) :
    firstMatch read before (c :: rest) = firstMatch read (some c) rest := by
  rw [firstMatch, h]

theorem isSome_firstMatch_cons (before : Option Char) (c : Char) (rest : List Char) :
    (firstMatch read before (c :: rest)).isSome =
      ((read before (c :: rest)).isSome || (firstMatch read (some c) rest).isSome) := by
  rw [firstMatch]
  cases read before (c :: rest) <;> rfl

theorem firstMatch_eq_none {text : List Char} (before : Option Char)
    (h : ∀ suffix, suffix <:+ text → ∀ before, read before suffix = none) :
    firstMatch read before text = none := by
  induction text generalizing before with
  | nil => exact h [] List.suffix_rfl before
  | cons c rest ih =>
    rw [firstMatch_cons_of_none (h _ List.suffix_rfl before)]
    exact ih (some c) fun suffix hsuffix => h suffix (hsuffix.trans (List.suffix_cons c rest))

theorem exists_of_firstMatch {text : List Char} {before : Option Char} {found : α}
    (h : firstMatch read before text = some found) :
    ∃ before suffix, suffix <:+ text ∧ read before suffix = some found := by
  induction text generalizing before with
  | nil => exact ⟨before, [], List.suffix_rfl, h⟩
  | cons c rest ih =>
    rw [firstMatch] at h
    split at h
    · next hread =>
      cases h
      exact ⟨before, c :: rest, List.suffix_rfl, hread⟩
    · obtain ⟨before, suffix, hsuffix, hread⟩ := ih h
      exact ⟨before, suffix, hsuffix.trans (List.suffix_cons c rest), hread⟩

theorem isSome_firstMatch_append {front text : List Char} {before : Option Char}
    (h : (read (front.getLast?.or before) text).isSome) :
    (firstMatch read before (front ++ text)).isSome := by
  induction front generalizing before with
  | nil =>
    rw [List.getLast?_nil, Option.none_or] at h
    cases text with
    | nil => exact h
    | cons c rest => rw [List.nil_append, isSome_firstMatch_cons, h, Bool.true_or]
  | cons c front ih =>
    rw [List.cons_append, isSome_firstMatch_cons, ih, Bool.or_true]
    cases front with
    | nil => exact h
    | cons d front => rwa [List.getLast?_cons_cons] at h

theorem firstMatch_append_of_none {front : List Char}
    (h : ∀ c ∈ front, ∀ before rest, read before (c :: rest) = none) (before : Option Char)
    (text : List Char) :
    firstMatch read before (front ++ text) = firstMatch read (front.getLast?.or before) text := by
  induction front generalizing before with
  | nil => rfl
  | cons c front ih =>
    rw [List.forall_mem_cons] at h
    rw [List.cons_append, firstMatch_cons_of_none (h.1 before _), ih h.2]
    cases front with
    | nil => rfl
    | cons d front =>
      rw [List.getLast?_cons_cons, List.getLast?_cons, Option.some_or, Option.some_or]

/-! ## Readers of related texts -/

section

variable {β : Type} {R : α → α → Prop} {u v : Option α}

theorem rel_bind {S : β → β → Prop} {f : α → Option β} (h : Option.Rel R u v)
    (hf : ∀ a b, R a b → Option.Rel S (f a) (f b)) : Option.Rel S (u.bind f) (v.bind f) := by
  cases h with
  | none => exact .none
  | some h => exact hf _ _ h

theorem bind_eq_of_rel {f : α → Option β} (h : Option.Rel R u v) (hf : ∀ a b, R a b → f a = f b) :
    u.bind f = v.bind f := by
  cases h with
  | none => rfl
  | some h => exact hf _ _ h

theorem map_eq_of_rel {f : α → β} (h : Option.Rel R u v) (hf : ∀ a b, R a b → f a = f b) :
    u.map f = v.map f := by
  cases h with
  | none => rfl
  | some h => exact congrArg some (hf _ _ h)

end

/-! ## Words -/

theorem after?_eq_some_iff {word : String} {text rest : List Char} :
    after? word text = some rest ↔ text = word.toList ++ rest := by
  rw [after?, List.isPrefixOf?_eq_some_iff_append_eq, eq_comm]

theorem startsWith_iff {word : String} {text : List Char} :
    startsWith word text = true ↔ ∃ rest, text = word.toList ++ rest := by
  rw [startsWith, List.isPrefixOf_iff_prefix]
  exact exists_congr fun rest => eq_comm

/-! ## Marks -/

theorem hasInfix_iff {mark text : List Char} : hasInfix mark text = true ↔ mark <:+: text := by
  rw [hasInfix]
  constructor
  · intro h
    obtain ⟨rest, hrest⟩ := Option.isSome_iff_exists.mp h
    obtain ⟨before, suffix, hsuffix, hfound⟩ := exists_of_firstMatch hrest
    have hstarts : mark <+: suffix := ⟨rest, List.isPrefixOf?_eq_some_iff_append_eq.mp hfound⟩
    exact hstarts.isInfix.trans hsuffix.isInfix
  · rintro ⟨front, back, rfl⟩
    rw [List.append_assoc]
    refine isSome_firstMatch_append (Option.isSome_iff_exists.mpr ⟨back, ?_⟩)
    exact List.isPrefixOf?_eq_some_iff_append_eq.mpr rfl

variable {mark front text : List Char}

theorem within_of_within_append (hne : mark ≠ []) (hfront : ∀ c ∈ mark, c ∉ front)
    (h : mark <:+: front ++ text) : mark <:+: text := by
  induction front with
  | nil => exact h
  | cons c front ih =>
    refine ih (fun d hd hmem => hfront d hd (by simp [hmem])) ?_
    rcases List.infix_cons_iff.mp h with hstarts | h
    · obtain ⟨d, rest, rfl⟩ := List.exists_cons_of_ne_nil hne
      obtain ⟨rfl, -⟩ := List.cons_prefix_cons.mp hstarts
      exact absurd (by simp) (hfront d (by simp))
    · exact h

theorem within_of_append_within (hne : mark ≠ []) (htext : ∀ c ∈ mark, c ∉ text)
    (h : mark <:+: front ++ text) : mark <:+: front := by
  rw [← List.reverse_infix, List.reverse_append] at h
  rw [← List.reverse_infix]
  exact within_of_within_append (by simpa using hne) (by simpa using htext) h

end TapAudit.Text
