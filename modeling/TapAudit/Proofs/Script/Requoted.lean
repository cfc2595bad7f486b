import TapAudit.Proofs.Script.LineEnds
import TapAudit.Proofs.Script.Statement
import TapAudit.Script.Action

/-!
# Contents of literals

What a statement does is settled by its code alone. Two statements that differ only in what stands
in their closed literals (`Requoted`) have the same code with its literals made empty
(`blankLiterals_requoted`), and they are the same up to their first quote (`Requoted.upToQuote`),
which is as far as the readers of words and names look. So their actions differ at most in the text
that is kept (`action_requoted`).
-/

namespace TapAudit.Script

open Text

/-! ## Literals -/

/-- Two texts that differ at most in the contents of literals, read on from a given quoting. A
literal is one that opens outside quotes. -/
inductive Requoted : Quoting → List Char → List Char → Prop
  | nil (q : Quoting) : Requoted q [] []
  | char {q : Quoting} (c : Char) {s t : List Char} (h : Requoted (q.after c) s t) :
      Requoted q (c :: s) (c :: t)
  | literal {mark : Char} {old new s t : List Char} (hmark : isQuote mark = true)
      (hold : Enclosed mark old) (hnew : Enclosed mark new) (h : Requoted .code s t) :
      Requoted .code (mark :: (old ++ mark :: s)) (mark :: (new ++ mark :: t))

/-- A literal that is not closed is the same in both texts, and so is all that follows; the ends of
closed ones are followed by texts of the same kind. -/
theorem afterLiteral?_requoted {mark : Char} {s t : List Char} (h : Requoted (.quoted mark) s t) :
    s = t ∨ ∃ a b, afterLiteral? mark s = some a ∧ afterLiteral? mark t = some b ∧
      Requoted .code a b := by
  fun_induction afterLiteral? mark s generalizing t with
  | case1 =>
    cases h
    exact .inl rfl
  | case2 =>
    obtain - | ⟨_, h⟩ := h
    cases h
    exact .inl rfl
  | case3 c rest ih =>
    obtain - | ⟨_, h⟩ := h
    obtain - | @⟨_, _, _, t, h⟩ := h
    rcases ih h with rfl | ⟨a, b, ha, hb, hab⟩
    · exact .inl rfl
    · refine .inr ⟨a, b, ha, ?_, hab⟩
      rw [afterLiteral?]
      exact hb
  | case4 rest hslash hpair =>
    have hmark : mark ≠ '\\' := by
      intro heq
      cases rest with
      | nil => exact hslash heq rfl
      | cons d rest => exact hpair d rest heq rfl
    obtain - | @⟨_, _, _, t, h⟩ := h
    rw [Quoting.after_mark hmark] at h
    exact .inr ⟨rest, t, rfl, by rw [afterLiteral?_cons hmark, if_pos rfl], h⟩
  | case5 c rest hslash hpair hne ih =>
    have hc : c ≠ '\\' := by
      intro heq
      cases rest with
      | nil => exact hslash heq rfl
      | cons d rest => exact hpair d rest heq rfl
    obtain - | @⟨_, _, _, t, h⟩ := h
    rw [Quoting.after_plain hc hne] at h
    rcases ih h with rfl | ⟨a, b, ha, hb, hab⟩
    · exact .inl rfl
    · exact .inr ⟨a, b, ha, by rwa [afterLiteral?_cons hc, if_neg hne], hab⟩

theorem blankLiterals_requoted {s t : List Char} (h : Requoted .code s t) :
    blankLiterals s = blankLiterals t := by
  -- Both texts are read on from the end of a literal, so the induction is on the length.
  induction hlength : s.length using Nat.strong_induction_on generalizing s t with
  | _ n ih =>
    subst hlength
    cases h with
    | nil => rfl
    | @char _ c s t h =>
      cases hc : isQuote c with
      | false =>
        rw [Quoting.after_code hc] at h
        rw [blankLiterals_cons hc, blankLiterals_cons hc, ih s.length (by simp) h rfl]
      | true =>
        rw [Quoting.after_quote hc] at h
        rcases afterLiteral?_requoted h with rfl | ⟨a, b, ha, hb, hab⟩
        · rfl
        · have hshort := length_afterLiteral? ha
          rw [blankLiterals_closed hc ha, blankLiterals_closed hc hb,
            ih a.length (by simp; omega) hab rfl]
    | @literal mark old new s t hmark hold hnew h =>
      have hslash := ne_slash_of_isQuote hmark
      rw [blankLiterals_closed hmark (hold.afterLiteral? hslash s),
        blankLiterals_closed hmark (hnew.afterLiteral? hslash t),
        ih s.length (by simp; omega) h rfl]

/-! ## Up to the first quote -/

theorem startsWithWord_cons (word : String) (words : List String) (text : List Char) :
    startsWithWord (word :: words) text =
      ((after? word text).any (!startsWord ·) || startsWithWord words text) := by
  rw [startsWithWord, List.any_cons, ← startsWithWord]
  cases after? word text <;> rfl

/-- Two texts that are the same up to their first quote. -/
inductive UpToQuote : List Char → List Char → Prop
  | nil : UpToQuote [] []
  | quote {mark : Char} (hmark : isQuote mark = true) (s t : List Char) :
      UpToQuote (mark :: s) (mark :: t)
  | char {c : Char} (hc : isQuote c = false) {s t : List Char} (h : UpToQuote s t) :
      UpToQuote (c :: s) (c :: t)

theorem Requoted.upToQuote {s t : List Char} (h : Requoted .code s t) : UpToQuote s t := by
  generalize hq : Quoting.code = q at h
  induction h with
  | nil => exact .nil
  | @char q c s t h ih =>
    subst hq
    cases hc : isQuote c with
    | false => exact .char hc (ih (Quoting.after_code hc).symm)
    | true => exact .quote hc s t
  | literal hmark => exact .quote hmark _ _

namespace UpToQuote

variable {s t : List Char}

theorem head?_eq (h : UpToQuote s t) : s.head? = t.head? := by
  cases h <;> rfl

theorem startsWord_eq (h : UpToQuote s t) : startsWord s = startsWord t := by
  cases h <;> rfl

theorem isEmpty_eq (h : UpToQuote s t) : s.isEmpty = t.isEmpty := by
  cases h <;> rfl

theorem eq_of_isUnquoted (h : UpToQuote s t) (hs : isUnquoted s = true) : s = t := by
  induction h with
  | nil => rfl
  | quote hmark s t =>
    rw [of_isUnquoted hs _ List.mem_cons_self] at hmark
    cases hmark
  | char hc _ ih =>
    rw [isUnquoted, List.all_cons, Bool.and_eq_true] at hs
    rw [ih hs.2]

theorem symm (h : UpToQuote s t) : UpToQuote t s := by
  induction h with
  | nil => exact .nil
  | quote hmark s t => exact .quote hmark t s
  | char hc _ ih => exact .char hc ih

theorem takeWhile_eq {p : Char → Bool} (hp : ∀ c, isQuote c = true → p c = false)
    (h : UpToQuote s t) : s.takeWhile p = t.takeWhile p := by
  induction h with
  | nil => rfl
  | quote hmark s t =>
    rw [List.takeWhile_cons_of_neg (by simp [hp _ hmark]),
      List.takeWhile_cons_of_neg (by simp [hp _ hmark])]
  | char hc _ ih => rw [List.takeWhile_cons, List.takeWhile_cons, ih]

theorem dropWhile {p : Char → Bool} (hp : ∀ c, isQuote c = true → p c = false)
    (h : UpToQuote s t) : UpToQuote (s.dropWhile p) (t.dropWhile p) := by
  induction h with
  | nil => exact .nil
  | quote hmark s t =>
    rw [List.dropWhile_cons_of_neg (by simp [hp _ hmark]),
      List.dropWhile_cons_of_neg (by simp [hp _ hmark])]
    exact .quote hmark s t
  | @char c hc s t h ih =>
    rw [List.dropWhile_cons, List.dropWhile_cons]
    split
    · exact ih
    · exact .char hc h

theorem stripStart (h : UpToQuote s t) : UpToQuote (stripStart s) (stripStart t) :=
  h.dropWhile fun _ => isBlank_of_isQuote

theorem stripEnd (h : UpToQuote s t) : UpToQuote (stripEnd s) (stripEnd t) := by
  induction h with
  | nil => exact .nil
  | quote hmark s t =>
    rw [stripEnd_cons (isBlank_of_isQuote hmark), stripEnd_cons (isBlank_of_isQuote hmark)]
    exact .quote hmark _ _
  | @char c hc s t h ih =>
    have hnil : Text.stripEnd s = [] ↔ Text.stripEnd t = [] := by
      rw [← List.isEmpty_iff, ← List.isEmpty_iff, ih.isEmpty_eq]
    rw [stripEnd_cons_eq, stripEnd_cons_eq]
    by_cases hall : isBlank c = true ∧ Text.stripEnd s = []
    · rw [if_pos hall, if_pos ⟨hall.1, hnil.mp hall.2⟩]
      exact .nil
    · rw [if_neg hall, if_neg fun h => hall ⟨h.1, hnil.mpr h.2⟩]
      exact .char hc ih

theorem strip (h : UpToQuote s t) : UpToQuote (strip s) (strip t) :=
  h.stripStart.stripEnd

theorem isPrefixOf? {word : List Char} (hword : isUnquoted word = true) (h : UpToQuote s t) :
    Option.Rel UpToQuote (word.isPrefixOf? s) (word.isPrefixOf? t) := by
  induction word generalizing s t with
  | nil => exact .some h
  | cons c word ih =>
    have hfirst := of_isUnquoted hword c List.mem_cons_self
    rw [isUnquoted, List.all_cons, Bool.and_eq_true] at hword
    cases h with
    | nil => exact .none
    | @quote mark hmark s t =>
      have hne : c ≠ mark := by
        rintro rfl
        rw [hfirst] at hmark
        cases hmark
      rw [List.isPrefixOf?, List.isPrefixOf?, if_neg (by simpa using hne),
        if_neg (by simpa using hne)]
      exact .none
    | char _ h =>
      rw [List.isPrefixOf?, List.isPrefixOf?]
      split
      · exact ih hword.2 h
      · exact .none

theorem after? (word : String) (hword : isUnquoted word.toList = true) (h : UpToQuote s t) :
    Option.Rel UpToQuote (after? word s) (after? word t) :=
  h.isPrefixOf? hword

theorem startsWith_eq (word : String) (hword : isUnquoted word.toList = true)
    (h : UpToQuote s t) : startsWith word s = startsWith word t := by
  have hafter := h.after? word hword
  rw [Bool.eq_iff_iff, startsWith_iff, startsWith_iff]
  simp only [← after?_eq_some_iff, ← Option.isSome_iff_exists]
  generalize Text.after? word s = u at hafter
  generalize Text.after? word t = v at hafter
  cases hafter <;> simp

theorem startsWithWord_eq (words : List String)
    (hwords : (words.all fun w => isUnquoted w.toList) = true) (h : UpToQuote s t) :
    startsWithWord words s = startsWithWord words t := by
  induction words with
  | nil => rfl
  | cons w words ih =>
    rw [List.all_cons, Bool.and_eq_true] at hwords
    have hafter := h.after? w hwords.1
    rw [startsWithWord_cons, startsWithWord_cons, ih hwords.2]
    generalize Text.after? w s = u at hafter
    generalize Text.after? w t = v at hafter
    cases hafter with
    | none => rfl
    | some hrest => rw [Option.any_some, Option.any_some, hrest.startsWord_eq]

theorem beq_eq (word : List Char) (hword : isUnquoted word = true) (h : UpToQuote s t) :
    (s == word) = (t == word) := by
  rw [Bool.eq_iff_iff, beq_iff_eq, beq_iff_eq]
  constructor
  · rintro rfl
    exact (h.eq_of_isUnquoted hword).symm
  · rintro rfl
    exact (h.symm.eq_of_isUnquoted hword).symm

end UpToQuote

/-! ## Forms -/

variable {s t : List Char}

theorem UpToQuote.afterBlanks? (h : UpToQuote s t) :
    Option.Rel UpToQuote (afterBlanks? s) (afterBlanks? t) := by
  cases h with
  | nil => exact .none
  | quote hmark s t =>
    rw [Script.afterBlanks?, Script.afterBlanks?, isBlank_of_isQuote hmark]
    exact .none
  | @char c _ s t h =>
    rw [Script.afterBlanks?, Script.afterBlanks?]
    split
    · exact .some h.stripStart
    · exact .none

theorem headersAlike_upToQuote : HeadersAlike UpToQuote where
  cases h := by
    cases h with
    | nil => exact .inl ⟨rfl, rfl⟩
    | quote hmark s t =>
      refine .inr (.inr ⟨_, _, _, _, rfl, rfl, ?_⟩)
      rcases eq_of_isQuote hmark with rfl | rfl <;> decide
    | char _ h => exact .inr (.inl ⟨_, _, _, rfl, rfl, h⟩)
  stripStart h := h.stripStart
  dropWord h := h.dropWhile fun _ => isWord_of_isQuote
  afterClass h := h.after? "class" (by decide)
  afterBlanks h := h.afterBlanks?

theorem UpToQuote.methodNameHere?_eq (h : UpToQuote s t) :
    methodNameHere? s = methodNameHere? t := by
  cases h with
  | nil => rfl
  | quote hmark s t => rcases eq_of_isQuote hmark with rfl | rfl <;> rfl
  | @char c _ s t h =>
    have hrest := h.dropWhile fun _ => isWord_of_isQuote
    rw [methodNameHere?, methodNameHere?, h.takeWhile_eq fun _ => isWord_of_isQuote]
    generalize s.dropWhile isWord = u at hrest
    generalize t.dropWhile isWord = v at hrest
    cases hrest <;> rfl

theorem UpToQuote.definedMethod?_eq (h : UpToQuote s t) :
    definedMethod? s = definedMethod? t := by
  have hrest := rel_bind (h.after? "def" (by decide)) fun _ _ => UpToQuote.afterBlanks?
  refine bind_eq_of_rel hrest fun u v huv => ?_
  have hself := bind_eq_of_rel (huv.after? "self." (by decide)) fun _ _ => methodNameHere?_eq
  rw [hself, huv.methodNameHere?_eq]

theorem UpToQuote.argument? (word : List Char) : UpToQuote s t →
    Option.Rel (fun a b : List Char × List Char => a.1 = b.1 ∧ UpToQuote a.2 b.2)
      (match s with
        | [] => some (word, [])
        | b :: tail => if isBlank b then some (word, Text.strip tail) else none)
      (match t with
        | [] => some (word, [])
        | b :: tail => if isBlank b then some (word, Text.strip tail) else none) := by
  intro h
  cases h with
  | nil => exact .some ⟨rfl, .nil⟩
  | quote hmark s t =>
    dsimp only
    rw [isBlank_of_isQuote hmark]
    exact .none
  | @char c _ s t h =>
    dsimp only
    split
    · exact .some ⟨rfl, h.strip⟩
    · exact .none

theorem UpToQuote.call? (h : UpToQuote s t) :
    Option.Rel (fun a b => a.1 = b.1 ∧ UpToQuote a.2 b.2) (call? s) (call? t) := by
  cases h with
  | nil => exact .none
  | quote hmark s t => rcases eq_of_isQuote hmark with rfl | rfl <;> exact .none
  | @char c _ s t h =>
    have hname : ∀ c : Char, isQuote c = true → (c.isAlphanum || c == '_') = false := by
      intro c hc
      rcases eq_of_isQuote hc with rfl | rfl <;> decide
    have hrest := h.dropWhile hname
    rw [Script.call?, Script.call?]
    split
    · simp only [h.takeWhile_eq hname]
      generalize s.dropWhile _ = u at hrest
      generalize t.dropWhile _ = v at hrest
      cases hrest with
      | nil => exact .some ⟨rfl, .nil⟩
      | quote hmark s t => rcases eq_of_isQuote hmark with rfl | rfl <;> exact .none
      | @char m hquote s t h =>
        by_cases hm : m = '?' ∨ m = '!'
        · simp only [if_pos hm]
          exact h.argument? _
        · simp only [if_neg hm]
          exact (UpToQuote.char hquote h).argument? _
    · exact .none

/-! ## Actions -/

/-- What is left of an action without the text that it keeps. -/
def Action.shape : Action → Action
  | .openClass _ isFormula => .openClass [] isFormula
  | .declare kind _ opensBlock => .declare kind [] opensBlock
  | action => action

theorem callAction_shape (word : List Char) (h : UpToQuote s t) :
    (callAction word s).shape = (callAction word t).shape := by
  have hlanguage := h.startsWith_eq "Language::" (by decide)
  have hmodifier := h.startsWithWord_eq [":unneeded", ":disable"] (by decide)
  have hnil : s = [] ↔ t = [] := by rw [← List.isEmpty_iff, h.isEmpty_eq, List.isEmpty_iff]
  simp only [callAction, h.head?_eq, hlanguage, hmodifier, hnil]
  repeat' split
  all_goals rfl

/-- What a statement does does not depend on the contents of its literals, but for the text that it
keeps. -/
theorem action_requoted (h : Requoted .code s t) : (action s).shape = (action t).shape := by
  have hsame := h.upToQuote
  have hend := hsame.startsWithWord_eq ["end"] (by decide)
  have hclass := hsame.startsWith_eq "class " (by decide)
  have hbare := hsame.beq_eq "class".toList (by decide)
  have hcall := hsame.call?
  simp only [action, hend, hclass, hbare, headersAlike_upToQuote.startsFormulaClass_eq hsame,
    hsame.definedMethod?_eq, blankLiterals_requoted h]
  generalize Script.call? s = u at hcall
  generalize Script.call? t = v at hcall
  split
  · rfl
  · split
    · rfl
    · split
      · rfl
      · split
        · rfl
        · cases hcall with
          | none => rfl
          | @some a b hcall =>
            obtain ⟨word, s⟩ := a
            obtain ⟨_, t⟩ := b
            obtain ⟨rfl, hargument⟩ := hcall
            split
            · rfl
            · exact callAction_shape _ hargument

end TapAudit.Script
