import Mathlib
import TapAudit.Proofs.Text.Numeral
import TapAudit.Proofs.Text.Runs
import TapAudit.Text.Letter

/-!
# Letters and digits

The letters from `a` to `z` are told apart from digits, and a word of them is recognised where it
stands and nowhere else.

- `of_lt`: what can be settled for the first 128 characters one by one.
- `eq_append_of_afterLetters?`: a word that is found in a text of small letters stands there.
- `afterLetters?_of_endsRun`: no word is found where there is no letter.
-/

namespace TapAudit.Text

/-! ## The first 128 characters -/

theorem of_lt {p : Char → Bool} (hall : ∀ n < 128, p (Char.ofNat n) = true) {c : Char}
    (h : c.toNat < 128) : p c = true := by
  have hc := hall c.toNat h
  rwa [Char.ofNat_toNat] at hc

theorem lt_of_isLower {c : Char} (h : c.isLower = true) : c.toNat < 128 := by
  have hrange : 97 ≤ c.toNat ∧ c.toNat ≤ 122 := by
    rw [Char.isLower, Bool.and_eq_true, decide_eq_true_eq, decide_eq_true_eq] at h
    exact h
  omega

theorem lt_of_isUpper {c : Char} (h : c.isUpper = true) : c.toNat < 128 := by
  have hrange : 65 ≤ c.toNat ∧ c.toNat ≤ 90 := of_decide_eq_true h
  omega

theorem lt_of_isAlpha {c : Char} (h : c.isAlpha = true) : c.toNat < 128 := by
  rcases Bool.or_eq_true_iff.mp h with h | h
  · exact lt_of_isUpper h
  · exact lt_of_isLower h

theorem lt_of_isDigit {c : Char} (h : c.isDigit = true) : c.toNat < 128 := by
  have hall : (tenDigits.all fun c => decide (c.toNat < 128)) = true := by decide
  exact of_decide_eq_true (of_isDigit hall h)

theorem lt_of_isAlphanum {c : Char} (h : c.isAlphanum = true) : c.toNat < 128 := by
  rcases Bool.or_eq_true_iff.mp h with h | h
  · exact lt_of_isAlpha h
  · exact lt_of_isDigit h

theorem isAlpha_of_isLower {c : Char} (h : c.isLower = true) : c.isAlpha = true := by
  rw [Char.isAlpha, h, Bool.or_true]

theorem isAlphanum_of_isAlpha {c : Char} (h : c.isAlpha = true) : c.isAlphanum = true := by
  rw [Char.isAlphanum, h, Bool.true_or]

theorem isAlphanum_of_isLower {c : Char} (h : c.isLower = true) : c.isAlphanum = true :=
  isAlphanum_of_isAlpha (isAlpha_of_isLower h)

theorem isAlphanum_of_isDigit {c : Char} (h : c.isDigit = true) : c.isAlphanum = true := by
  rw [Char.isAlphanum, h, Bool.or_true]

theorem isDigit_of_isAlpha {c : Char} (h : c.isAlpha = true) : isDigit c = false := by
  have hall : ∀ n < 128, (!(Char.ofNat n).isAlpha || !isDigit (Char.ofNat n)) = true := by decide
  simpa [h] using of_lt (p := fun c => !c.isAlpha || !isDigit c) hall (lt_of_isAlpha h)

/-! ## Letters in either case -/

theorem isLetter_of_isAlpha {c : Char} (h : c.isAlpha = true) : isLetter c = true := by
  rw [isLetter, h, Bool.true_or]

theorem isLetter_of_isDigit {c : Char} (h : c.isDigit = true) : isLetter c = false := by
  have hall : (tenDigits.all fun c => !isLetter c) = true := by decide
  simpa using of_isDigit hall h

theorem isLetter_of_isLetterCase {small c : Char} (hsmall : small.isLower = true)
    (h : isLetterCase small c = true) : isLetter c = true := by
  rcases Bool.or_eq_true_iff.mp h with h | h
  · apply isLetter_of_isAlpha
    rw [← Char.isLower_toLower_eq_isAlpha, eq_of_beq h]
    exact hsmall
  · have hmem : (c, small) ∈ specialCases := by simpa using h
    rw [isLetter, Bool.or_eq_true]
    exact .inr (List.any_eq_true.mpr ⟨_, hmem, beq_self_eq_true c⟩)

theorem eq_of_isLetterCase {small c : Char} (hc : c.isLower = true)
    (h : isLetterCase small c = true) : c = small := by
  rcases Bool.or_eq_true_iff.mp h with h | h
  · have hsame : c.toLower = c := Char.toLower_eq_of_not_isUpper (Char.not_isUpper_of_isLower hc)
    rw [← hsame, eq_of_beq h]
  · have hmem : (c, small) ∈ specialCases := by simpa using h
    have hall : ∀ entry ∈ specialCases, ¬ entry.1.isLower = true := by decide
    exact absurd hc (hall _ hmem)

theorem eq_append_of_afterLetters? {word text rest : List Char}
    (htext : ∀ c ∈ text, c.isLower = true) (h : afterLetters? word text = some rest) :
    text = word ++ rest := by
  induction word generalizing text with
  | nil => exact Option.some.inj h
  | cons small word ih =>
    cases text with
    | nil => cases h
    | cons c text =>
      rw [List.forall_mem_cons] at htext
      rw [afterLetters?] at h
      split at h
      · next hcase => rw [eq_of_isLetterCase htext.1 hcase, List.cons_append, ← ih htext.2 h]
      · cases h

theorem afterLetters?_of_endsRun (small : Char) (hsmall : small.isLower = true)
    {text : List Char} (htext : EndsRun isLetter text) (word : List Char) :
    afterLetters? (small :: word) text = none := by
  cases text with
  | nil => rfl
  | cons c text =>
    rw [afterLetters?, if_neg]
    intro hcase
    have hletter := isLetter_of_isLetterCase hsmall hcase
    rw [htext c rfl] at hletter
    cases hletter

end TapAudit.Text
