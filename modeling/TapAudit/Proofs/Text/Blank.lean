import Mathlib.Data.List.DropRight
import Mathlib.Tactic.Common
import TapAudit.Text.Blank
import TapAudit.Text.Word

/-!
# Blanks around a text

`strip_strip`: stripping twice is stripping once. `strip_eq_self`: a text that neither starts nor
ends with a blank is left alone, and `strip_blanks_append`: blanks put in front of it are dropped.
`infix_strip_iff`: a mark with no blank at its ends stays. `inked_strip`: nothing else than blanks
is stripped off.
-/

namespace TapAudit.Text

/-! ## Blanks and words -/

theorem of_inRanges {ranges : List (Nat × Nat)} {p : Nat → Bool} {n : Nat}
    (hall : (ranges.all fun r => (List.range' r.1 (r.2 + 1 - r.1)).all p) = true)
    (h : inRanges ranges n = true) : p n = true := by
  obtain ⟨⟨first, last⟩, hmem, hn⟩ := List.any_eq_true.mp h
  simp only [Bool.and_eq_true, decide_eq_true_eq] at hn
  have hrange := List.all_eq_true.mp (List.all_eq_true.mp hall _ hmem)
  refine hrange n (List.mem_range'_1.mpr ?_)
  omega

theorem isWord_of_isBlank {c : Char} (h : isBlank c = true) : isWord c = false := by
  have hall := of_inRanges (p := fun n => !isWord (Char.ofNat n)) (by decide +kernel) h
  rwa [Char.ofNat_toNat, Bool.not_eq_true'] at hall

theorem isBlank_of_isWord {c : Char} (h : isWord c = true) : isBlank c = false := by
  cases hblank : isBlank c with
  | false => rfl
  | true => rw [isWord_of_isBlank hblank] at h; cases h

theorem isWord_of_isAlphanum {c : Char} (h : c.isAlphanum = true) : isWord c = true := by
  simp [isWord, isAlnum, h]

theorem isWord_of_isAlpha {c : Char} (h : c.isAlpha = true) : isWord c = true :=
  isWord_of_isAlphanum (by simp [Char.isAlphanum, h])

theorem isWord_of_isLower {c : Char} (h : c.isLower = true) : isWord c = true :=
  isWord_of_isAlpha (Bool.or_eq_true_iff.mpr (.inr h))

theorem isWord_of_isUpper {c : Char} (h : c.isUpper = true) : isWord c = true :=
  isWord_of_isAlpha (Bool.or_eq_true_iff.mpr (.inl h))

theorem isWord_of_isDigit {c : Char} (h : c.isDigit = true) : isWord c = true :=
  isWord_of_isAlphanum (by simp [Char.isAlphanum, h])

theorem isWord_underscore : isWord '_' = true := by decide

/-! ## Stripping -/

theorem stripStart_cons_of_blank {c : Char} (h : isBlank c = true) (text : List Char) :
    stripStart (c :: text) = stripStart text := by
  simp [stripStart, h]

theorem stripStart_cons {c : Char} (h : isBlank c = false) (text : List Char) :
    stripStart (c :: text) = c :: text := by
  simp [stripStart, h]

theorem stripStart_blanks_append {blanks : List Char} (h : ∀ c ∈ blanks, isBlank c = true)
    (text : List Char) : stripStart (blanks ++ text) = stripStart text := by
  induction blanks with
  | nil => rfl
  | cons c blanks ih =>
    rw [List.cons_append, stripStart_cons_of_blank (h c (by simp))]
    exact ih fun d hd => h d (by simp [hd])

theorem stripStart_append (text more : List Char) :
    stripStart (text ++ more) =
      if stripStart text = [] then stripStart more else stripStart text ++ more := by
  rw [stripStart, List.dropWhile_append]
  by_cases h : stripStart text = []
  · exact (if_pos (List.isEmpty_iff.mpr h)).trans (if_pos h).symm
  · exact (if_neg (mt List.isEmpty_iff.mp h)).trans (if_neg h).symm

theorem isBlank_head_stripStart {text rest : List Char} {c : Char}
    (h : stripStart text = c :: rest) : isBlank c = false := by
  induction text with
  | nil => simp [stripStart] at h
  | cons d text ih =>
    cases hd : isBlank d with
    | true => exact ih (by rwa [stripStart_cons_of_blank hd] at h)
    | false =>
      rw [stripStart_cons hd, List.cons.injEq] at h
      rw [← h.1, hd]

theorem strip_strip (text : List Char) : strip (strip text) = strip text := by
  have hstarts : strip text <+: stripStart text := List.rdropWhile_prefix isBlank _
  have hstart : stripStart (strip text) = strip text := by
    cases hstrip : strip text with
    | nil => rfl
    | cons c rest =>
      rw [hstrip] at hstarts
      obtain ⟨tail, htail⟩ := hstarts
      exact stripStart_cons (isBlank_head_stripStart htail.symm) rest
  change stripEnd (stripStart (strip text)) = strip text
  rw [hstart]
  exact List.rdropWhile_idempotent isBlank _

theorem strip_blanks_append {blanks : List Char} (h : ∀ c ∈ blanks, isBlank c = true)
    (text : List Char) : strip (blanks ++ text) = strip text := by
  rw [strip, strip, stripStart_blanks_append h]

theorem stripEnd_append_blanks (text : List Char) {blanks : List Char}
    (h : ∀ c ∈ blanks, isBlank c = true) : stripEnd (text ++ blanks) = stripEnd text := by
  rw [stripEnd, stripEnd, List.reverse_append,
    List.dropWhile_append_of_pos fun c hc => h c (List.mem_reverse.mp hc)]

theorem rdropWhile_cons {α : Type} (p : α → Bool) (a : α) (l : List α) :
    (a :: l).rdropWhile p =
      if p a = true ∧ l.rdropWhile p = [] then [] else a :: l.rdropWhile p := by
  rw [List.rdropWhile, List.rdropWhile, List.reverse_cons, List.dropWhile_append]
  cases hrest : l.reverse.dropWhile p with
  | nil => cases ha : p a <;> simp [ha]
  | cons b rest => simp

theorem stripEnd_cons_eq (c : Char) (text : List Char) :
    stripEnd (c :: text) =
      if isBlank c = true ∧ stripEnd text = [] then [] else c :: stripEnd text :=
  rdropWhile_cons isBlank c text

theorem stripEnd_cons {c : Char} (h : isBlank c = false) (text : List Char) :
    stripEnd (c :: text) = c :: stripEnd text := by
  rw [stripEnd_cons_eq, if_neg (by simp [h])]

theorem stripEnd_append_cons {c : Char} (h : isBlank c = false) (front text : List Char) :
    stripEnd (front ++ c :: text) = front ++ c :: stripEnd text := by
  induction front with
  | nil => exact stripEnd_cons h text
  | cons d front ih => rw [List.cons_append, stripEnd_cons_eq, ih, if_neg (by simp)]; rfl

theorem strip_eq_stripStart_stripEnd (text : List Char) :
    strip text = stripStart (stripEnd text) := by
  induction text with
  | nil => rfl
  | cons c text ih =>
    cases hc : isBlank c with
    | false =>
      rw [strip, stripStart_cons hc, stripEnd_cons hc, stripStart_cons hc]
    | true =>
      rw [strip, stripStart_cons_of_blank hc, ← strip, ih, stripEnd_cons_eq]
      split
      · next h => rw [h.2]
      · rw [stripStart_cons_of_blank hc]

theorem isBlank_or_mem_stripEnd {text : List Char} {c : Char} (h : c ∈ text) :
    isBlank c = true ∨ c ∈ stripEnd text := by
  induction text with
  | nil => cases h
  | cons d text ih =>
    rw [stripEnd_cons_eq]
    split
    · next hall =>
      rcases List.mem_cons.mp h with rfl | h
      · exact .inl hall.1
      · simpa [hall.2] using ih h
    · rcases List.mem_cons.mp h with rfl | h
      · exact .inr List.mem_cons_self
      · exact (ih h).imp_right (List.mem_cons_of_mem d)

theorem isBlank_or_mem_strip {text : List Char} {c : Char} (h : c ∈ text) :
    isBlank c = true ∨ c ∈ strip text := by
  rw [← List.takeWhile_append_dropWhile (p := isBlank) (l := text)] at h
  rcases List.mem_append.mp h with h | h
  · exact .inl (List.mem_takeWhile_imp h)
  · exact isBlank_or_mem_stripEnd h

theorem strip_append_blanks (text : List Char) {blanks : List Char}
    (h : ∀ c ∈ blanks, isBlank c = true) : strip (text ++ blanks) = strip text := by
  induction text with
  | nil => simpa using strip_blanks_append h []
  | cons c text ih =>
    rw [strip, strip, List.cons_append]
    cases hc : isBlank c with
    | true =>
      rw [stripStart_cons_of_blank hc, stripStart_cons_of_blank hc]
      exact ih
    | false =>
      rw [stripStart_cons hc, stripStart_cons hc, ← List.cons_append]
      exact stripEnd_append_blanks (c :: text) h

theorem strip_eq_self {text : List Char} (hhead : ∀ c, text.head? = some c → isBlank c = false)
    (hlast : ∀ c, text.getLast? = some c → isBlank c = false) : strip text = text := by
  have hstart : stripStart text = text := by
    cases text with
    | nil => rfl
    | cons c rest => exact stripStart_cons (hhead c rfl) rest
  rw [strip, hstart]
  refine List.rdropWhile_eq_self_iff.mpr fun hne => ?_
  rw [hlast _ (List.getLast?_eq_getLast_of_ne_nil hne)]
  exact Bool.false_ne_true

/-! ## Marks in a text -/

theorem infix_stripStart_iff {mark text : List Char}
    (hhead : ∀ c, mark.head? = some c → isBlank c = false) :
    mark <:+: stripStart text ↔ mark <:+: text := by
  induction text with
  | nil => rfl
  | cons c text ih =>
    cases hc : isBlank c with
    | false => rw [stripStart_cons hc]
    | true =>
      rw [stripStart_cons_of_blank hc, ih, List.infix_cons_iff]
      refine (or_iff_right_of_imp fun hstarts => ?_).symm
      cases mark with
      | nil => exact List.nil_infix
      | cons d mark =>
        obtain ⟨rfl, -⟩ := List.cons_prefix_cons.mp hstarts
        rw [hhead d rfl] at hc
        cases hc

/-- A mark without blanks at its ends is not lost with the blanks around a text. -/
theorem infix_strip_iff {mark text : List Char}
    (hhead : ∀ c, mark.head? = some c → isBlank c = false)
    (hlast : ∀ c, mark.getLast? = some c → isBlank c = false) :
    mark <:+: strip text ↔ mark <:+: text := by
  have hend : mark.reverse <:+: stripStart (stripStart text).reverse ↔
      mark.reverse <:+: (stripStart text).reverse :=
    infix_stripStart_iff (by simpa using hlast)
  rw [List.reverse_infix, ← List.reverse_infix, List.reverse_reverse] at hend
  exact hend.trans (infix_stripStart_iff hhead)

/-! ## What is not blank -/

/-- A text without its blanks. -/
def inked (text : List Char) : List Char :=
  text.filter fun c => !isBlank c

theorem inked_stripStart (text : List Char) : inked (stripStart text) = inked text := by
  induction text with
  | nil => rfl
  | cons c text ih =>
    cases hc : isBlank c with
    | true =>
      rw [stripStart_cons_of_blank hc, ih, inked, inked, List.filter_cons_of_neg (by simp [hc])]
    | false => rw [stripStart_cons hc]

theorem inked_strip (text : List Char) : inked (strip text) = inked text := by
  have hend : inked (stripEnd (stripStart text)) = inked (stripStart text) := by
    have hreverse := inked_stripStart (stripStart text).reverse
    rw [inked, inked, List.filter_reverse] at hreverse
    rw [stripEnd, inked, List.filter_reverse]
    exact List.reverse_eq_iff.mpr hreverse
  rw [strip, hend, inked_stripStart]

theorem mem_strip_iff {c : Char} (hc : isBlank c = false) {text : List Char} :
    c ∈ strip text ↔ c ∈ text := by
  have hinked : c ∈ inked (strip text) ↔ c ∈ inked text := by rw [inked_strip]
  simpa [inked, hc] using hinked

end TapAudit.Text
