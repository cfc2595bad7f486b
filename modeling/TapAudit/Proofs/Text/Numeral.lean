import Mathlib.Data.List.Basic
import Mathlib.Tactic.IntervalCases
import TapAudit.Proofs.Number.Limit
import TapAudit.Proofs.Text.Lines
import TapAudit.Proofs.Text.Runs
import TapAudit.Text.Digit

/-!
# Numerals

Numbers written in decimal digits, with or without zeros in front, and several of them with dots
between.

- `numeral_digits`: a numeral is read as its value.
- `of_mem_dotted`: what holds of digits and dots holds of dotted numbers.
-/

namespace TapAudit.Text

/-- A number as it is written. -/
structure Numeral where
  digits : List Char
  ne_nil : digits ≠ []
  areDigits : ∀ c ∈ digits, c.isDigit = true

namespace Numeral

def value (n : Numeral) : Nat :=
  Nat.ofDigitChars 10 n.digits 0

/-- The numeral without zeros in front. -/
def ofNat (n : Nat) : Numeral where
  digits := decimal n
  ne_nil := Nat.toDigits_ne_nil
  areDigits _ h := Nat.isDigit_of_mem_toDigits (by decide) (by decide) h

@[simp] theorem value_ofNat (n : Nat) : (ofNat n).value = n :=
  Nat.ofDigitChars_toDigits (by decide) (by decide)

/-- One more digit than can be read. -/
def tooLong : Numeral where
  digits := List.replicate (Number.mostDigits + 1) '1'
  ne_nil := List.cons_ne_nil _ _
  areDigits _ h := List.eq_of_mem_replicate h ▸ rfl

theorem length_tooLong : tooLong.digits.length = Number.mostDigits + 1 :=
  List.length_replicate

theorem afterReading_tooLong {α : Type} (rest : List (List Char)) (value : α) :
    Number.afterReading (tooLong.digits :: rest) value = .error (.reading 4301) := by
  have hlong : Number.mostDigits < tooLong.digits.length :=
    Nat.lt_of_lt_of_eq (Nat.lt_succ_self _) length_tooLong.symm
  rw [Number.afterReading_cons_of_long hlong, length_tooLong]
  rfl

end Numeral

/-! ## Digits -/

def tenDigits : List Char :=
  "0123456789".toList

theorem mem_tenDigits {c : Char} (h : c.isDigit = true) : c ∈ tenDigits := by
  have hrange : 48 ≤ c.toNat ∧ c.toNat ≤ 57 := by
    rw [Char.isDigit, Bool.and_eq_true, decide_eq_true_eq, decide_eq_true_eq] at h
    exact h
  have hchar : c = Char.ofNat c.toNat := (Char.ofNat_toNat c).symm
  obtain ⟨hlow, hhigh⟩ := hrange
  rw [hchar]
  interval_cases c.toNat <;> decide

theorem of_isDigit {p : Char → Bool} (hall : tenDigits.all p = true) {c : Char}
    (h : c.isDigit = true) : p c = true :=
  List.all_eq_true.mp hall c (mem_tenDigits h)

theorem digitValue?_of_isDigit {c : Char} (h : c.isDigit = true) :
    digitValue? c = some (c.toNat - '0'.toNat) := by
  have hall : (tenDigits.all fun c => digitValue? c == some (c.toNat - '0'.toNat)) = true := by
    decide
  exact eq_of_beq (of_isDigit hall h)

theorem isDigit_of_isDigit {c : Char} (h : c.isDigit = true) : isDigit c = true := by
  rw [isDigit, digitValue?_of_isDigit h]
  rfl

theorem numeral_eq_foldl {digits : List Char} (h : ∀ c ∈ digits, c.isDigit = true) :
    numeral digits = Nat.ofDigitChars 10 digits 0 := by
  refine List.foldl_ext _ _ _ fun n c hc => ?_
  rw [digitValue?_of_isDigit (h c hc), Option.getD_some]

theorem numeral_digits (n : Numeral) : numeral n.digits = n.value :=
  numeral_eq_foldl n.areDigits

theorem getD_digitValue?_lt (c : Char) : (digitValue? c).getD 0 < 10 := by
  unfold digitValue?
  split_ifs with hnarrow hdigit
  · have hzero : '0'.toNat = 48 := rfl
    have hnine : '9'.toNat = 57 := rfl
    rw [Option.getD_some]
    omega
  · decide
  · generalize hfind : List.find? _ _ = zero
    cases zero with
    | none => exact Nat.succ_pos 9
    | some z =>
      have hrange := List.find?_some hfind
      rw [Bool.and_eq_true, decide_eq_true_eq, decide_eq_true_eq] at hrange
      rw [Option.map_some, Option.getD_some]
      omega

theorem numeral_lt_tenTo (digits : List Char) : numeral digits < Number.tenTo digits.length := by
  have hfold (n : Nat) : digits.foldl (fun n c => 10 * n + (digitValue? c).getD 0) n <
      (n + 1) * Number.tenTo digits.length := by
    induction digits generalizing n with
    | nil => exact (Nat.lt_succ_self n).trans_eq (Nat.mul_one _).symm
    | cons c digits ih =>
      have hdigit := getD_digitValue?_lt c
      have hstep : 10 * n + (digitValue? c).getD 0 + 1 ≤ (n + 1) * 10 := by omega
      rw [List.length_cons, Number.tenTo_succ, Nat.mul_comm _ 10, ← Nat.mul_assoc]
      exact (ih _).trans_le (Nat.mul_le_mul_right _ hstep)
  exact (hfold 0).trans_eq (by rw [Nat.zero_add, Nat.one_mul])

theorem isWritable_numeral {digits : List Char} (h : digits.length ≤ Number.mostDigits) :
    Number.IsWritable (numeral digits) := by
  rw [Number.IsWritable, Int.natAbs_natCast]
  exact (numeral_lt_tenTo digits).trans_le (Number.tenTo_le_tenTo h)

/-! ## Dotted numbers -/

/-- The numbers that follow another one, each after a dot. -/
def dottedRest (numbers : List Numeral) : List Char :=
  numbers.flatMap fun n => '.' :: n.digits

/-- Numbers with dots between them. -/
def dotted (numbers : List Numeral) : List Char :=
  joinWith ['.'] (numbers.map Numeral.digits)

theorem dottedRest_cons (n : Numeral) (numbers : List Numeral) :
    dottedRest (n :: numbers) = '.' :: (n.digits ++ dottedRest numbers) := by
  rw [dottedRest, List.flatMap_cons, List.cons_append, dottedRest]

theorem dotted_cons (n : Numeral) (numbers : List Numeral) :
    dotted (n :: numbers) = n.digits ++ dottedRest numbers := by
  rw [dotted]
  induction numbers generalizing n with
  | nil => exact (List.append_nil _).symm
  | cons m numbers ih =>
    have htail := ih m
    rw [List.map_cons] at htail
    rw [List.map_cons, List.map_cons, joinWith, htail, dottedRest_cons, List.append_assoc,
      List.singleton_append]
    exact fun h => absurd h (by simp)

theorem dotted_tooLong_ne : dotted [.tooLong] ≠ dotted [.ofNat 2] := by
  intro h
  have hlength : Numeral.tooLong.digits.length = (Numeral.ofNat 2).digits.length :=
    congrArg List.length h
  rw [Numeral.length_tooLong] at hlength
  exact absurd hlength (by decide)

theorem length_le_dottedRest (numbers : List Numeral) :
    numbers.length ≤ (dottedRest numbers).length := by
  induction numbers with
  | nil => exact Nat.le_refl 0
  | cons n numbers ih =>
    rw [dottedRest_cons, List.length_cons, List.length_cons, List.length_append]
    omega

theorem of_mem_dotted {p : Char → Bool} (hall : ('.' :: tenDigits).all p = true)
    {numbers : List Numeral} : ∀ c ∈ dotted numbers, p c = true := by
  rw [List.all_cons, Bool.and_eq_true] at hall
  refine of_mem_joinWith hall.1 fun part hpart c hc => ?_
  obtain ⟨n, -, rfl⟩ := List.mem_map.mp hpart
  exact of_isDigit hall.2 (n.areDigits c hc)

theorem endsRun_dottedRest {p : Char → Bool} (hdot : p '.' = false) (numbers : List Numeral)
    {rest : List Char} (hrest : EndsRun p rest) : EndsRun p (dottedRest numbers ++ rest) := by
  cases numbers with
  | nil => exact hrest
  | cons n numbers =>
    rw [dottedRest_cons]
    exact endsRun_cons hdot _

end TapAudit.Text
