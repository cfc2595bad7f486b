import Mathlib.Data.List.Basic
import TapAudit.Number.Limit

/-!
# Results that depend on numbers

A result is had exactly if every number on the way to it is short enough, and then it is the result
without the limit. Otherwise the first numeral that is too long is the fault.

- `afterReading_eq_ok_iff`: results after numerals have been read.
- `afterReading_eq_error_iff`: which numeral is the fault.
- `afterWriting_eq_ok_iff`: results after integers have been written.
-/

namespace TapAudit.Number

variable {α β : Type}

/-- All of the numerals are short enough to be read. -/
def AreReadable (numerals : List (List Char)) : Prop :=
  ∀ digits ∈ numerals, digits.length ≤ mostDigits

/-- The integer is small enough to be written. -/
def IsWritable (n : Int) : Prop :=
  n.natAbs < tenTo mostDigits

instance (n : Int) : Decidable (IsWritable n) :=
  inferInstanceAs (Decidable (n.natAbs < tenTo mostDigits))

instance (numerals : List (List Char)) : Decidable (AreReadable numerals) :=
  inferInstanceAs (Decidable (∀ digits ∈ numerals, digits.length ≤ mostDigits))

theorem isLongNumeral_eq_false_iff {digits : List Char} :
    isLongNumeral digits = false ↔ digits.length ≤ mostDigits := by
  rw [isLongNumeral, decide_eq_false_iff_not, Nat.not_lt]

theorem isLong_eq_false_iff {n : Int} : isLong n = false ↔ IsWritable n := by
  rw [isLong, decide_eq_false_iff_not, Nat.not_le, IsWritable]

theorem find?_isLongNumeral_eq_none_iff {numerals : List (List Char)} :
    numerals.find? isLongNumeral = none ↔ AreReadable numerals := by
  rw [List.find?_eq_none]
  exact forall₂_congr fun digits _ => by rw [Bool.not_eq_true, isLongNumeral_eq_false_iff]

theorem areReadable_append {a b : List (List Char)} :
    AreReadable (a ++ b) ↔ AreReadable a ∧ AreReadable b :=
  List.forall_mem_append

theorem afterReading_eq_ok_iff {numerals : List (List Char)} {value result : α} :
    afterReading numerals value = .ok result ↔ AreReadable numerals ∧ value = result := by
  rw [← find?_isLongNumeral_eq_none_iff, afterReading]
  cases numerals.find? isLongNumeral <;> simp

theorem afterReading_succeeds_iff {numerals : List (List Char)} {value : α} :
    (∃ result, afterReading numerals value = .ok result) ↔ AreReadable numerals := by
  simp only [afterReading_eq_ok_iff, exists_and_left, exists_eq', and_true]

theorem afterReading_of_readable {numerals : List (List Char)} (h : AreReadable numerals)
    (value : α) : afterReading numerals value = .ok value :=
  afterReading_eq_ok_iff.mpr ⟨h, rfl⟩

theorem afterReading_eq_error_iff {numerals : List (List Char)} {value : α} {fault : Fault} :
    afterReading numerals value = .error fault ↔
      ∃ digits, numerals.find? isLongNumeral = some digits ∧ fault = .reading digits.length := by
  rw [afterReading]
  cases numerals.find? isLongNumeral <;> simp [eq_comm]

/-- The fault does not depend on what the numerals are read for. -/
theorem afterReading_of_not_readable {numerals : List (List Char)} (h : ¬ AreReadable numerals) :
    ∃ fault, ∀ value : α, afterReading numerals value = .error fault := by
  obtain ⟨digits, hdigits⟩ :=
    Option.ne_none_iff_exists'.mp (mt find?_isLongNumeral_eq_none_iff.mp h)
  exact ⟨.reading digits.length, fun value => afterReading_eq_error_iff.mpr ⟨digits, hdigits, rfl⟩⟩

theorem afterReading_cons_of_long {digits : List Char} (h : mostDigits < digits.length)
    (rest : List (List Char)) (value : α) :
    afterReading (digits :: rest) value = .error (.reading digits.length) :=
  afterReading_eq_error_iff.mpr ⟨digits, List.find?_cons_of_pos (decide_eq_true h), rfl⟩

theorem afterReading_map {numerals : List (List Char)} {value : α} (f : α → β) :
    (afterReading numerals value).map f = afterReading numerals (f value) := by
  rw [afterReading, afterReading]
  cases numerals.find? isLongNumeral <;> rfl

theorem afterWriting_eq_ok_iff {numbers : List Int} {value result : α} :
    afterWriting numbers value = .ok result ↔ (∀ n ∈ numbers, IsWritable n) ∧ value = result := by
  have hany : numbers.any isLong = false ↔ ∀ n ∈ numbers, IsWritable n := by
    rw [List.any_eq_false]
    exact forall₂_congr fun n _ => by rw [Bool.not_eq_true, isLong_eq_false_iff]
  rw [afterWriting, ← hany]
  cases numbers.any isLong <;> simp

theorem afterWriting_cons_of_long {n : Int} (h : ¬ IsWritable n) (rest : List Int) (value : α) :
    afterWriting (n :: rest) value = .error .writing := by
  have hlong : isLong n = true := by
    rw [← Bool.not_eq_false, isLong_eq_false_iff]
    exact h
  rw [afterWriting, List.any_cons, hlong, Bool.true_or, if_pos rfl]

theorem not_isWritable_tenTo : ¬ IsWritable (tenTo mostDigits) := by
  rw [IsWritable, Int.natAbs_natCast]
  exact Nat.lt_irrefl _

end TapAudit.Number
