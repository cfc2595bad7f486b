import TapAudit.Number.Power

/-!
# Long numbers

A number of more than 4300 decimal digits is neither read nor written. What numbers stand for is
told for any length; here a result is made to depend on the numbers that have to be read or written
on the way to it, and the first of them that is too long is the fault.
-/

namespace TapAudit.Number

/-- How many digits a number may have to be read from decimal digits or written in them. -/
def mostDigits : Nat := 4300

/-- Why a number is not read or not written. -/
inductive Fault where
  /-- It stands there with so many digits. -/
  | reading (digits : Nat)
  /-- It would be written with too many. -/
  | writing
  deriving DecidableEq, Repr

def Fault.message : Fault → String
  | reading digits =>
    s!"Exceeds the limit ({mostDigits} digits) for integer string conversion: " ++
      s!"value has {digits} digits; use sys.set_int_max_str_digits() to increase the limit"
  | writing =>
    s!"Exceeds the limit ({mostDigits} digits) for integer string conversion; " ++
      "use sys.set_int_max_str_digits() to increase the limit"

/-- The run of digits is too long. Zeros in front count, a sign does not. -/
def isLongNumeral (digits : List Char) : Bool :=
  mostDigits < digits.length

/-- The integer has too many digits. -/
def isLong (n : Int) : Bool :=
  tenTo mostDigits ≤ n.natAbs

/-- What is made of numerals that are read one after the other. -/
def afterReading {α : Type} (numerals : List (List Char)) (value : α) : Except Fault α :=
  match numerals.find? isLongNumeral with
  | some digits => .error (.reading digits.length)
  | none => .ok value

/-- What is made of integers that are written. -/
def afterWriting {α : Type} (numbers : List Int) (value : α) : Except Fault α :=
  if numbers.any isLong then .error .writing else .ok value

end TapAudit.Number
