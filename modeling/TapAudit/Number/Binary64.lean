import TapAudit.Number.Power

/-!
# Double precision numbers

A finite double is a sign, an integer below 2^53 and a power of two not below 2^-1074. A quotient of
natural numbers is rounded to the nearest double, a tie to the one whose integer is even.
-/

namespace TapAudit.Number

/-- A double. -/
inductive Binary64 where
  /-- `m * 2 ^ e`, with a sign. -/
  | finite (negative : Bool) (m : Nat) (e : Int)
  | infinite (negative : Bool)
  | notANumber
  deriving DecidableEq, Repr

/-- The integer nearest to `n / d`, a tie going to the even one. -/
def roundDiv (n d : Nat) : Nat :=
  let q := n / d
  let r := n % d
  if 2 * r < d then q
  else if d < 2 * r then q + 1
  else if q % 2 = 0 then q else q + 1

/-- The quotient `n / (d * 2 ^ e)` as numerator and denominator. -/
def scaleDown (n d : Nat) (e : Int) : Nat × Nat :=
  if 0 ≤ e then (n, d * twoTo e.toNat) else (n * twoTo (-e).toNat, d)

namespace Binary64

/-- The double nearest to `n / d`, for positive `d`. -/
def ofQuotient (negative : Bool) (n d : Nat) : Binary64 :=
  if n = 0 then .finite negative 0 0
  else
    let guess : Int := (n.log2 : Int) - d.log2 - 52
    let (num, den) := scaleDown n d guess
    let e := max (if num < twoTo 52 * den then guess - 1 else guess) (-1074)
    let (num, den) := scaleDown n d e
    let m := roundDiv num den
    let (m, e) := if m = twoTo 53 then (twoTo 52, e + 1) else (m, e)
    if 971 < e then .infinite negative else .finite negative m e

/-- The double nearest to an integer. -/
def ofInt (n : Int) : Binary64 :=
  ofQuotient (n < 0) n.natAbs 1

/-- How many decimal digits a number has. -/
def digitCount (n : Nat) : Nat :=
  (Nat.toDigits 10 n).length

/-- The double nearest to `n * 10 ^ k`. Powers out of all reach are not computed. -/
def ofDecimal (negative : Bool) (n : Nat) (k : Int) : Binary64 :=
  if n = 0 then .finite negative 0 0
  else
    let size := digitCount n + k
    if 310 < size then .infinite negative
    else if size < -330 then .finite negative 0 0
    else if 0 ≤ k then ofQuotient negative (n * tenTo k.toNat) 1
    else ofQuotient negative n (tenTo (-k).toNat)

/-- The number is zero or less. What is not a number is neither. -/
def isNonPositive : Binary64 → Bool
  | finite negative m _ => negative || m == 0
  | infinite negative => negative
  | notANumber => false

end Binary64

end TapAudit.Number
