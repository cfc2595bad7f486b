import TapAudit.Number.Binary64

/-!
# The shortest text of a double

A double is written with the fewest decimal digits that are read back as it, and among those with
the digits nearest to it. Large and small numbers are written with an exponent.
-/

namespace TapAudit.Number.Binary64

/-- The reals that are rounded to a double, and the double itself, over one denominator. -/
structure Interval where
  low : Nat
  middle : Nat
  high : Nat
  denominator : Nat
  /-- The ends belong to the interval. -/
  isClosed : Bool
  deriving Repr

/-- The interval around `m * 2 ^ e`. Below a power of two doubles are closer to each other. -/
def Interval.around (m : Nat) (e : Int) : Interval :=
  let gap := if m = twoTo 52 ∧ -1074 < e then 1 else 2
  let up := twoTo (e - 2).toNat
  { low := (4 * m - gap) * up
    middle := 4 * m * up
    high := (4 * m + 2) * up
    denominator := twoTo (2 - e).toNat
    isClosed := m % 2 = 0 }

def Interval.inUnits (i : Interval) (k : Int) : Interval :=
  let up := tenTo (-k).toNat
  { i with
    low := i.low * up
    middle := i.middle * up
    high := i.high * up
    denominator := i.denominator * tenTo k.toNat }

/-- An integer lies in the interval. -/
def Interval.holds (i : Interval) (n : Nat) : Bool :=
  let x := n * i.denominator
  if i.isClosed then i.low ≤ x && x ≤ i.high else i.low < x && x < i.high

/-- The integer in the interval next to its middle, if there is one. -/
def Interval.nearest? (i : Interval) : Option Nat :=
  let below := i.middle / i.denominator
  let above := below + 1
  match i.holds below, i.holds above with
  | false, false => none
  | true, false => some below
  | false, true => some above
  | true, true => some (roundDiv i.middle i.denominator)

/-- The number of digits before the point of `n / d`; zero or less if it is below one. -/
def pointPosition (n d : Nat) : Int :=
  if d ≤ n then digitCount (n / d)
  else
    let zeros := (List.range 400).find? fun j => d ≤ n * tenTo (j + 1)
    Int.negOfNat (zeros.getD 0)

/-- The digits of a positive double and the position of the point in front of them. -/
def shortestDigits (m : Nat) (e : Int) : List Char × Int :=
  let interval := Interval.around m e
  let point := pointPosition interval.middle interval.denominator
  let found := (List.range 17).findSome? fun (n : Nat) =>
    (interval.inUnits (point - (n + 1))).nearest?.map (n + 1, ·)
  let (size, value) := found.getD (1, 0)
  let digits := Nat.toDigits 10 value
  let point := point + digits.length - size
  ((digits.reverse.dropWhile (· == '0')).reverse, point)

private def zeros (n : Nat) : List Char :=
  List.replicate n '0'

/-- Digits with a point, or with an exponent if the point is far away from them. -/
def layout (digits : List Char) (point : Int) : List Char :=
  let count := digits.length
  if -4 < point ∧ point ≤ 16 then
    if point ≤ 0 then '0' :: '.' :: (zeros (-point).toNat ++ digits)
    else if count ≤ point.toNat then digits ++ zeros (point.toNat - count) ++ ['.', '0']
    else digits.take point.toNat ++ '.' :: digits.drop point.toNat
  else
    let exponent := point - 1
    let size := Nat.toDigits 10 exponent.natAbs
    digits.take 1 ++ (if count = 1 then [] else '.' :: digits.drop 1) ++
      'e' :: (if exponent < 0 then '-' else '+') :: (zeros (2 - size.length) ++ size)

def text : Binary64 → List Char
  | notANumber => "nan".toList
  | infinite negative => (if negative then "-inf" else "inf").toList
  | finite negative m e =>
    let sign := if negative then ['-'] else []
    if m = 0 then sign ++ "0.0".toList
    else
      let (digits, point) := shortestDigits m e
      sign ++ layout digits point

end TapAudit.Number.Binary64
