import TapAudit.Number.Binary64
import TapAudit.Text.Blank
import TapAudit.Text.Digit

/-!
# Reading a number

A number is written with digits of any script, a point and an exponent, or as an infinity or as no
number at all. Blanks around it are ignored, and underscores may stand between two digits.
-/

namespace TapAudit.Number

open Text

/-- Digits and blanks of all scripts in plain form. Other characters beyond the first 127 stand for
nothing a number is made of. -/
def plainForm (text : List Char) : List Char :=
  if text.all (·.toNat < 128) then text
  else
    text.map fun c =>
      if c.toNat < 127 then c
      else if isBlank c then ' '
      else
        match digitValue? c with
        | some d => Char.ofNat ('0'.toNat + d)
        | none => '?'

/-- The text without underscores, each of which has to stand between two digits. -/
def withoutUnderscores? (before : Char) : List Char → Option (List Char)
  | [] => if before = '_' then none else some []
  | c :: rest =>
    if c = '_' then if before.isDigit then withoutUnderscores? c rest else none
    else if before = '_' ∧ !c.isDigit then none
    else (withoutUnderscores? c rest).map (c :: ·)

/-- A sign in front of a text; none counts as plus. -/
def sign : List Char → Bool × List Char
  | '-' :: rest => (true, rest)
  | '+' :: rest => (false, rest)
  | text => (false, text)

/-- The number that plain digits write. -/
def ofDigits (digits : List Char) : Nat :=
  digits.foldl (fun n c => 10 * n + (c.toNat - '0'.toNat)) 0

/-- A decimal number without its sign. -/
def decimal? (negative : Bool) (text : List Char) : Option Binary64 := do
  let whole := text.takeWhile Char.isDigit
  let rest := text.dropWhile Char.isDigit
  let (fraction, rest) :=
    match rest with
    | '.' :: tail => (tail.takeWhile Char.isDigit, tail.dropWhile Char.isDigit)
    | _ => ([], rest)
  guard !(whole ++ fraction).isEmpty
  let n := ofDigits (whole ++ fraction)
  match rest with
  | [] => pure (.ofDecimal negative n (-fraction.length))
  | c :: tail =>
    guard (c = 'e' ∨ c = 'E')
    let (down, digits) := sign tail
    guard (!digits.isEmpty && digits.all Char.isDigit)
    let shift : Int := if down then -(ofDigits digits) else ofDigits digits
    pure (.ofDecimal negative n (shift - fraction.length))

/-- The blanks that may stand around a number in plain form. -/
private def isPlainBlank (c : Char) : Bool :=
  c == ' ' || (0x09 ≤ c.toNat && c.toNat ≤ 0x0D)

/-- The double that a text writes. -/
def Binary64.ofText? (text : List Char) : Option Binary64 := do
  let trimmed := (plainForm text).dropWhile isPlainBlank
  let trimmed := (trimmed.reverse.dropWhile isPlainBlank).reverse
  let (negative, rest) := sign (← withoutUnderscores? '\x00' trimmed)
  let word := String.ofList (rest.map Char.toLower)
  if word == "inf" || word == "infinity" then pure (.infinite negative)
  else if word == "nan" then pure .notANumber
  else decimal? negative rest

end TapAudit.Number
