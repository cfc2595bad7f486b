import TapAudit.Text.Printable

/-!
# Quoted text

The form of a text in messages that show it exactly: between quotes, with escapes for the quote,
the backslash and everything that has no visible form.
-/

namespace TapAudit.Text

/-- `n` in base sixteen, with zeros in front up to `width` digits. -/
def hex (width n : Nat) : List Char :=
  let digits := Nat.toDigits 16 n
  List.replicate (width - digits.length) '0' ++ digits

/-- One character of a text quoted by `mark`. -/
def escapeChar (mark c : Char) : List Char :=
  if c = mark ∨ c = '\\' then ['\\', c]
  else if c = '\t' then ['\\', 't']
  else if c = '\n' then ['\\', 'n']
  else if c = '\r' then ['\\', 'r']
  else if isPrintable c then [c]
  else if c.toNat < 0x100 then '\\' :: 'x' :: hex 2 c.toNat
  else if c.toNat < 0x10000 then '\\' :: 'u' :: hex 4 c.toNat
  else '\\' :: 'U' :: hex 8 c.toNat

/-- Apostrophes quote a text, unless it holds an apostrophe and no quotation mark. -/
def quoteMark (text : List Char) : Char :=
  if text.contains '\'' && !text.contains '"' then '"' else '\''

/-- A text between quotes. -/
def quote (text : List Char) : List Char :=
  let mark := quoteMark text
  mark :: (text.flatMap (escapeChar mark) ++ [mark])

end TapAudit.Text
