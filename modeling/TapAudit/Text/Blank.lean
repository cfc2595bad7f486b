import TapAudit.Text.Ranges

/-!
# Blanks

The white space of every script, together with the separators among the control characters.
-/

namespace TapAudit.Text

/-- White space: tabs, line ends, separators, and spaces of any width. -/
def isBlank (c : Char) : Bool :=
  inRanges
    [(0x09, 0x0D), (0x1C, 0x20), (0x85, 0x85), (0xA0, 0xA0), (0x1680, 0x1680), (0x2000, 0x200A),
     (0x2028, 0x2029), (0x202F, 0x202F), (0x205F, 0x205F), (0x3000, 0x3000)] c.toNat

/-- A text without the blanks at its start. -/
def stripStart (text : List Char) : List Char :=
  text.dropWhile isBlank

/-- A text without the blanks at its end. -/
def stripEnd (text : List Char) : List Char :=
  (text.reverse.dropWhile isBlank).reverse

/-- A text without the blanks around it. -/
def strip (text : List Char) : List Char :=
  stripEnd (stripStart text)

end TapAudit.Text
