import TapAudit.Text.Quoted

/-!
# UTF-8

Octets are read one at a time. A sequence that cannot be completed is malformed up to the octet
that rules it out, and reading starts again at that octet. Strict decoding stops at the first
malformed sequence; lenient decoding puts one replacement character in its place.
-/

namespace TapAudit.Text.Utf8

/-- Why a sequence of octets is malformed. -/
inductive Cause where
  /-- No character starts with this octet. -/
  | start
  /-- The next octet cannot go on with the sequence. -/
  | continuation
  /-- The octets end within the sequence. -/
  | truncated
  deriving DecidableEq, Repr

/-- What a run of octets stands for. -/
inductive Piece where
  /-- A character, and how many octets write it. -/
  | char (c : Char) (size : Nat)
  /-- A malformed sequence: its first octet, its length, and why it is malformed. -/
  | malformed (first : UInt8) (size : Nat) (cause : Cause)
  deriving DecidableEq, Repr

/-- A sequence that is not complete yet. -/
structure Pending where
  /-- Its first octet. -/
  first : UInt8
  /-- How many octets have been read. -/
  size : Nat
  /-- The bits of the code point read so far. -/
  bits : Nat
  /-- How many octets are owed. -/
  owed : Nat
  /-- The least octet that may come next. -/
  low : Nat
  /-- The greatest octet that may come next. -/
  high : Nat
  deriving Repr

/-- The sequence that an octet opens, if it opens one of several octets. -/
def Pending.opened? (b : UInt8) : Option Pending :=
  let n := b.toNat
  if 0xC2 ≤ n ∧ n ≤ 0xDF then some ⟨b, 1, n - 0xC0, 1, 0x80, 0xBF⟩
  else if n = 0xE0 then some ⟨b, 1, 0, 2, 0xA0, 0xBF⟩
  else if n = 0xED then some ⟨b, 1, 0xD, 2, 0x80, 0x9F⟩
  else if 0xE1 ≤ n ∧ n ≤ 0xEF then some ⟨b, 1, n - 0xE0, 2, 0x80, 0xBF⟩
  else if n = 0xF0 then some ⟨b, 1, 0, 3, 0x90, 0xBF⟩
  else if n = 0xF4 then some ⟨b, 1, 4, 3, 0x80, 0x8F⟩
  else if 0xF1 ≤ n ∧ n ≤ 0xF3 then some ⟨b, 1, n - 0xF0, 3, 0x80, 0xBF⟩
  else none

/-- Reads an octet between two characters. -/
def begin (b : UInt8) : List Piece × Option Pending :=
  if b.toNat < 0x80 then ([.char (Char.ofNat b.toNat) 1], none)
  else
    match Pending.opened? b with
    | some p => ([], some p)
    | none => ([.malformed b 1 .start], none)

/-- Reads an octet in the middle of a character. -/
def Pending.next (p : Pending) (b : UInt8) : List Piece × Option Pending :=
  if p.low ≤ b.toNat ∧ b.toNat ≤ p.high then
    let bits := 64 * p.bits + (b.toNat - 0x80)
    if p.owed = 1 then ([.char (Char.ofNat bits) (p.size + 1)], none)
    else ([], some ⟨p.first, p.size + 1, bits, p.owed - 1, 0x80, 0xBF⟩)
  else
    let (pieces, pending) := begin b
    (.malformed p.first p.size .continuation :: pieces, pending)

/-- Reads octets, with a sequence pending or none. -/
def piecesFrom : Option Pending → List UInt8 → List Piece
  | none, [] => []
  | some p, [] => [.malformed p.first p.size .truncated]
  | pending, b :: rest =>
    let (pieces, pending) :=
      match pending with
      | none => begin b
      | some p => p.next b
    pieces ++ piecesFrom pending rest

/-- The characters and malformed sequences of a run of octets. -/
def pieces (octets : List UInt8) : List Piece :=
  piecesFrom none octets

/-- Where strict decoding stopped. -/
structure Fault where
  /-- How many octets stand before the malformed sequence. -/
  position : Nat
  /-- Its first octet. -/
  first : UInt8
  /-- Its length. -/
  size : Nat
  /-- Why it is malformed. -/
  cause : Cause
  deriving DecidableEq, Repr

/-- The words for the cause of a fault. -/
def Cause.message : Cause → String
  | .start => "invalid start byte"
  | .continuation => "invalid continuation byte"
  | .truncated => "unexpected end of data"

/-- The message for a fault. One octet is shown, several are counted. -/
def Fault.message (f : Fault) : String :=
  let place :=
    if f.size = 1 then
      s!"byte 0x{String.ofList (hex 2 f.first.toNat)} in position {f.position}"
    else s!"bytes in position {f.position}-{f.position + f.size - 1}"
  s!"'utf-8' codec can't decode {place}: {f.cause.message}"

private def strictFrom (position : Nat) : List Piece → Except Fault (List Char)
  | [] => .ok []
  | .char c size :: rest => (strictFrom (position + size) rest).map (c :: ·)
  | .malformed first size cause :: _ => .error ⟨position, first, size, cause⟩

/-- The text that the octets write, unless one sequence is malformed. -/
def decode (octets : List UInt8) : Except Fault (List Char) :=
  strictFrom 0 (pieces octets)

/-- The character of a piece, the replacement character for a malformed one. -/
def Piece.toChar : Piece → Char
  | .char c _ => c
  | .malformed .. => '\uFFFD'

/-- The text that the octets write, with replacements for what is malformed. -/
def decodeLenient (octets : List UInt8) : List Char :=
  (pieces octets).map Piece.toChar

private theorem map_toChar_of_strictFrom {position : Nat} {pieces : List Piece} {text : List Char}
    (h : strictFrom position pieces = .ok text) : pieces.map Piece.toChar = text := by
  induction pieces generalizing position text with
  | nil => exact Except.ok.inj h
  | cons piece rest ih =>
    cases piece with
    | malformed first size cause => cases h
    | char c size =>
      rw [strictFrom] at h
      cases hrest : strictFrom (position + size) rest with
      | error fault =>
        rw [hrest] at h
        cases h
      | ok tail =>
        rw [hrest] at h
        rw [List.map_cons, ih hrest]
        exact Except.ok.inj h

theorem decodeLenient_of_decode {octets : List UInt8} {text : List Char}
    (h : decode octets = .ok text) : decodeLenient octets = text :=
  map_toChar_of_strictFrom h

/-! ## Plain texts -/

theorem utf8EncodeChar_of_lt {c : Char} (h : c.toNat < 128) :
    String.utf8EncodeChar c = [c.toNat.toUInt8] := by
  have hone : c.val.toNat ≤ 127 := Nat.le_of_lt_succ h
  rw [String.utf8EncodeChar]
  exact if_pos hone

theorem pieces_of_lt {text : List Char} (h : ∀ c ∈ text, c.toNat < 128) :
    pieces (text.flatMap String.utf8EncodeChar) = text.map (.char · 1) := by
  induction text with
  | nil => rfl
  | cons c text ih =>
    rw [List.forall_mem_cons] at h
    have hoctet : c.toNat.toUInt8.toNat = c.toNat :=
      Nat.mod_eq_of_lt (Nat.lt_trans h.1 (by decide))
    have hbegin : begin c.toNat.toUInt8 = ([.char c 1], none) := by
      rw [begin, hoctet, if_pos h.1, Char.ofNat_toNat]
    rw [List.flatMap_cons, utf8EncodeChar_of_lt h.1, List.singleton_append, pieces, piecesFrom]
    dsimp only
    rw [hbegin, List.map_cons, ← ih h.2]
    rfl

private theorem strictFrom_map_char (position : Nat) (text : List Char) :
    strictFrom position (text.map (.char · 1)) = .ok text := by
  induction text generalizing position with
  | nil => rfl
  | cons c text ih => rw [List.map_cons, strictFrom, ih, Except.map]

theorem decode_of_lt {text : List Char} (h : ∀ c ∈ text, c.toNat < 128) :
    decode (text.flatMap String.utf8EncodeChar) = .ok text := by
  rw [decode, pieces_of_lt h, strictFrom_map_char]

end TapAudit.Text.Utf8
