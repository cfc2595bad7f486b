import TapAudit.Text.Digit
import TapAudit.Text.Letter
import TapAudit.Text.Lower

/-!
# Segments

Versions that are not in regular form are compared by their segments: the runs of digits and the
runs of letters in them. A missing segment counts as the number zero. Words for a stage before the
release come before numbers, all other words after them.
-/

namespace TapAudit.Version

open Text

/-- A run of digits or letters in a version. -/
inductive Segment where
  | number (n : Nat)
  | word (w : List Char)
  deriving DecidableEq, Repr

/-- The run that is being read. -/
inductive Run where
  | none
  | digits (reversed : List Char)
  | letters (reversed : List Char)
  deriving DecidableEq, Repr

/-- What a run stands for, its number taken at any length. -/
def Run.segments : Run → List Segment
  | none => []
  | digits reversed => [.number (numeral reversed.reverse)]
  | letters reversed => [.word (lower reversed.reverse)]

/-- What of a run is read as a number. -/
def Run.numerals : Run → List (List Char)
  | digits reversed => [reversed.reverse]
  | _ => []

/-- The runs of a text, with a run begun or none. -/
def runsFrom (run : Run) : List Char → List Run
  | [] => [run]
  | c :: rest =>
    if isDigit c then
      match run with
      | .digits reversed => runsFrom (.digits (c :: reversed)) rest
      | _ => run :: runsFrom (.digits [c]) rest
    else if isLetter c then
      match run with
      | .letters reversed => runsFrom (.letters (c :: reversed)) rest
      | _ => run :: runsFrom (.letters [c]) rest
    else run :: runsFrom .none rest

def segments (version : List Char) : List Segment :=
  (runsFrom .none version).flatMap Run.segments

/-- The runs of digits in a version, which are read one after the other. -/
def numerals (version : List Char) : List (List Char) :=
  (runsFrom .none version).flatMap Run.numerals

/-- Words for a stage before the release. -/
def earlyWords : List String :=
  ["alpha", "beta", "pre", "rc", "a", "b", "dev"]

/-- Where a segment stands in the order. -/
abbrev Segment.Key := Nat × Nat × List Char

/-- The key of a missing segment is that of zero. -/
def Segment.missing : Segment.Key := (1, 0, [])

def Segment.key : Segment → Segment.Key
  | .number n => (1, n, [])
  | .word w => if earlyWords.any (·.toList == w) then (0, 0, w) else (2, 0, w)

def Segment.Key.compare (a b : Segment.Key) : Ordering :=
  (Ord.compare a.1 b.1).then ((Ord.compare a.2.1 b.2.1).then (Ord.compare a.2.2 b.2.2))

/-- The keys of the segments, filled up to a width. -/
def keys (width : Nat) (segments : List Segment) : List Segment.Key :=
  segments.map Segment.key ++ List.replicate (width - segments.length) Segment.missing

def compareSegments (a b : List Segment) : Ordering :=
  let width := max a.length b.length
  List.compareLex Segment.Key.compare (keys width a) (keys width b)

def startsWithNumber : List Segment → Bool
  | .number _ :: _ => true
  | _ => false

end TapAudit.Version
