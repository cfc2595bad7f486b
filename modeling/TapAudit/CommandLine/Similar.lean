/-!
# Similar words

Two words are as alike as the share of their characters that lies in common blocks: the longest
block that both have, and then the blocks on either side of it.
-/

namespace TapAudit.CommandLine

/-- The length of the common beginning of two words. -/
def commonStart : List Char → List Char → Nat
  | c :: a, d :: b => if c = d then commonStart a b + 1 else 0
  | _, _ => 0

/-- A block that two words have in common: where it starts in each, and its length. -/
structure Block where
  first : Nat
  second : Nat
  size : Nat
  deriving DecidableEq, Repr

/-- The longest common block; of several the one that starts first in `a`, then in `b`. -/
def longestBlock (a b : List Char) : Block :=
  let blocks := (List.range a.length).flatMap fun i =>
    (List.range b.length).map fun j => ⟨i, j, commonStart (a.drop i) (b.drop j)⟩
  blocks.foldl (fun best block => if best.size < block.size then block else best) ⟨0, 0, 0⟩

/-- How many characters lie in common blocks. The first argument bounds the depth. -/
def sharedWithin : Nat → List Char → List Char → Nat
  | 0, _, _ => 0
  | depth + 1, a, b =>
    let block := longestBlock a b
    if block.size = 0 then 0
    else
      sharedWithin depth (a.take block.first) (b.take block.second) + block.size +
        sharedWithin depth (a.drop (block.first + block.size))
          (b.drop (block.second + block.size))

/-- How many characters of `a` lie in blocks that it has in common with `b`. -/
def shared (a b : List Char) : Nat :=
  sharedWithin a.length a b

/-- A word and how alike it is to another one: the characters they share, out of their lengths. -/
structure Likeness where
  word : String
  shared : Nat
  total : Nat
  deriving DecidableEq, Repr

namespace Likeness

/-- How alike a word is to a text. -/
def of (text : List Char) (word : String) : Likeness where
  word
  shared := CommandLine.shared word.toList text
  total := word.length + text.length

/-- At least three fifths of the characters lie in common blocks. -/
def isClose (l : Likeness) : Bool :=
  3 * l.total ≤ 10 * l.shared

/-- The first is at least as alike; of two that are equally so, the later in the alphabet counts
more. -/
def le (a b : Likeness) : Bool :=
  let x := a.shared * b.total
  let y := b.shared * a.total
  y < x || (x == y && b.word ≤ a.word)

end Likeness

/-- The words most similar to a text, at most three of them, in alphabetical order. -/
def similar (text : List Char) (words : List String) : List String :=
  let close := (words.map (Likeness.of text)).filter (·.isClose)
  (((close.mergeSort Likeness.le).take 3).map (·.word)).mergeSort (· ≤ ·)

end TapAudit.CommandLine
