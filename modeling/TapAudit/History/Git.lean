import TapAudit.Number.Shortest
import TapAudit.Path

/-!
# Git

The program `git` is known by how it answers: each call, given the calls before it, ends with an
exit code and two outputs, takes too long, or cannot be made. The program has no say where a call is
refused: one with a null character is not even made, and one with an unfit time limit is broken off.
-/

namespace TapAudit.History

/-- A time limit in seconds. -/
inductive Seconds where
  | whole (n : Int)
  | fraction (x : Number.Binary64)
  deriving DecidableEq, Repr

/-- The text of a time limit. -/
def Seconds.toString : Seconds → String
  | whole n => s!"{n}"
  | fraction x => String.ofList x.text

/-- The number of seconds, as far as doubles go. -/
def Seconds.number : Seconds → Number.Binary64
  | whole n => .ofInt n
  | fraction x => x

/-- The longest time that can be waited for, in milliseconds. -/
def longestWait : Nat := 2147483647

/-- The seconds are more than can be waited for. -/
def exceedsWait : Number.Binary64 → Bool
  | .finite true _ _ => false
  | .finite false m e =>
    if 0 ≤ e then longestWait < 1000 * m * Number.twoTo e.toNat
    else longestWait * Number.twoTo (-e).toNat < 1000 * m
  | .infinite negative => !negative
  | .notANumber => false

namespace Git

/-- A call of the program. -/
structure Call where
  /-- The directory in which it runs. -/
  directory : Location
  arguments : List (List Char)
  timeout : Seconds
  deriving DecidableEq, Repr

/-- How a call ends. -/
inductive Outcome where
  | exited (code : Int) (output errors : List UInt8)
  | timedOut
  /-- The call could not be made. -/
  | failed (message : List Char)
  deriving DecidableEq, Repr

/-- Why a call is refused, whatever the program does. -/
inductive Refusal where
  /-- An argument holds a null character, or the time limit is no number. -/
  | invalid
  /-- The time limit is too large. -/
  | limitTooLarge
  deriving DecidableEq, Repr

/-- The time limit is refused. An integer has to be within the doubles, with either sign. -/
def refusal? (limit : Seconds) : Option Refusal :=
  match limit, limit.number with
  | .whole _, .infinite true => some .limitTooLarge
  | _, .notANumber => some .invalid
  | _, x => if exceedsWait x then some .limitTooLarge else none

/-- No call can be made with the arguments. -/
def Call.holdsNull (call : Call) : Bool :=
  call.arguments.any (·.contains '\x00')

/-- How a call ends when the program does its part. The time limit is looked at while the program
runs, so it is of no account if the program cannot be run. -/
def Call.ending (call : Call) (outcome : Outcome) : Except Refusal Outcome :=
  match outcome, refusal? call.timeout with
  | .failed message, _ => .ok (.failed message)
  | _, some refusal => .error refusal
  | outcome, none => .ok outcome

end Git

/-- The answers of the program: the earlier calls, first to last, and the call that is made. -/
abbrev Git := List Git.Call → Git.Call → Git.Outcome

end TapAudit.History
