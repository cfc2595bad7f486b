import TapAudit.Number.Limit
import TapAudit.Number.Shortest
import TapAudit.Text.Digit
import TapAudit.Text.Lines
import TapAudit.Text.Quoted

/-!
# Values of a configuration file

A value is a scalar, a date or time, an array or a table. Tables keep their entries in the order in
which they were made. Every value has a text; within an array or a table it is written out so that
strings and dates can be told apart.
-/

namespace TapAudit.Toml

/-- A calendar date. -/
structure Date where
  year : Nat
  month : Nat
  day : Nat
  deriving DecidableEq, Repr

/-- A time of day, to the microsecond. -/
structure Time where
  hour : Nat
  minute : Nat
  second : Nat
  microsecond : Nat
  deriving DecidableEq, Repr

inductive Value where
  | string (text : List Char)
  | boolean (b : Bool)
  | integer (n : Int)
  | float (x : Number.Binary64)
  | date (d : Date)
  | time (t : Time)
  /-- A date and a time, with the minutes by which it is ahead of universal time, if known. -/
  | moment (d : Date) (t : Time) (offset : Option Int)
  | array (items : List Value)
  | table (entries : List (List Char × Value))
  deriving Repr

abbrev Entries := List (List Char × Value)

def Entries.find? (entries : Entries) (name : List Char) : Option Value :=
  (List.find? (fun (key, _) => key == name) entries).map (·.2)

/-- The entries with one of them set: in its place if there is one of that name, else at the end. -/
def Entries.set (entries : Entries) (name : List Char) (value : Value) : Entries :=
  match entries with
  | [] => [(name, value)]
  | (key, old) :: rest =>
    if key = name then (key, value) :: rest else (key, old) :: Entries.set rest name value

/-! ## Long integers -/

mutual

/-- An integer that cannot be written is part of the value. -/
def Value.hasLongInteger : Value → Bool
  | .integer n => Number.isLong n
  | .array items => hasLongItem items
  | .table entries => hasLongEntry entries
  | _ => false

/-- A long integer is part of some item. -/
def hasLongItem : List Value → Bool
  | [] => false
  | value :: rest => value.hasLongInteger || hasLongItem rest

/-- A long integer is part of some entry. -/
def hasLongEntry : List (List Char × Value) → Bool
  | [] => false
  | (_, value) :: rest => value.hasLongInteger || hasLongEntry rest

end

/-! ## Dates and times -/

/-- A leap year has 366 days. -/
def isLeapYear (year : Nat) : Bool :=
  year % 4 == 0 && (year % 100 != 0 || year % 400 == 0)

def daysInMonth (year month : Nat) : Nat :=
  if month = 2 then if isLeapYear year then 29 else 28
  else if [4, 6, 9, 11].contains month then 30
  else 31

/-- The date is in the calendar, which starts with the year 1. -/
def Date.isValid (d : Date) : Bool :=
  1 ≤ d.year && 1 ≤ d.month && d.month ≤ 12 &&
    1 ≤ d.day && d.day ≤ daysInMonth d.year d.month

/-- A number with zeros in front up to a width. -/
def padded (width n : Nat) : List Char :=
  let digits := Text.decimal n
  List.replicate (width - digits.length) '0' ++ digits

/-- Year, month and day with hyphens. -/
def Date.text (d : Date) : List Char :=
  padded 4 d.year ++ '-' :: (padded 2 d.month ++ '-' :: padded 2 d.day)

/-- Hour, minute and second with colons, and the microseconds if there are any. -/
def Time.text (t : Time) : List Char :=
  padded 2 t.hour ++ ':' :: (padded 2 t.minute ++ ':' :: padded 2 t.second) ++
    (if t.microsecond = 0 then [] else '.' :: padded 6 t.microsecond)

/-- An offset from universal time with its sign. -/
def offsetText (minutes : Int) : List Char :=
  (if minutes < 0 then '-' else '+') ::
    (padded 2 (minutes.natAbs / 60) ++ ':' :: padded 2 (minutes.natAbs % 60))

/-- Numbers in brackets after a name, with more written after them. -/
private def constructed (name : String) (numbers : List Nat) (more : List Char) : List Char :=
  name.toList ++ '(' :: (Text.joinWith ", ".toList (numbers.map Text.decimal) ++ more ++ [')'])

/-- The seconds and microseconds of a time, as far as they are not all zero. -/
private def smallParts (t : Time) : List Nat :=
  if t.microsecond ≠ 0 then [t.second, t.microsecond]
  else if t.second ≠ 0 then [t.second]
  else []

/-- An offset from universal time, written out. Negative ones count back from a day before. -/
private def offsetLiteral (minutes : Int) : List Char :=
  if minutes = 0 then "datetime.timezone.utc".toList
  else
    let days := if minutes < 0 then "days=-1, " else ""
    let seconds := 60 * (if minutes < 0 then minutes + 24 * 60 else minutes)
    s!"datetime.timezone(datetime.timedelta({days}seconds={seconds}))".toList

/-! ## Texts -/

mutual

/-- A value as it is written within another one. -/
def Value.literal : Value → List Char
  | .string text => Text.quote text
  | .boolean b => (if b then "True" else "False").toList
  | .integer n => (toString n).toList
  | .float x => x.text
  | .date d => constructed "datetime.date" [d.year, d.month, d.day] []
  | .time t => constructed "datetime.time" ([t.hour, t.minute] ++ smallParts t) []
  | .moment d t offset =>
    constructed "datetime.datetime" ([d.year, d.month, d.day, t.hour, t.minute] ++ smallParts t) <|
      match offset with
      | some minutes => ", tzinfo=".toList ++ offsetLiteral minutes
      | none => []
  | .array items => '[' :: (Text.joinWith ", ".toList (literals items) ++ [']'])
  | .table entries => '{' :: (Text.joinWith ", ".toList (entryLiterals entries) ++ ['}'])

/-- The items of an array, written out. -/
def literals : List Value → List (List Char)
  | [] => []
  | value :: rest => value.literal :: literals rest

/-- The entries of a table, written out. -/
def entryLiterals : List (List Char × Value) → List (List Char)
  | [] => []
  | (name, value) :: rest =>
    (Text.quote name ++ ": ".toList ++ value.literal) :: entryLiterals rest

end

def Value.text : Value → List Char
  | .string text => text
  | .date d => d.text
  | .time t => t.text
  | .moment d t offset => d.text ++ ' ' :: t.text ++ (offset.map offsetText).getD []
  | value => value.literal

end TapAudit.Toml
