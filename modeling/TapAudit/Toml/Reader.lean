import TapAudit.Number.Literal
import TapAudit.Toml.Value

/-!
# Reading the values of a configuration file

Each reader takes the text that is left and gives a value and the text after it, or a problem and
the text where it was noticed. Arrays and inline tables nest, so their readers take a bound on the
number of steps, for which twice the length of the text is enough.
-/

namespace TapAudit.Toml

abbrev Key := List (List Char)

/-- What is wrong with a configuration file. -/
inductive Problem where
  | invalidStatement
  | expectedLineEnd
  | declaredTwice (key : Key)
  | overwritten
  | expectedTableEnd
  | expectedArrayTableEnd
  | immutable (key : Key)
  | redefined (key : Key)
  | expectedEquals
  | invalidKey
  | unclosedArray
  | unclosedTable
  | duplicateKey (name : List Char)
  | strayBackslash
  | invalidHex
  | notScalar
  | expected (mark : List Char)
  | invalidCharacter (c : Char)
  | illegalCharacter (c : Char)
  | unterminated
  | invalidDate
  | invalidValue
  | number (fault : Number.Fault)
  deriving DecidableEq, Repr

/-- A key in messages. -/
private def keyText (key : Key) : String :=
  let parts := key.map fun part => String.ofList (Text.quote part)
  match parts with
  | [part] => s!"({part},)"
  | parts => "(" ++ ", ".intercalate parts ++ ")"

def Problem.message : Problem → String
  | invalidStatement => "Invalid statement"
  | expectedLineEnd => "Expected newline or end of document after a statement"
  | declaredTwice key => s!"Cannot declare {keyText key} twice"
  | overwritten => "Cannot overwrite a value"
  | expectedTableEnd => "Expected ']' at the end of a table declaration"
  | expectedArrayTableEnd => "Expected ']]' at the end of an array declaration"
  | immutable key => s!"Cannot mutate immutable namespace {keyText key}"
  | redefined key => s!"Cannot redefine namespace {keyText key}"
  | expectedEquals => "Expected '=' after a key in a key/value pair"
  | invalidKey => "Invalid initial character for a key part"
  | unclosedArray => "Unclosed array"
  | unclosedTable => "Unclosed inline table"
  | duplicateKey name => s!"Duplicate inline table key {String.ofList (Text.quote name)}"
  | strayBackslash => "Unescaped '\\' in a string"
  | invalidHex => "Invalid hex value"
  | notScalar => "Escaped character is not a Unicode scalar value"
  | expected mark => s!"Expected {String.ofList (Text.quote mark)}"
  | invalidCharacter c => s!"Found invalid character {String.ofList (Text.quote [c])}"
  | illegalCharacter c => s!"Illegal character {String.ofList (Text.quote [c])}"
  | unterminated => "Unterminated string"
  | invalidDate => "Invalid date or datetime"
  | invalidValue => "Invalid value"
  | number fault => fault.message

/-- A problem and the text that was left when it was noticed. -/
structure Stop where
  problem : Problem
  rest : List Char
  deriving Repr

/-- What has been read and the text after it. -/
abbrev Parsed (α : Type) := α × List Char

/-! ## Characters -/

/-- Blanks within a line. -/
def isSpace (c : Char) : Bool :=
  c == ' ' || c == '\t'

/-- Blanks and line ends. -/
def isSpaceOrLineEnd (c : Char) : Bool :=
  isSpace c || c == '\n'

/-- Control characters, which may not be written as they are, tabs apart. -/
def isForbidden (c : Char) : Bool :=
  (c.toNat < 32 || c.toNat == 127) && c != '\t'

/-- Control characters that may not be written as they are in a text of several lines. -/
def isForbiddenInLines (c : Char) : Bool :=
  isForbidden c && c != '\n'

/-- Characters of a key without quotes. -/
def isBareKeyChar (c : Char) : Bool :=
  c.isAlphanum || c == '-' || c == '_'

private def isHexDigit (c : Char) : Bool :=
  c.isDigit || ('a' ≤ c && c ≤ 'f') || ('A' ≤ c && c ≤ 'F')

private def digitOf (c : Char) : Nat :=
  if c.isDigit then c.toNat - '0'.toNat
  else if 'a' ≤ c then c.toNat - 'a'.toNat + 10
  else c.toNat - 'A'.toNat + 10

private def inBase (base : Nat) (digits : List Char) : Nat :=
  digits.foldl (fun n c => base * n + digitOf c) 0

/-- The text without the blanks at its start. -/
def skipSpaces (text : List Char) : List Char :=
  text.dropWhile isSpace

/-! ## Comments -/

/-- The text up to a mark and from the mark on, if the mark comes at all. -/
def splitAtMark? (mark : List Char) : List Char → Option (List Char × List Char)
  | [] => if mark.isEmpty then some ([], []) else none
  | c :: rest =>
    if mark.isPrefixOf (c :: rest) then some ([], c :: rest)
    else (splitAtMark? mark rest).map fun (front, tail) => (c :: front, tail)

/-- Checks that `front`, which stands before `tail`, holds no forbidden character. -/
def checkCharacters (isForbidden : Char → Bool) (tail : List Char) :
    List Char → Except Stop Unit
  | [] => .ok ()
  | c :: front =>
    if isForbidden c then .error ⟨.invalidCharacter c, c :: front ++ tail⟩
    else checkCharacters isForbidden tail front

/-- The text after the comment that starts here, if one does. -/
def skipComment : List Char → Except Stop (List Char)
  | '#' :: text => do
    let front := text.takeWhile (· != '\n')
    let tail := text.dropWhile (· != '\n')
    checkCharacters isForbidden tail front
    pure tail
  | text => .ok text

/-- The text after blanks, line ends and comments. The first argument bounds the comments. -/
def skipFiller : Nat → List Char → Except Stop (List Char)
  | 0, text => .ok text
  | fuel + 1, text => do
    let next ← skipComment (text.dropWhile isSpaceOrLineEnd)
    if next.length = text.length then pure next else skipFiller fuel next

/-! ## Strings -/

/-- A text up to a mark that stands for itself throughout. -/
def readLiteral (mark : List Char) (isForbidden : Char → Bool) (text : List Char) :
    Except Stop (Parsed (List Char)) :=
  match splitAtMark? mark text with
  | none => .error ⟨.expected mark, []⟩
  | some (front, tail) => do
    checkCharacters isForbidden tail front
    pure (front, tail.drop mark.length)

/-- A character given by its code point in hexadecimal digits. -/
def readHex (width : Nat) (text : List Char) : Except Stop (Parsed (List Char)) :=
  let digits := text.take width
  if digits.length ≠ width ∨ !digits.all isHexDigit then .error ⟨.invalidHex, text⟩
  else
    let rest := text.drop width
    let n := inBase 16 digits
    if n.isValidChar then .ok ([Char.ofNat n], rest) else .error ⟨.notScalar, rest⟩

/-- What an escape stands for; the text starts after the backslash. In a text of several lines a
backslash takes the rest of its line along, if that is blank, and all blanks after it. -/
def readEscape (inLines : Bool) (text : List Char) : Except Stop (Parsed (List Char)) :=
  match text with
  | [] => .error ⟨.strayBackslash, []⟩
  | c :: rest =>
    if inLines ∧ isSpaceOrLineEnd c then
      if c = '\n' then .ok ([], rest.dropWhile isSpaceOrLineEnd)
      else
        match skipSpaces rest with
        | [] => .ok ([], [])
        | '\n' :: rest => .ok ([], rest.dropWhile isSpaceOrLineEnd)
        | rest => .error ⟨.strayBackslash, rest⟩
    else
      match c with
      | 'u' => readHex 4 rest
      | 'U' => readHex 8 rest
      | 'b' => .ok (['\x08'], rest)
      | 't' => .ok (['\t'], rest)
      | 'n' => .ok (['\n'], rest)
      | 'f' => .ok (['\x0c'], rest)
      | 'r' => .ok (['\r'], rest)
      | '"' => .ok (['"'], rest)
      | '\\' => .ok (['\\'], rest)
      | _ => .error ⟨.strayBackslash, rest⟩

/-- A text with escapes up to its closing quotes. The first argument bounds its characters. -/
def readQuoted (inLines : Bool) : Nat → List Char → Except Stop (Parsed (List Char))
  | 0, text => .error ⟨.unterminated, text⟩
  | _ + 1, [] => .error ⟨.unterminated, []⟩
  | fuel + 1, c :: rest => do
    if c = '"' ∧ (!inLines || ['"', '"'].isPrefixOf rest) then
      pure ([], if inLines then rest.drop 2 else rest)
    else
      let (front, rest) ←
        if c = '\\' then readEscape inLines rest
        else if (if inLines then isForbiddenInLines c else isForbidden c) then
          .error ⟨.illegalCharacter c, c :: rest⟩
        else pure ([c], rest)
      let (text, rest) ← readQuoted inLines fuel rest
      pure (front ++ text, rest)

/-- A text of several lines, after its opening quotes. Up to two more quotes may stand right before
the closing ones. -/
def readLines (mark : Char) (text : List Char) : Except Stop (Parsed (List Char)) := do
  let text :=
    match text with
    | '\n' :: rest => rest
    | _ => text
  let (content, rest) ←
    if mark = '\'' then readLiteral [mark, mark, mark] isForbiddenInLines text
    else readQuoted true text.length.succ text
  let more := (rest.take 2).takeWhile (· == mark)
  pure (content ++ more, rest.drop more.length)

/-! ## Keys -/

def readKeyPart (text : List Char) : Except Stop (Parsed (List Char)) :=
  match text with
  | [] => .error ⟨.invalidKey, []⟩
  | c :: rest =>
    if isBareKeyChar c then .ok (text.takeWhile isBareKeyChar, text.dropWhile isBareKeyChar)
    else if c = '\'' then readLiteral ['\''] isForbidden rest
    else if c = '"' then readQuoted false rest.length.succ rest
    else .error ⟨.invalidKey, text⟩

/-- The parts of a key that follow, each after a dot. The first argument bounds their number. -/
def readKeyParts : Nat → List Char → Except Stop (Parsed Key)
  | 0, text => .ok ([], text)
  | fuel + 1, text =>
    match text with
    | '.' :: rest => do
      let (part, rest) ← readKeyPart (skipSpaces rest)
      let (parts, rest) ← readKeyParts fuel (skipSpaces rest)
      pure (part :: parts, rest)
    | _ => .ok ([], text)

/-- A key and the blanks after it. -/
def readKey (text : List Char) : Except Stop (Parsed Key) := do
  let (part, rest) ← readKeyPart text
  let rest := skipSpaces rest
  let (parts, rest) ← readKeyParts rest.length rest
  pure (part :: parts, rest)

/-! ## Dates and times -/

/-- Two digits that write a number in a range. -/
def twoDigits? (low high : Nat) : List Char → Option (Nat × List Char)
  | a :: b :: rest => do
    guard (a.isDigit && b.isDigit)
    let n := inBase 10 [a, b]
    guard (low ≤ n && n ≤ high)
    pure (n, rest)
  | _ => none

/-- The text after a character. -/
def afterChar? (c : Char) : List Char → Option (List Char)
  | [] => none
  | d :: rest => if d = c then some rest else none

/-- A time of day. More than six places after the second are dropped. -/
def time? (text : List Char) : Option (Time × List Char) := do
  let (hour, rest) ← twoDigits? 0 23 text
  let (minute, rest) ← twoDigits? 0 59 (← afterChar? ':' rest)
  let (second, rest) ← twoDigits? 0 59 (← afterChar? ':' rest)
  match rest with
  | '.' :: tail =>
    match tail.takeWhile Char.isDigit with
    | [] => pure (⟨hour, minute, second, 0⟩, rest)
    | places =>
      let microsecond := inBase 10 (places.take 6) * Number.tenTo (6 - places.length)
      pure (⟨hour, minute, second, microsecond⟩, tail.dropWhile Char.isDigit)
  | _ => pure (⟨hour, minute, second, 0⟩, rest)

/-- An offset from universal time in minutes. -/
def offset? : List Char → Option (Int × List Char)
  | [] => none
  | c :: rest =>
    if c = 'Z' ∨ c = 'z' then some (0, rest)
    else if c = '+' ∨ c = '-' then do
      let (hours, rest) ← twoDigits? 0 23 rest
      let (minutes, rest) ← twoDigits? 0 59 (← afterChar? ':' rest)
      let total : Int := 60 * hours + minutes
      pure (if c = '-' then -total else total, rest)
    else none

/-- A date in digits, which need not be in the calendar. -/
def date? (text : List Char) : Option (Date × List Char) := do
  let year := text.take 4
  guard (year.length == 4 && year.all Char.isDigit)
  let (month, rest) ← twoDigits? 1 12 (← afterChar? '-' (text.drop 4))
  let (day, rest) ← twoDigits? 1 31 (← afterChar? '-' rest)
  pure (⟨inBase 10 year, month, day⟩, rest)

/-- The time that follows a date after a blank or a letter T. -/
def timeAfterDate? : List Char → Option (Time × List Char)
  | [] => none
  | c :: rest => if c = 'T' ∨ c = 't' ∨ c = ' ' then time? rest else none

/-- A date with or without a time, and whether the date is in the calendar. -/
def moment? (text : List Char) : Option (Value × Bool × List Char) := do
  let (date, rest) ← date? text
  match timeAfterDate? rest with
  | none => pure (.date date, date.isValid, rest)
  | some (time, rest) =>
    match offset? rest with
    | none => pure (.moment date time none, date.isValid, rest)
    | some (minutes, rest) => pure (.moment date time (some minutes), date.isValid, rest)

/-! ## Numbers -/

/-- The digits that go on here, an underscore allowed before each of them. -/
def moreDigits (isDigit : Char → Bool) : List Char → List Char
  | [] => []
  | '_' :: d :: rest => if isDigit d then '_' :: d :: moreDigits isDigit rest else []
  | c :: rest => if isDigit c then c :: moreDigits isDigit rest else []

/-- A run of digits, in which an underscore may stand between two of them. -/
def digitRun (isDigit : Char → Bool) : List Char → List Char
  | [] => []
  | c :: rest => if isDigit c then c :: moreDigits isDigit rest else []

/-- An integer in another base than ten, such as `0xff`. -/
def otherBase? : List Char → Option (Int × List Char)
  | '0' :: c :: rest => do
    let (base, isDigit) ←
      match c with
      | 'x' => some (16, isHexDigit)
      | 'b' => some (2, fun c : Char => c == '0' || c == '1')
      | 'o' => some (8, fun c : Char => '0' ≤ c && c ≤ '7')
      | _ => none
    let digits := digitRun isDigit rest
    guard !digits.isEmpty
    pure (inBase base (digits.filter (· != '_')), rest.drop digits.length)
  | _ => none

/-- The fraction and the exponent of a number. -/
def floatPart (text : List Char) : List Char :=
  let fraction :=
    match text with
    | '.' :: rest =>
      match digitRun Char.isDigit rest with
      | [] => []
      | digits => '.' :: digits
    | _ => []
  let exponent :=
    match text.drop fraction.length with
    | e :: rest =>
      if e = 'e' ∨ e = 'E' then
        let mark := (rest.take 1).takeWhile fun c => c == '+' || c == '-'
        match digitRun Char.isDigit (rest.drop mark.length) with
        | [] => []
        | digits => e :: (mark ++ digits)
      else []
    | [] => []
  fraction ++ exponent

/-- A decimal integer, if it can be read, or a number with a fraction or an exponent. -/
def decimal? (text : List Char) : Option (Except Number.Fault (Value × List Char)) := do
  let mark := (text.take 1).takeWhile fun c => c == '+' || c == '-'
  let rest := text.drop mark.length
  let digits :=
    match rest with
    | '0' :: _ => ['0']
    | _ => digitRun Char.isDigit rest
  guard !digits.isEmpty
  let rest := rest.drop digits.length
  match floatPart rest with
  | [] =>
    let digits := digits.filter (· != '_')
    let n : Int := inBase 10 digits
    pure (Number.afterReading [digits] (.integer (if mark == ['-'] then -n else n), rest))
  | more =>
    let x ← Number.Binary64.ofText? (mark ++ digits ++ more)
    pure (.ok (.float x, rest.drop more.length))

/-- An infinity, or what is no number, with or without a sign. -/
def special? (text : List Char) : Option (Value × List Char) := do
  let mark := (text.take 1).takeWhile fun c => c == '+' || c == '-'
  let word := (text.drop mark.length).take 3
  let rest := text.drop (mark.length + 3)
  if word == "inf".toList then pure (.float (.infinite (mark == ['-'])), rest)
  else if word == "nan".toList then pure (.float .notANumber, rest)
  else none

/-! ## Values -/

/-- A decimal number that starts here. -/
def readDecimal? (text : List Char) : Option (Except Stop (Parsed Value)) :=
  (decimal? text).map (·.mapError fun fault => ⟨.number fault, text⟩)

/-- A value without parts. -/
def readScalar (text : List Char) : Except Stop (Parsed Value) :=
  match "true".toList.isPrefixOf? text, "false".toList.isPrefixOf? text with
  | some rest, _ => .ok (.boolean true, rest)
  | none, some rest => .ok (.boolean false, rest)
  | none, none =>
    match moment? text with
    | some (value, true, rest) => .ok (value, rest)
    | some (_, false, _) => .error ⟨.invalidDate, text⟩
    | none =>
      let time := (time? text).map fun (t, rest) => (Value.time t, rest)
      let number := (otherBase? text).map fun (n, rest) => (Value.integer n, rest)
      match ((time.or number).map .ok).or
          ((readDecimal? text).or ((special? text).map .ok)) with
      | some result => result
      | none => .error ⟨.invalidValue, text⟩

/-- The entries with a value set below a dotted key. `isOpen` says whether the last table of an
array is entered like a table. None if something else than a table is in the way. -/
def Entries.update? (isOpen : Bool) (change : Entries → Option Entries) :
    Key → Entries → Option Entries
  | [], entries => change entries
  | name :: key, entries =>
    match entries.find? name with
    | none => do pure (entries.set name (.table (← update? isOpen change key [])))
    | some (.table inner) => do
      pure (entries.set name (.table (← update? isOpen change key inner)))
    | some (.array items) =>
      match isOpen, items.getLast? with
      | true, some (.table inner) => do
        let inner ← update? isOpen change key inner
        pure (entries.set name (.array (items.dropLast ++ [.table inner])))
      | _, _ => none
    | some _ => none

/-- Inline tables and arrays cannot be added to once they are written. -/
def Value.isClosed : Value → Bool
  | .array _ | .table _ => true
  | _ => false

mutual

def readValue : Nat → List Char → Except Stop (Parsed Value)
  | 0, text => .error ⟨.invalidValue, text⟩
  | fuel + 1, text =>
    match text with
    | '"' :: '"' :: '"' :: rest => (readLines '"' rest).map fun (s, rest) => (.string s, rest)
    | '"' :: rest =>
      (readQuoted false rest.length.succ rest).map fun (s, rest) => (.string s, rest)
    | '\'' :: '\'' :: '\'' :: rest =>
      (readLines '\'' rest).map fun (s, rest) => (.string s, rest)
    | '\'' :: rest => (readLiteral ['\''] isForbidden rest).map fun (s, rest) => (.string s, rest)
    | '[' :: rest => do
      let rest ← skipFiller rest.length rest
      let (items, rest) ← readItems fuel rest
      pure (.array items, rest)
    | '{' :: rest =>
      match skipSpaces rest with
      | '}' :: rest => .ok (.table [], rest)
      | rest => do
        let (entries, rest) ← readEntries fuel [] [] rest
        pure (.table entries, rest)
    | _ => readScalar text

/-- The items of an array up to its end. -/
def readItems : Nat → List Char → Except Stop (Parsed (List Value))
  | 0, text => .error ⟨.unclosedArray, text⟩
  | fuel + 1, text =>
    match text with
    | ']' :: rest => .ok ([], rest)
    | _ => do
      let (value, rest) ← readValue fuel text
      let rest ← skipFiller rest.length rest
      match rest with
      | ']' :: rest => pure ([value], rest)
      | ',' :: rest => do
        let rest ← skipFiller rest.length rest
        let (values, rest) ← readItems fuel rest
        pure (value :: values, rest)
      | rest => .error ⟨.unclosedArray, rest⟩

/-- The entries of an inline table up to its end. `closed` are the keys below which nothing can be
added. -/
def readEntries : Nat → List Key → Entries → List Char → Except Stop (Parsed Entries)
  | 0, _, _, text => .error ⟨.unclosedTable, text⟩
  | fuel + 1, closed, entries, text => do
    let (key, rest) ← readKey text
    match rest with
    | '=' :: rest => do
      let (value, rest) ← readValue fuel (skipSpaces rest)
      if closed.any (·.isPrefixOf key) then throw ⟨.immutable key, rest⟩
      let stem := key.getLast?.getD []
      match entries.update? false (fun inner => some inner) key.dropLast with
      | none => throw ⟨.overwritten, rest⟩
      | some _ =>
        match entries.update? false
            (fun inner => if (inner.find? stem).isSome then none else some (inner.set stem value))
            key.dropLast with
        | none => throw ⟨.duplicateKey stem, rest⟩
        | some entries =>
          match skipSpaces rest with
          | '}' :: rest => pure (entries, rest)
          | ',' :: rest =>
            readEntries fuel (if value.isClosed then key :: closed else closed) entries
              (skipSpaces rest)
          | rest => throw ⟨.unclosedTable, rest⟩
    | _ => throw ⟨.expectedEquals, rest⟩

end

end TapAudit.Toml
