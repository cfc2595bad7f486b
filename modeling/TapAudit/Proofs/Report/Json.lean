import Mathlib.Tactic.FinCases
import TapAudit.Proofs.Text.Numeral
import TapAudit.Report.Json

/-!
# Documents that are read again

A reader of JSON texts, which takes a text only if it is one document from end to end. Numbers have
no fractions and no exponents.

- `readText?_quote`: a quoted text is read up to its end.
- `readValue?_render`: so is a document, at any level.
- `read?_toText`: **a document that is written out is read again.**
-/

namespace TapAudit.Report.Json

/-! ## The reader -/

/-- Blanks that may stand around the parts of a document. -/
def isBlank (c : Char) : Bool :=
  c == ' ' || c == '\n' || c == '\r' || c == '\t'

def hexValue? (c : Char) : Option Nat :=
  if c.isDigit then some (c.toNat - '0'.toNat)
  else if 'a' ≤ c ∧ c ≤ 'f' then some (c.toNat - 'a'.toNat + 10)
  else if 'A' ≤ c ∧ c ≤ 'F' then some (c.toNat - 'A'.toNat + 10)
  else none

/-- The UTF-16 unit that four digits write, and what follows them. -/
def readUnit? : List Char → Option (Nat × List Char)
  | a :: b :: c :: d :: rest => do
    let high := 16 * (← hexValue? a) + (← hexValue? b)
    let low := 16 * (← hexValue? c) + (← hexValue? d)
    some (256 * high + low, rest)
  | _ => none

/-- What a letter behind a backslash stands for. -/
def unescape? : Char → Option Char
  | '"' => some '"'
  | '\\' => some '\\'
  | '/' => some '/'
  | 'b' => some '\x08'
  | 'f' => some '\x0c'
  | 'n' => some '\n'
  | 'r' => some '\r'
  | 't' => some '\t'
  | _ => none

/-- The character that starts with a unit. The first half of a pair needs the second one. -/
def readScalar? (n : Nat) (text : List Char) : Option (Char × List Char) :=
  if n < 0xD800 ∨ 0xE000 ≤ n then some (Char.ofNat n, text)
  else
    match text with
    | '\\' :: 'u' :: text => do
      let (m, rest) ← readUnit? text
      if n < 0xDC00 ∧ 0xDC00 ≤ m ∧ m < 0xE000 then
        some (Char.ofNat (0x10000 + 0x400 * (n - 0xD800) + (m - 0xDC00)), rest)
      else none
    | _ => none

/-- One character of a string, and what follows it. -/
def readChar? : List Char → Option (Char × List Char)
  | [] => none
  | c :: text =>
    if c = '\\' then
      match text with
      | [] => none
      | 'u' :: text => do
        let (n, rest) ← readUnit? text
        readScalar? n rest
      | d :: rest => (unescape? d).map fun c => (c, rest)
    else if c.toNat < 32 then none
    else some (c, text)

/-- A string up to the quotation mark that ends it. The first argument bounds the characters. -/
def readText? : Nat → List Char → Option (List Char × List Char)
  | 0, _ => none
  | _ + 1, '"' :: rest => some ([], rest)
  | fuel + 1, text => do
    let (c, rest) ← readChar? text
    let (front, rest) ← readText? fuel rest
    some (c :: front, rest)

/-- A number without zeros in front. -/
def readNatural? (text : List Char) : Option (Nat × List Char) :=
  let digits := text.takeWhile Char.isDigit
  let n := Text.numeral digits
  if digits = Text.decimal n then some (n, text.dropWhile Char.isDigit) else none

/-- A document that is one word. -/
def readWord? : List Char → Option (Json × List Char)
  | 'n' :: 'u' :: 'l' :: 'l' :: rest => some (null, rest)
  | 't' :: 'r' :: 'u' :: 'e' :: rest => some (boolean true, rest)
  | 'f' :: 'a' :: 'l' :: 's' :: 'e' :: rest => some (boolean false, rest)
  | '-' :: text => (readNatural? text).map fun (n, rest) => (number (-n), rest)
  | text => (readNatural? text).map fun (n, rest) => (number n, rest)

mutual

/-- The document at the start of a text, and what follows it. The first argument bounds the
steps. -/
def readValue? : Nat → List Char → Option (Json × List Char)
  | 0, _ => none
  | fuel + 1, text =>
    match text.dropWhile isBlank with
    | '"' :: rest => (readText? rest.length rest).map fun (text, rest) => (string text, rest)
    | '[' :: rest =>
      match rest.dropWhile isBlank with
      | ']' :: rest => some (array [], rest)
      | _ => do
        let (item, rest) ← readValue? fuel rest
        let (items, rest) ← readItems? fuel rest
        some (array (item :: items), rest)
    | '{' :: rest =>
      match rest.dropWhile isBlank with
      | '}' :: rest => some (object [], rest)
      | _ => do
        let (member, rest) ← readMember? fuel rest
        let (members, rest) ← readMembers? fuel rest
        some (object (member :: members), rest)
    | rest => readWord? rest

/-- The items of an array after the first. -/
def readItems? : Nat → List Char → Option (List Json × List Char)
  | 0, _ => none
  | fuel + 1, text =>
    match text.dropWhile isBlank with
    | ']' :: rest => some ([], rest)
    | ',' :: rest => do
      let (item, rest) ← readValue? fuel rest
      let (items, rest) ← readItems? fuel rest
      some (item :: items, rest)
    | _ => none

/-- A member of an object. -/
def readMember? : Nat → List Char → Option ((List Char × Json) × List Char)
  | 0, _ => none
  | fuel + 1, text =>
    match text.dropWhile isBlank with
    | '"' :: rest => do
      let (name, rest) ← readText? rest.length rest
      match rest.dropWhile isBlank with
      | ':' :: rest => do
        let (value, rest) ← readValue? fuel rest
        some ((name, value), rest)
      | _ => none
    | _ => none

/-- The members of an object after the first. -/
def readMembers? : Nat → List Char → Option (List (List Char × Json) × List Char)
  | 0, _ => none
  | fuel + 1, text =>
    match text.dropWhile isBlank with
    | '}' :: rest => some ([], rest)
    | ',' :: rest => do
      let (member, rest) ← readMember? fuel rest
      let (members, rest) ← readMembers? fuel rest
      some (member :: members, rest)
    | _ => none

end

/-- The document that a text is, with nothing but blanks around it. -/
def read? (text : List Char) : Option Json :=
  match readValue? (text.length + 1) text with
  | some (document, rest) => if rest.all isBlank then some document else none
  | none => none

/-! ## Strings -/

theorem hexValue?_digitChar : ∀ d < 16, hexValue? (Nat.digitChar d) = some d := by
  decide

theorem hex_succ (width n : Nat) :
    Text.hex (width + 2) n = Text.hex (width + 1) (n / 16) ++ [Nat.digitChar (n % 16)] := by
  unfold Text.hex
  dsimp only
  by_cases hn : n < 16
  · have hzero : n / 16 = 0 := Nat.div_eq_of_lt hn
    rw [hzero, Nat.mod_eq_of_lt hn, Nat.toDigits_of_lt_base hn, Nat.toDigits_zero]
    simp [List.replicate_succ']
  · have hdigits : Nat.toDigits 16 n = Nat.toDigits 16 (n / 16) ++ [Nat.digitChar (n % 16)] :=
      Nat.toDigits_of_base_le (by omega) (by omega)
    have hlength : width + 2 - ((Nat.toDigits 16 (n / 16)).length + 1) =
        width + 1 - (Nat.toDigits 16 (n / 16)).length := by omega
    rw [hdigits, List.length_append, List.length_singleton, hlength, List.append_assoc]

theorem hex_four {n : Nat} (hn : n < 0x10000) :
    Text.hex 4 n =
      [Nat.digitChar (n / 16 / 16 / 16), Nat.digitChar (n / 16 / 16 % 16),
        Nat.digitChar (n / 16 % 16), Nat.digitChar (n % 16)] := by
  have hfirst : Text.hex 1 (n / 16 / 16 / 16) = [Nat.digitChar (n / 16 / 16 / 16)] := by
    unfold Text.hex
    rw [Nat.toDigits_of_lt_base (by omega)]
    rfl
  rw [hex_succ, hex_succ, hex_succ, hfirst]
  rfl

theorem readUnit?_hex {n : Nat} (hn : n < 0x10000) (rest : List Char) :
    readUnit? (Text.hex 4 n ++ rest) = some (n, rest) := by
  have hvalue : 256 * (16 * (n / 16 / 16 / 16) + n / 16 / 16 % 16) +
      (16 * (n / 16 % 16) + n % 16) = n := by omega
  rw [hex_four hn]
  show (do
    let high := 16 * (← hexValue? _) + (← hexValue? _)
    let low := 16 * (← hexValue? _) + (← hexValue? _)
    some (256 * high + low, rest)) = _
  rw [hexValue?_digitChar _ (by omega), hexValue?_digitChar _ (by omega),
    hexValue?_digitChar _ (by omega), hexValue?_digitChar _ (by omega)]
  exact congrArg (fun m => some (m, rest)) hvalue

theorem readChar?_escapeUnit {n : Nat} (hn : n < 0x10000) (rest : List Char) :
    readChar? (escapeUnit n ++ rest) = readScalar? n rest := by
  show (readUnit? (Text.hex 4 n ++ rest)).bind (fun (n, rest) => readScalar? n rest) = _
  rw [readUnit?_hex hn]
  rfl

/-- No character is half of a pair. -/
theorem toNat_range (c : Char) : (c.toNat < 0xD800 ∨ 0xE000 ≤ c.toNat) ∧ c.toNat < 0x110000 := by
  have hvalid : c.toNat < 0xD800 ∨ 0xDFFF < c.toNat ∧ c.toNat < 0x110000 := c.valid
  omega

theorem readScalar?_pair {n m : Nat} (hn : 0xD800 ≤ n ∧ n < 0xDC00)
    (hm : 0xDC00 ≤ m ∧ m < 0xE000) (rest : List Char) :
    readScalar? n (escapeUnit m ++ rest) =
      some (Char.ofNat (0x10000 + 0x400 * (n - 0xD800) + (m - 0xDC00)), rest) := by
  have hhalf : ¬ (n < 0xD800 ∨ 0xE000 ≤ n) := by omega
  unfold readScalar? escapeUnit
  rw [if_neg hhalf, List.cons_append, List.cons_append]
  simp only [readUnit?_hex (show m < 0x10000 by omega), Option.bind_eq_bind, Option.bind_some]
  rw [if_pos ⟨hn.2, hm.1, hm.2⟩]

theorem readChar?_escapeUnits {c : Char} (hc : ¬ c.toNat < 0x10000) (rest : List Char) :
    readChar? (escapeUnit (0xD800 + (c.toNat - 0x10000) / 0x400) ++
        (escapeUnit (0xDC00 + (c.toNat - 0x10000) % 0x400) ++ rest)) = some (c, rest) := by
  have hrange := (toNat_range c).2
  -- with names for the halves the way back is plain arithmetic
  generalize hhigh : 0xD800 + (c.toNat - 0x10000) / 0x400 = n
  generalize hlow : 0xDC00 + (c.toNat - 0x10000) % 0x400 = m
  have hvalue : 0x10000 + 0x400 * (n - 0xD800) + (m - 0xDC00) = c.toNat := by omega
  rw [readChar?_escapeUnit (by omega), readScalar?_pair (by omega) (by omega), hvalue,
    Char.ofNat_toNat]

theorem readChar?_escapeChar (c : Char) (rest : List Char) :
    readChar? (escapeChar c ++ rest) = some (c, rest) := by
  unfold escapeChar
  by_cases hquote : c = '"' ∨ c = '\\'
  · rcases hquote with rfl | rfl <;> rfl
  · have hslash : c ≠ '\\' := fun h => hquote (.inr h)
    rw [if_neg hquote]
    split_ifs with hfeed hreturn htab hback hform hplain hsmall
    · subst hfeed
      rfl
    · subst hreturn
      rfl
    · subst htab
      rfl
    · subst hback
      rfl
    · subst hform
      rfl
    · show (if c = '\\' then _ else if c.toNat < 32 then none else some (c, rest)) = _
      rw [if_neg hslash, if_neg (by omega)]
    · rw [readChar?_escapeUnit hsmall]
      unfold readScalar?
      rw [if_pos (toNat_range c).1, Char.ofNat_toNat]
    · rw [List.append_assoc]
      exact readChar?_escapeUnits hsmall rest

/-- What is written for a character does not end the string. -/
theorem exists_escapeChar (c : Char) : ∃ d rest, escapeChar c = d :: rest ∧ d ≠ '"' := by
  unfold escapeChar
  split_ifs with hquote hfeed hreturn htab hback hform hplain hsmall
  all_goals first
    | exact ⟨'\\', _, rfl, by decide⟩
    | exact ⟨c, [], rfl, fun h => hquote (.inl h)⟩

theorem readText?_escapeChar (fuel : Nat) (c : Char) (rest : List Char) :
    readText? (fuel + 1) (escapeChar c ++ rest) =
      (readText? fuel rest).map fun (front, rest) => (c :: front, rest) := by
  have hread := readChar?_escapeChar c rest
  obtain ⟨d, tail, hescape, hd⟩ := exists_escapeChar c
  rw [hescape, List.cons_append] at hread ⊢
  rw [readText?, hread]
  · simp only [Option.bind_eq_bind, Option.bind_some]
    cases readText? fuel rest <;> rfl
  · intro next hnext
    exact hd (List.cons.inj hnext).1

theorem readText?_flatMap (text rest : List Char) {fuel : Nat} (h : text.length < fuel) :
    readText? fuel (text.flatMap escapeChar ++ '"' :: rest) = some (text, rest) := by
  induction text generalizing fuel with
  | nil =>
    obtain ⟨fuel, rfl⟩ := Nat.exists_eq_succ_of_ne_zero (Nat.ne_of_gt h)
    rfl
  | cons c text ih =>
    rw [List.length_cons] at h
    obtain ⟨fuel, rfl⟩ := Nat.exists_eq_succ_of_ne_zero (Nat.ne_zero_of_lt h)
    rw [List.flatMap_cons, List.append_assoc, readText?_escapeChar, ih (by omega)]
    rfl

theorem length_le_flatMap (text : List Char) : text.length ≤ (text.flatMap escapeChar).length := by
  induction text with
  | nil => exact Nat.le_refl 0
  | cons c text ih =>
    obtain ⟨d, rest, hescape, -⟩ := exists_escapeChar c
    rw [List.flatMap_cons, hescape, List.length_append, List.length_cons, List.length_cons]
    omega

theorem readText?_quote (text rest : List Char) :
    ∃ tail, quote text ++ rest = '"' :: tail ∧ readText? tail.length tail = some (text, rest) := by
  refine ⟨text.flatMap escapeChar ++ '"' :: rest, by simp [quote], ?_⟩
  refine readText?_flatMap text rest ?_
  have hlength := length_le_flatMap text
  rw [List.length_append, List.length_cons]
  omega

/-! ## Numbers -/

/-- A number ends where a text starts. -/
def EndsNumber (rest : List Char) : Prop :=
  ∀ c ∈ rest.head?, c.isDigit = false

theorem endsNumber_newLine (level : Nat) (rest : List Char) :
    EndsNumber (newLine level ++ rest) := by
  rintro c ⟨rfl⟩
  rfl

theorem readNatural?_decimal (n : Nat) {rest : List Char} (h : EndsNumber rest) :
    readNatural? (Text.decimal n ++ rest) = some (n, rest) := by
  have hdigits : ∀ c ∈ Text.decimal n, c.isDigit = true := (Text.Numeral.ofNat n).areDigits
  have hvalue : Text.numeral (Text.decimal n) = n :=
    (Text.numeral_digits (.ofNat n)).trans (Text.Numeral.value_ofNat n)
  unfold readNatural?
  rw [Text.takeWhile_run hdigits h, Text.dropWhile_run hdigits h]
  dsimp only
  rw [hvalue, if_pos rfl]

theorem readValue?_digit {c : Char} (hc : c.isDigit = true) (fuel : Nat) (text : List Char) :
    readValue? (fuel + 1) (c :: text) =
      (readNatural? (c :: text)).map fun (n, rest) => (number n, rest) := by
  have hmem : c ∈ ['0', '1', '2', '3', '4', '5', '6', '7', '8', '9'] := Text.mem_tenDigits hc
  fin_cases hmem <;> rfl

theorem readValue?_number (fuel : Nat) (n : Int) {rest : List Char} (h : EndsNumber rest) :
    readValue? (fuel + 1) ((toString n).toList ++ rest) = some (number n, rest) := by
  cases n with
  | ofNat m =>
    have htext : (toString (Int.ofNat m)).toList = Text.decimal m := Nat.toList_repr
    have hread := readNatural?_decimal m h
    obtain ⟨c, digits, hdigits⟩ := List.exists_cons_of_ne_nil (Text.Numeral.ofNat m).ne_nil
    have hc : c.isDigit = true := by
      refine (Text.Numeral.ofNat m).areDigits c ?_
      rw [hdigits]
      exact List.mem_cons_self
    rw [htext]
    rw [show Text.decimal m = c :: digits from hdigits] at hread ⊢
    rw [List.cons_append] at hread ⊢
    rw [readValue?_digit hc, hread]
    rfl
  | negSucc m =>
    have htext : (toString (Int.negSucc m)).toList = '-' :: Text.decimal (m + 1) := by
      show ("-" ++ Nat.repr (m + 1)).toList = _
      rw [String.toList_append, Nat.toList_repr]
      rfl
    rw [htext]
    show ((readNatural? (Text.decimal (m + 1) ++ rest)).map fun (n, rest) =>
      (number (-n), rest)) = _
    rw [readNatural?_decimal (m + 1) h]
    rfl

/-! ## Documents -/

theorem isBlank_of_mem_newLine {level : Nat} {c : Char} (h : c ∈ newLine level) :
    isBlank c = true := by
  rcases List.mem_cons.mp h with rfl | hmem
  · rfl
  · rw [List.eq_of_mem_replicate hmem]
    rfl

theorem dropWhile_newLine (level : Nat) (text : List Char) :
    (newLine level ++ text).dropWhile isBlank = text.dropWhile isBlank :=
  List.dropWhile_append_of_pos fun _ => isBlank_of_mem_newLine

theorem readValue?_blanks (fuel : Nat) (blanks text : List Char)
    (h : ∀ c ∈ blanks, isBlank c = true) :
    readValue? fuel (blanks ++ text) = readValue? fuel text := by
  cases fuel with
  | zero => rfl
  | succ fuel => rw [readValue?, readValue?, List.dropWhile_append_of_pos h]

theorem readValue?_newLine (fuel level : Nat) (text : List Char) :
    readValue? fuel (newLine level ++ text) = readValue? fuel text :=
  readValue?_blanks fuel (newLine level) text fun _ => isBlank_of_mem_newLine

theorem readValue?_string (fuel : Nat) (text rest : List Char) :
    readValue? (fuel + 1) (quote text ++ rest) = some (string text, rest) := by
  obtain ⟨tail, htail, hread⟩ := readText?_quote text rest
  rw [htail]
  show (readText? tail.length tail).map (fun (text, rest) => (string text, rest)) = _
  rw [hread]
  rfl

/-- No document starts with the bracket that ends an array. -/
theorem dropWhile_ne_bracket {fuel : Nat} {text rest tail : List Char} {d : Json}
    (h : readValue? fuel text = some (d, rest)) : text.dropWhile isBlank ≠ ']' :: tail := by
  intro hbracket
  cases fuel with
  | zero => cases h
  | succ fuel =>
    have hword : readWord? (']' :: tail) = none := by
      simp [readWord?, readNatural?, Text.numeral, Text.decimal]
    rw [readValue?, hbracket] at h
    exact absurd (hword.symm.trans h) nofun

theorem readValue?_array {fuel : Nat} {text rest tail : List Char} {item : Json}
    {items : List Json} (hitem : readValue? fuel text = some (item, rest))
    (hitems : readItems? fuel rest = some (items, tail)) :
    readValue? (fuel + 1) ('[' :: text) = some (array (item :: items), tail) := by
  show (match text.dropWhile isBlank with
    | ']' :: rest => some (array [], rest)
    | _ => do
      let (item, rest) ← readValue? fuel text
      let (items, rest) ← readItems? fuel rest
      some (array (item :: items), rest)) = _
  split
  · next rest hbracket => exact absurd hbracket (dropWhile_ne_bracket hitem)
  · rw [hitem]
    simp only [Option.bind_eq_bind, Option.bind_some, hitems]

theorem readItems?_cons {fuel : Nat} {text rest tail : List Char} {item : Json}
    {items : List Json} (hitem : readValue? fuel text = some (item, rest))
    (hitems : readItems? fuel rest = some (items, tail)) :
    readItems? (fuel + 1) (',' :: text) = some (item :: items, tail) := by
  show (readValue? fuel text).bind _ = _
  rw [hitem]
  show (readItems? fuel rest).bind _ = _
  rw [hitems]
  rfl

theorem readMember?_member {fuel level : Nat} {text rest : List Char} {name : List Char}
    {value : Json} (h : readValue? fuel text = some (value, rest)) :
    readMember? (fuel + 1) (newLine level ++ (quote name ++ (':' :: ' ' :: text))) =
      some ((name, value), rest) := by
  obtain ⟨tail, htail, hread⟩ := readText?_quote name (':' :: ' ' :: text)
  have hblank : readValue? fuel (' ' :: text) = some (value, rest) :=
    (readValue?_blanks fuel [' '] text (by simp [isBlank])).trans h
  rw [readMember?, dropWhile_newLine, htail]
  show ((readText? tail.length tail).bind _) = _
  rw [hread]
  show ((readValue? fuel (' ' :: text)).bind _) = _
  rw [hblank]
  rfl

theorem readValue?_object {fuel : Nat} {text rest tail : List Char} {member : List Char × Json}
    {members : List (List Char × Json)} (hmember : readMember? fuel text = some (member, rest))
    (hmembers : readMembers? fuel rest = some (members, tail)) :
    readValue? (fuel + 1) ('{' :: text) = some (object (member :: members), tail) := by
  have hbrace (rest : List Char) : text.dropWhile isBlank ≠ '}' :: rest := by
    intro hbrace
    cases fuel with
    | zero => cases hmember
    | succ fuel =>
      rw [readMember?, hbrace] at hmember
      cases hmember
  show (match text.dropWhile isBlank with
    | '}' :: rest => some (object [], rest)
    | _ => do
      let (member, rest) ← readMember? fuel text
      let (members, rest) ← readMembers? fuel rest
      some (object (member :: members), rest)) = _
  split
  · next rest hend => exact absurd hend (hbrace rest)
  · rw [hmember]
    simp only [Option.bind_eq_bind, Option.bind_some, hmembers]

theorem readMembers?_cons {fuel : Nat} {text rest tail : List Char} {member : List Char × Json}
    {members : List (List Char × Json)} (hmember : readMember? fuel text = some (member, rest))
    (hmembers : readMembers? fuel rest = some (members, tail)) :
    readMembers? (fuel + 1) (',' :: text) = some (member :: members, tail) := by
  show (readMember? fuel text).bind _ = _
  rw [hmember]
  show (readMembers? fuel rest).bind _ = _
  rw [hmembers]
  rfl

/-! ## Written documents -/

theorem endsNumber_renderItems (level outer : Nat) (items : List Json) (rest : List Char) :
    EndsNumber (renderItems level items ++ (newLine outer ++ rest)) := by
  cases items with
  | nil => exact endsNumber_newLine outer rest
  | cons item items =>
    rintro c ⟨rfl⟩
    rfl

theorem endsNumber_renderMembers (level outer : Nat) (members : List (List Char × Json))
    (rest : List Char) : EndsNumber (renderMembers level members ++ (newLine outer ++ rest)) := by
  cases members with
  | nil => exact endsNumber_newLine outer rest
  | cons member members =>
    rintro c ⟨rfl⟩
    rfl

mutual

/-- A document is read up to its end. Every step of the reader takes at least one character, so the
text itself bounds the steps. -/
theorem readValue?_render (d : Json) (level fuel : Nat) (rest : List Char)
    (hfuel : (render level d ++ rest).length ≤ fuel) (hrest : EndsNumber rest) :
    readValue? (fuel + 1) (render level d ++ rest) = some (d, rest) := by
  match d with
  | null => rfl
  | boolean true => rfl
  | boolean false => rfl
  | number n => exact readValue?_number fuel n hrest
  | string text => exact readValue?_string fuel text rest
  | array [] => rfl
  | array (item :: items) =>
    -- what follows the first item ends a number, so it does not run on
    obtain ⟨tail, htail⟩ : ∃ tail, tail =
        renderItems (level + 1) items ++ (newLine level ++ ']' :: rest) := ⟨_, rfl⟩
    have hends : EndsNumber tail := htail ▸ endsNumber_renderItems (level + 1) level items _
    have hshort : tail.length ≤ (render (level + 1) item ++ tail).length := by simp
    have htext : render level (array (item :: items)) ++ rest =
        '[' :: (newLine (level + 1) ++ (render (level + 1) item ++ tail)) := by
      simp [render, htail]
    rw [htext] at hfuel ⊢
    rw [List.length_cons, List.length_append] at hfuel
    obtain ⟨fuel, rfl⟩ := Nat.exists_eq_add_of_le' (show 1 ≤ fuel by omega)
    have hitem := readValue?_render item (level + 1) fuel tail (by omega) hends
    have hitems := readItems?_render items (level + 1) level fuel rest (by rw [← htail]; omega)
    rw [← htail] at hitems
    refine readValue?_array ?_ hitems
    rw [readValue?_newLine]
    exact hitem
  | object [] => rfl
  | object ((name, value) :: members) =>
    obtain ⟨tail, htail⟩ : ∃ tail, tail =
        renderMembers (level + 1) members ++ (newLine level ++ '}' :: rest) := ⟨_, rfl⟩
    have hends : EndsNumber tail := htail ▸ endsNumber_renderMembers (level + 1) level members _
    have hshort : tail.length ≤ (render (level + 1) value ++ tail).length := by simp
    have htext : render level (object ((name, value) :: members)) ++ rest =
        '{' :: (newLine (level + 1) ++
          (quote name ++ (':' :: ' ' :: (render (level + 1) value ++ tail)))) := by
      simp [render, htail]
    rw [htext] at hfuel ⊢
    rw [List.length_cons, List.length_append, List.length_append, List.length_cons,
      List.length_cons] at hfuel
    obtain ⟨fuel, rfl⟩ := Nat.exists_eq_add_of_le' (show 2 ≤ fuel by omega)
    have hvalue := readValue?_render value (level + 1) fuel tail (by omega) hends
    have hmembers := readMembers?_render members (level + 1) level (fuel + 1) rest
      (by rw [← htail]; omega)
    rw [← htail] at hmembers
    exact readValue?_object (readMember?_member hvalue) hmembers

theorem readItems?_render (items : List Json) (level outer fuel : Nat) (rest : List Char)
    (hfuel : (renderItems level items ++ (newLine outer ++ ']' :: rest)).length ≤ fuel) :
    readItems? (fuel + 1) (renderItems level items ++ (newLine outer ++ ']' :: rest)) =
      some (items, rest) := by
  match items with
  | [] =>
    rw [readItems?, renderItems, List.nil_append, dropWhile_newLine]
    rfl
  | item :: items =>
    obtain ⟨tail, htail⟩ : ∃ tail, tail =
        renderItems level items ++ (newLine outer ++ ']' :: rest) := ⟨_, rfl⟩
    have hends : EndsNumber tail := htail ▸ endsNumber_renderItems level outer items _
    have hshort : tail.length ≤ (render level item ++ tail).length := by simp
    have htext : renderItems level (item :: items) ++ (newLine outer ++ ']' :: rest) =
        ',' :: (newLine level ++ (render level item ++ tail)) := by
      simp [renderItems, htail]
    rw [htext] at hfuel ⊢
    rw [List.length_cons, List.length_append] at hfuel
    obtain ⟨fuel, rfl⟩ := Nat.exists_eq_add_of_le' (show 1 ≤ fuel by omega)
    have hitem := readValue?_render item level fuel tail (by omega) hends
    have hitems := readItems?_render items level outer fuel rest (by rw [← htail]; omega)
    rw [← htail] at hitems
    rw [← readValue?_newLine (fuel + 1) level] at hitem
    exact readItems?_cons hitem hitems

theorem readMembers?_render (members : List (List Char × Json)) (level outer fuel : Nat)
    (rest : List Char)
    (hfuel : (renderMembers level members ++ (newLine outer ++ '}' :: rest)).length ≤ fuel) :
    readMembers? (fuel + 1) (renderMembers level members ++ (newLine outer ++ '}' :: rest)) =
      some (members, rest) := by
  match members with
  | [] =>
    rw [readMembers?, renderMembers, List.nil_append, dropWhile_newLine]
    rfl
  | (name, value) :: members =>
    obtain ⟨tail, htail⟩ : ∃ tail, tail =
        renderMembers level members ++ (newLine outer ++ '}' :: rest) := ⟨_, rfl⟩
    have hends : EndsNumber tail := htail ▸ endsNumber_renderMembers level outer members _
    have hshort : tail.length ≤ (render level value ++ tail).length := by simp
    have htext : renderMembers level ((name, value) :: members) ++ (newLine outer ++ '}' :: rest) =
        ',' :: (newLine level ++
          (quote name ++ (':' :: ' ' :: (render level value ++ tail)))) := by
      simp [renderMembers, htail]
    rw [htext] at hfuel ⊢
    rw [List.length_cons, List.length_append, List.length_append, List.length_cons,
      List.length_cons] at hfuel
    obtain ⟨fuel, rfl⟩ := Nat.exists_eq_add_of_le' (show 2 ≤ fuel by omega)
    have hvalue := readValue?_render value level fuel tail (by omega) hends
    have hmembers := readMembers?_render members level outer (fuel + 1) rest
      (by rw [← htail]; omega)
    rw [← htail] at hmembers
    exact readMembers?_cons (readMember?_member hvalue) hmembers

end

/-- **A document that is written out is read again.** -/
theorem read?_toText (d : Json) : read? (toText d) = some d := by
  have hread : readValue? ((toText d).length + 1) (toText d) = some (d, ['\n']) := by
    refine readValue?_render d 0 (toText d).length ['\n'] (Nat.le_refl _) ?_
    rintro c ⟨rfl⟩
    rfl
  unfold read?
  rw [hread]
  rfl

end TapAudit.Report.Json
