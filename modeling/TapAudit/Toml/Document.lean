import TapAudit.Toml.Reader

/-!
# Reading a configuration file

A file is a sequence of statements: entries, which go into the table opened last, and headers, which
open a table or add one to an array of tables. What has been opened by a header, named by a dotted
key or written inline cannot be opened again.
-/

namespace TapAudit.Toml

/-- What a file has made so far. -/
structure Document where
  entries : Entries := []
  /-- Tables that have been opened by a header. -/
  opened : List Key := []
  /-- Tables named by dotted keys since the last header; the next header counts them as opened. -/
  named : List Key := []
  /-- Inline values, to which nothing can be added. -/
  closed : List Key := []
  /-- The table that entries go into. -/
  header : Key := []
  deriving Repr

namespace Document

/-- Nothing can be added at a key. -/
def isClosed (d : Document) (key : Key) : Bool :=
  d.closed.any (·.isPrefixOf key)

/-- Opens the table of a header. -/
def openTable (d : Document) (key : Key) : Except Problem Document := do
  if d.opened.contains key || d.isClosed key then throw (.declaredTwice key)
  match d.entries.update? true some key with
  | none => throw .overwritten
  | some entries => pure { d with entries, opened := key :: d.opened, header := key }

/-- Adds a table to the array of a header. What was known of the tables before it is forgotten. -/
def addTable (d : Document) (key : Key) : Except Problem Document := do
  if d.isClosed key then throw (.immutable key)
  let stem := key.getLast?.getD []
  let add := fun (inner : Entries) =>
    match inner.find? stem with
    | none => some (inner.set stem (.array [.table []]))
    | some (.array items) => some (inner.set stem (.array (items ++ [.table []])))
    | some _ => none
  match d.entries.update? true add key.dropLast with
  | none => throw .overwritten
  | some entries =>
    let other := fun k => !key.isPrefixOf k
    pure
      { d with
        entries
        opened := key :: d.opened.filter other
        closed := d.closed.filter other
        header := key }

/-- The keys of the tables that a dotted key leads through. -/
def through (header key : Key) : List Key :=
  (List.range (key.length - 1)).map fun i => header ++ key.take (i + 1)

def addEntry (d : Document) (key : Key) (value : Value) : Except Problem Document := do
  let passed := through d.header key
  if let some k := passed.find? d.opened.contains then throw (.redefined k)
  let above := d.header ++ key.dropLast
  if d.isClosed above then throw (.immutable above)
  let stem := key.getLast?.getD []
  let add := fun (inner : Entries) =>
    if (inner.find? stem).isSome then none else some (inner.set stem value)
  match d.entries.update? true add above with
  | none => throw .overwritten
  | some entries =>
    pure
      { d with
        entries
        named := passed ++ d.named
        closed := if value.isClosed then (d.header ++ key) :: d.closed else d.closed }

private def noticedAt (rest : List Char) (change : Except Problem Document) :
    Except Stop Document :=
  change.mapError fun problem => ⟨problem, rest⟩

/-- Reads one statement that is neither blank nor a comment. -/
def readStatement (d : Document) (text : List Char) : Except Stop (Document × List Char) :=
  match text with
  | '[' :: rest =>
    let d := { d with opened := d.named ++ d.opened, named := [] }
    match rest with
    | '[' :: rest => do
      let (key, rest) ← readKey (skipSpaces rest)
      let d ← noticedAt rest (d.addTable key)
      match rest with
      | ']' :: ']' :: rest => pure (d, rest)
      | _ => throw ⟨.expectedArrayTableEnd, rest⟩
    | _ => do
      let (key, rest) ← readKey (skipSpaces rest)
      let d ← noticedAt rest (d.openTable key)
      match rest with
      | ']' :: rest => pure (d, rest)
      | _ => throw ⟨.expectedTableEnd, rest⟩
  | c :: _ =>
    if isBareKeyChar c ∨ c = '"' ∨ c = '\'' then do
      let (key, rest) ← readKey text
      match rest with
      | '=' :: rest => do
        let rest := skipSpaces rest
        let (value, rest) ← readValue (2 * rest.length + 2) rest
        let d ← noticedAt rest (d.addEntry key value)
        pure (d, rest)
      | _ => throw ⟨.expectedEquals, rest⟩
    else throw ⟨.invalidStatement, text⟩
  | [] => throw ⟨.invalidStatement, []⟩

/-- Reads the statements of a text. The first argument bounds the lines. -/
def readStatements : Nat → Document → List Char → Except Stop Document
  | 0, d, _ => .ok d
  | fuel + 1, d, text =>
    match skipSpaces text with
    | [] => .ok d
    | '\n' :: rest => readStatements fuel d rest
    | text => do
      let (d, rest) ← if text.head? = some '#' then pure (d, text) else d.readStatement text
      match ← skipComment (skipSpaces rest) with
      | [] => pure d
      | '\n' :: rest => readStatements fuel d rest
      | rest => throw ⟨.expectedLineEnd, rest⟩

end Document

/-- What is wrong with a file, and where. -/
structure Fault where
  problem : Problem
  /-- The line and the column of the place, counted from 1; none at the end. -/
  position : Option (Nat × Nat)
  deriving DecidableEq, Repr

def Fault.message (f : Fault) : String :=
  let place :=
    match f.position with
    | some (line, column) => s!"line {line}, column {column}"
    | none => "end of document"
  s!"{f.problem.message} (at {place})"

/-- The fault at a place of a text. -/
def Stop.toFault (text : List Char) (stop : Stop) : Fault :=
  let front := text.take (text.length - stop.rest.length)
  { problem := stop.problem
    position :=
      if stop.rest.isEmpty then none
      else
        let column := (front.reverse.takeWhile (· != '\n')).length + 1
        some (front.count '\n' + 1, column) }

def read (text : List Char) : Except Fault Entries :=
  match Document.readStatements (text.length + 1) {} text with
  | .ok d => .ok d.entries
  | .error stop => .error (stop.toFault text)

end TapAudit.Toml
