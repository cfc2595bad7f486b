import TapAudit.FileTree
import TapAudit.History.Git
import TapAudit.Log
import TapAudit.Text.Blank
import TapAudit.Text.Search
import TapAudit.Text.Utf8

/-!
# Sources of committed text

A source says what a file looked like at the last commit. It may keep a state from one question to
the next. A file without history, or whose history cannot be had, is untracked.
-/

namespace TapAudit.History

/-- The text of a file at the last commit. -/
inductive Baseline where
  | text (content : List Char)
  | untracked
  deriving DecidableEq, Repr

/-- Why a source gives no answer at all. -/
inductive Fault where
  | path (fault : PathFault)
  /-- A call of `git` was made with a time limit that is too large. -/
  | limitTooLarge
  | failure (message : List Char)
  deriving DecidableEq, Repr

/-- A source of committed texts with its state. -/
structure Source (σ : Type) where
  lastCommitted : Path → σ → Except Fault (Logged Baseline) × σ

def locate (tree : FileTree) (cwd : Location) (path : Path) : Except Fault Location :=
  (tree.resolve cwd path).mapError .path

/-! ## Fixed texts -/

/-- Texts at the locations of their paths. -/
def resolveAll (tree : FileTree) (cwd : Location) :
    List (Path × List Char) → Except Fault (List (Location × List Char))
  | [] => .ok []
  | (path, text) :: rest => do
    let location ← locate tree cwd path
    let others ← resolveAll tree cwd rest
    pure ((location, text) :: others)

/-- The last of the texts given for a location. -/
def committedAt (committed : List (Location × List Char)) (location : Location) : Baseline :=
  match committed.reverse.find? (·.1 == location) with
  | some (_, text) => .text text
  | none => .untracked

/-- A source of fixed texts; of two for one location the later counts. -/
def Source.fixed (tree : FileTree) (cwd : Location) (committed : List (Location × List Char)) :
    Source Unit where
  lastCommitted path state :=
    ((locate tree cwd path).map fun location => pure (committedAt committed location), state)

def Source.failing (message : List Char) : Source Unit where
  lastCommitted _ state := (.error (.failure message), state)

/-! ## Git -/

/-- How committed texts are had from `git`. -/
structure Repository where
  git : Git
  /-- The tree that paths lead through. -/
  tree : FileTree := {}
  /-- The working directory, from which paths are seen. -/
  cwd : Location
  /-- The root of the repository; none if it has to be asked for. -/
  root : Option Location := none
  /-- The commit. -/
  ref : List Char := "HEAD".toList
  timeout : Seconds := .fraction (.ofInt 10)

/-- Why no committed text was had. -/
inductive Missing where
  | noRepository (file : Location)
  | outside (file : Location) (root : Option Location)
  | timedOut (file : Location) (timeout : Seconds)
  | cannotRun (file : Location) (message : List Char)
  | noRevision (name : List Char)
  | failed (ref name errors : List Char)
  deriving DecidableEq, Repr

/-- The note on why no committed text was had. -/
def Missing.record : Missing → LogRecord
  | noRepository file => ⟨.warning, s!"{file.toString} is not inside a git repository"⟩
  | outside file root =>
    let place := (root.map Location.toString).getD "None"
    ⟨.warning, s!"{file.toString} is outside repository {place}"⟩
  | timedOut file timeout =>
    ⟨.warning, s!"git timed out after {timeout.toString}s reading history of {file.toString}"⟩
  | cannotRun file message =>
    ⟨.warning, s!"Cannot run git for {file.toString}: {String.ofList message}"⟩
  | noRevision name => ⟨.debug, s!"{String.ofList name} has no committed revision"⟩
  | failed ref name errors =>
    ⟨.warning,
      s!"git show {String.ofList ref}:{String.ofList name} failed: {String.ofList errors}"⟩

/-- What the program says of a file that a commit does not have. -/
def missingFileSigns : List String :=
  ["does not exist in", "exists on disk, but not in"]

namespace Repository

/-- How a call ends. -/
def ending (r : Repository) (calls : List Git.Call) (call : Git.Call) :
    Except Git.Refusal Git.Outcome :=
  if call.holdsNull then .error .invalid else call.ending (r.git calls call)

/-- Calls the program, unless the call cannot be made. -/
def ask (r : Repository) (calls : List Git.Call) (directory : Location)
    (arguments : List (List Char)) : Except Git.Refusal Git.Outcome × List Git.Call :=
  let call : Git.Call := { directory, arguments, timeout := r.timeout }
  (r.ending calls call, if call.holdsNull then calls else calls ++ [call])

/-- What becomes of a question when a call for it is refused. An invalid one counts as if the file
were outside the repository. -/
def refused {α : Type} (r : Repository) (file : Location) :
    Git.Refusal → Except Fault (Except Missing α)
  | .invalid => .ok (.error (.outside file r.root))
  | .limitTooLarge => .error .limitTooLarge

/-- The root that the program names. -/
def namedRoot (r : Repository) (output : List UInt8) : Except Fault (Option Location) :=
  match Text.Utf8.decode output with
  | .error _ => .ok none
  | .ok text =>
    match r.tree.resolve r.cwd (Path.ofText (Text.strip text)) with
    | .ok root => .ok (some root)
    | .error .nullCharacter => .ok none
    | .error fault => .error (.path fault)

/-- The root of the repository that holds a file. -/
def findRoot (r : Repository) (calls : List Git.Call) (file : Location) :
    Except Fault (Except Missing Location) × List Git.Call :=
  match r.root with
  | some root => (.ok (.ok root), calls)
  | none =>
    let (ending, calls) :=
      r.ask calls file.dropLast ["rev-parse".toList, "--show-toplevel".toList]
    let result :=
      match ending with
      | .error refusal => r.refused file refusal
      | .ok .timedOut => .ok (.error (.timedOut file r.timeout))
      | .ok (.failed message) => .ok (.error (.cannotRun file message))
      | .ok (.exited code output _) =>
        if code ≠ 0 then .ok (.error (.noRepository file))
        else
          match r.namedRoot output with
          | .error fault => .error fault
          | .ok (some root) => .ok (.ok root)
          | .ok none => .ok (.error (.outside file r.root))
    (result, calls)

/-- The committed text of the file that a root leads to by `names`. -/
def showFile (r : Repository) (calls : List Git.Call) (file root : Location) (names : List Name) :
    Except Fault (Except Missing (List Char)) × List Git.Call :=
  let name := Path.toText { slashes := 0, parts := names }
  let (ending, calls) := r.ask calls root ["show".toList, r.ref ++ ':' :: name]
  let result :=
    match ending with
    | .error refusal => r.refused file refusal
    | .ok .timedOut => .ok (.error (.timedOut file r.timeout))
    | .ok (.failed message) => .ok (.error (.cannotRun file message))
    | .ok (.exited code output errors) =>
      if code = 0 then .ok (.ok (Text.Utf8.decodeLenient output))
      else
        let errors := Text.strip (Text.Utf8.decodeLenient errors)
        if missingFileSigns.any fun sign => Text.hasInfix sign.toList errors then
          .ok (.error (.noRevision name))
        else .ok (.error (.failed r.ref name errors))
  (result, calls)

/-- The committed text of a file. -/
def committed (r : Repository) (calls : List Git.Call) (file : Location) :
    Except Fault (Except Missing (List Char)) × List Git.Call :=
  match r.findRoot calls file with
  | (.error fault, calls) => (.error fault, calls)
  | (.ok (.error missing), calls) => (.ok (.error missing), calls)
  | (.ok (.ok root), calls) =>
    match file.relativeTo? root with
    | none => (.ok (.error (.outside file r.root)), calls)
    | some names => r.showFile calls file root names

end Repository

/-- A committed text, or a note on why there is none. -/
def Baseline.ofResult : Except Missing (List Char) → Logged Baseline
  | .ok content => pure (.text content)
  | .error missing => ⟨.untracked, [missing.record]⟩

/-- The source that asks `git`; its state are the calls made so far. -/
def Source.ofRepository (r : Repository) : Source (List Git.Call) where
  lastCommitted path calls :=
    match locate r.tree r.cwd path with
    | .error fault => (.error fault, calls)
    | .ok file =>
      let (result, calls) := r.committed calls file
      (result.map Baseline.ofResult, calls)

/-! ## Remembered answers -/

abbrev Answers := List (Location × Baseline)

def Answers.find? (answers : Answers) (location : Location) : Option Baseline :=
  (List.find? (·.1 == location) answers).map (·.2)

/-- A source that asks another one at most once about each location. -/
def Source.remembering {σ : Type} (tree : FileTree) (cwd : Location) (source : Source σ) :
    Source (σ × Answers) where
  lastCommitted path state :=
    match locate tree cwd path with
    | .error fault => (.error fault, state)
    | .ok location =>
      match state.2.find? location with
      | some answer => (.ok (pure answer), state)
      | none =>
        match source.lastCommitted path state.1 with
        | (.error fault, inner) => (.error fault, (inner, state.2))
        | (.ok answer, inner) => (.ok answer, (inner, (location, answer.value) :: state.2))

end TapAudit.History
