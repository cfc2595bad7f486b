import TapAudit.CommandLine.Similar
import TapAudit.Text.Search

/-!
# Options

The words of a command line are options, with or without a value, and plain words. The value of an
option follows it, after an equals sign or as the next word. Two hyphens by themselves end the
options.
-/

namespace TapAudit.CommandLine

/-- The options that a command knows. -/
structure Options (α : Type) where
  all : List α
  name : α → String
  takesValue : α → Bool
  /-- Options may stand between and after plain words; if not, the first plain word ends them. -/
  areMixed : Bool

namespace Options

variable {α : Type}

/-- Why words cannot be read. -/
inductive Fault where
  | unknown (name : List Char) (similar : List String)
  | withoutValue (name : String)
  | withValue (name : String)
  deriving DecidableEq, Repr

def Fault.message : Fault → String
  | unknown name similar =>
    let found := s!"No such option: {String.ofList name}"
    match similar with
    | [] => found
    | [word] => s!"{found} Did you mean {word}?"
    | words =>
      let list := ", ".intercalate words
      s!"{found} (Possible options: {list})"
  | withoutValue name => s!"Option '{name}' requires an argument."
  | withValue name => s!"Option '{name}' does not take a value."

/-- What words give: the options in order, each with its value or the empty text, and the plain
words. -/
structure Given (α : Type) where
  options : List (α × List Char) := []
  words : List (List Char) := []
  deriving DecidableEq, Repr

namespace Given

/-- Puts an option in front. -/
def withOption (given : Given α) (option : α) (value : List Char) : Given α :=
  { given with options := (option, value) :: given.options }

/-- Puts a plain word in front. -/
def withWord (given : Given α) (word : List Char) : Given α :=
  { given with words := word :: given.words }

def has [BEq α] (given : Given α) (option : α) : Bool :=
  given.options.any (·.1 == option)

/-- The value of an option; if it is given more than once, the last one. -/
def value? [BEq α] (given : Given α) (option : α) : Option (List Char) :=
  (given.options.reverse.find? (·.1 == option)).map (·.2)

end Given

def isOption (word : List Char) : Bool :=
  word.head? == some '-' && 1 < word.length

/-- The fault of an option that is not known. With one hyphen its first character counts as its
name. -/
def unknownFault (o : Options α) (word name : List Char) : Fault :=
  if Text.startsWith "--" word then .unknown name (similar name (o.all.map o.name))
  else .unknown (word.take 2) []

def read (o : Options α) : List (List Char) → Except Fault (Given α)
  | [] => .ok {}
  | word :: rest =>
    if word = "--".toList then .ok { words := rest }
    else if isOption word then
      let name := word.takeWhile (· != '=')
      let attached := (word.drop name.length).tail?
      match o.all.find? fun option => (o.name option).toList == name with
      | none => .error (o.unknownFault word name)
      | some option =>
        if o.takesValue option then
          match attached with
          | some value => (·.withOption option value) <$> o.read rest
          | none =>
            match rest with
            | value :: rest => (·.withOption option value) <$> o.read rest
            | [] => .error (.withoutValue (o.name option))
        else
          match attached with
          | some _ => .error (.withValue (o.name option))
          | none => (·.withOption option []) <$> o.read rest
    else if o.areMixed then (·.withWord word) <$> o.read rest
    else .ok { words := word :: rest }

end Options

end TapAudit.CommandLine
