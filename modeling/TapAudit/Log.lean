/-!
# Notes

Reading a script and looking up history leave notes for whoever runs the audit. They are part of a
result, in the order in which they were made.
-/

namespace TapAudit

/-- How much a note matters. -/
inductive LogLevel where
  | debug
  | warning
  deriving DecidableEq, Repr

def LogLevel.label : LogLevel → String
  | .debug => "DEBUG"
  | .warning => "WARNING"

/-- One note. -/
structure LogRecord where
  level : LogLevel
  message : String
  deriving DecidableEq, Repr

/-- A value and the notes made on the way to it. -/
structure Logged (α : Type) where
  value : α
  log : List LogRecord := []
  deriving DecidableEq, Repr

namespace Logged

/-- Notes are kept in order. -/
instance : Monad Logged where
  pure value := ⟨value, []⟩
  bind first next :=
    let second := next first.value
    ⟨second.value, first.log ++ second.log⟩

/-- A note of minor interest. -/
def debug (message : String) : Logged Unit :=
  ⟨(), [⟨.debug, message⟩]⟩

/-- A note that something went wrong. -/
def warning (message : String) : Logged Unit :=
  ⟨(), [⟨.warning, message⟩]⟩

variable {α β : Type}

@[simp] theorem pure_value (a : α) : (pure a : Logged α).value = a := rfl

@[simp] theorem pure_log (a : α) : (pure a : Logged α).log = [] := rfl

@[simp] theorem bind_value (m : Logged α) (f : α → Logged β) :
    (m >>= f).value = (f m.value).value := rfl

@[simp] theorem bind_log (m : Logged α) (f : α → Logged β) :
    (m >>= f).log = m.log ++ (f m.value).log := rfl

end Logged

end TapAudit
