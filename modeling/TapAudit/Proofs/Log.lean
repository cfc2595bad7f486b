import Mathlib.Tactic.Common
import TapAudit.Log

/-!
# Laws of notes

Values with notes obey the laws of a monad, so the steps of a computation can be regrouped.
-/

namespace TapAudit.Logged

variable {α : Type}

@[ext] theorem ext {m n : Logged α} (hvalue : m.value = n.value) (hlog : m.log = n.log) :
    m = n := by
  cases m
  cases n
  cases hvalue
  cases hlog
  rfl

instance : LawfulMonad Logged :=
  LawfulMonad.mk' Logged
    (fun m => by ext1 <;> simp [Functor.map])
    (fun a f => by ext1 <;> simp)
    (fun m f g => by ext1 <;> simp)

@[simp] theorem map_value {β : Type} (f : α → β) (m : Logged α) : (f <$> m).value = f m.value := rfl

@[simp] theorem map_log {β : Type} (f : α → β) (m : Logged α) : (f <$> m).log = m.log :=
  List.append_nil m.log

end TapAudit.Logged
