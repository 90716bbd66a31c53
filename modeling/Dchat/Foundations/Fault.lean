import Mathlib.Tactic.Common

/-!
# What stops a C function

A function that can fail returns in `Except Fault`. `Fault.bind_eq_ok` takes a sequence of two
such functions apart.
-/

namespace Dchat

/-- What stops a function of the program before it returns. -/
inductive Fault
  /-- `exit(1)` -/
  | exit
  /-- A write behind the end of an array. -/
  | bufferOverflow
  /-- A read of a field that has no NUL. -/
  | unterminated
  /-- A signed overflow, in arithmetic or in the result of `%d`. -/
  | integerOverflow
  /-- The use of a null pointer. -/
  | nullPointer
  /-- The use of memory already freed. -/
  | freed
  /-- A loop that does not end. -/
  | diverges
  deriving DecidableEq

@[simp] theorem Fault.ok_bind {α β : Type} (a : α) (f : α → Except Fault β) :
    (Except.ok a >>= f) = f a := rfl

@[simp] theorem Fault.error_bind {α β : Type} (e : Fault) (f : α → Except Fault β) :
    (Except.error e >>= f) = .error e := rfl

/-- A sequence of two computations that returns. -/
theorem Fault.bind_eq_ok {α β : Type} {x : Except Fault α} {f : α → Except Fault β} {b : β} :
    (x >>= f) = .ok b ↔ ∃ a, x = .ok a ∧ f a = .ok b := by
  cases x with
  | error e => simp
  | ok a => simp

/-- A fault that neither part of a sequence can have. -/
theorem Fault.bind_ne_error {α β : Type} {x : Except Fault α} {f : α → Except Fault β} {e : Fault}
    (hx : x ≠ .error e) (hf : ∀ a, f a ≠ .error e) : (x >>= f) ≠ .error e := by
  cases x with
  | error e' => exact fun h => hx (congrArg Except.error (Except.error.inj h))
  | ok a => exact hf a

theorem Fault.toOption_eq_some {α : Type} {x : Except Fault α} {a : α} :
    x.toOption = some a ↔ x = .ok a := by
  cases x <;> simp [Except.toOption]

end Dchat
