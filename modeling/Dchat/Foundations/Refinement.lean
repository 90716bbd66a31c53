import Dchat.Foundations.Fault
import Mathlib.Tactic.Common

/-!
# Programs that agree

Two versions of a program, one of which works on memory and can meet memory already freed.
`Fault.Agree P x y` says that both return, with results related by `P`, or that both stop at the
same fault, and that this fault is no use of freed memory.

* `Fault.Agree.bind` is the rule for sequences, and `Fault.agree_self` the one for a part that both
  versions share.
* `Fault.Agree.exists_ok` and `Fault.Agree.exists_ok_left` read off the returning runs.
-/

namespace Dchat.Fault

variable {α β γ δ : Type}

/-- Both return, with related results, or both stop at the same fault, which is not `freed`. -/
inductive Agree (P : α → β → Prop) : Except Fault α → Except Fault β → Prop
  | ok {a : α} {b : β} (h : P a b) : Agree P (.ok a) (.ok b)
  | error {e : Fault} (h : e ≠ .freed) : Agree P (.error e) (.error e)

namespace Agree

variable {P : α → β → Prop} {Q : γ → δ → Prop} {x : Except Fault α} {y : Except Fault β}

theorem mono {P' : α → β → Prop} (h : Agree P x y) (hP : ∀ a b, P a b → P' a b) : Agree P' x y := by
  cases h with
  | ok h => exact .ok (hP _ _ h)
  | error h => exact .error h

/-- **Sequences.** -/
theorem bind {f : α → Except Fault γ} {g : β → Except Fault δ} (h : Agree P x y)
    (hf : ∀ a b, P a b → Agree Q (f a) (g b)) : Agree Q (x >>= f) (y >>= g) := by
  cases h with
  | ok h => exact hf _ _ h
  | error h => exact .error h

theorem ne_freed (h : Agree P x y) : x ≠ .error .freed := by
  cases h with
  | ok h => exact fun he => nomatch he
  | error h => exact fun he => h (Except.error.inj he)

theorem exists_ok {b : β} (h : Agree P x (.ok b)) : ∃ a, x = .ok a ∧ P a b := by
  cases h with
  | ok h => exact ⟨_, rfl, h⟩

theorem exists_ok_left {a : α} (h : Agree P (.ok a) y) : ∃ b, y = .ok b ∧ P a b := by
  cases h with
  | ok h => exact ⟨_, rfl, h⟩

end Agree

/-- A computation agrees with itself if it does not use freed memory. -/
theorem agree_self {x : Except Fault α} (h : x ≠ .error .freed) : Agree Eq x x := by
  cases x with
  | ok a => exact .ok rfl
  | error e => exact .error fun he => h (congrArg _ he)

end Dchat.Fault
