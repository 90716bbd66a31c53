import Mathlib.Data.Int.Notation
import Mathlib.Data.List.Induction
import Mathlib.Tactic.Linarith
import Mathlib.Tactic.TypeStar

/-!
# Histories

A history is a list to which entries are added at the end, each of which is justified by the entries
before it: `Justified J l`.

* `justified_concat`: what an entry needs when it is added.
* `Justified.paced`: if the entries that have a time are justified by a distance to the last one,
  then there are not too many of them.
-/

namespace Dchat

variable {α : Type*} {J : List α → α → Prop} {l : List α} {a : α}

/-- Every entry is justified by those before it. -/
def Justified (J : List α → α → Prop) (l : List α) : Prop :=
  ∀ before a after, l = before ++ a :: after → J before a

theorem justified_nil : Justified J [] := by
  intro before a after h
  cases before <;> cases h

/-- An entry is added. -/
theorem justified_concat : Justified J (l ++ [a]) ↔ Justified J l ∧ J l a := by
  constructor
  · intro h
    refine ⟨fun before b after hl => ?_, h l a [] rfl⟩
    refine h before b (after ++ [a]) ?_
    rw [hl, List.append_assoc]
    rfl
  · rintro ⟨h, ha⟩ before b after hl
    obtain rfl | ⟨after, c, rfl⟩ := List.eq_nil_or_concat after
    · obtain ⟨rfl, heq⟩ := List.append_inj' hl rfl
      exact (List.cons.inj heq).1 ▸ ha
    · rw [List.concat_eq_append, ← List.cons_append, ← List.append_assoc] at hl
      exact h before b after (List.append_inj' hl rfl).1

/-- The time of the last entry that has one. -/
def lastTime (time : α → Option ℤ) (start : ℤ) (l : List α) : ℤ :=
  (l.filterMap time).getLast?.getD start

/-- **Entries keep their distance**, so that the time that has passed bounds their number. -/
theorem Justified.paced (time : α → Option ℤ) (start gap : ℤ)
    (hJ : ∀ before a x, J before a → time a = some x → lastTime time start before + gap ≤ x)
    (h : Justified J l) : start + gap * (l.filterMap time).length ≤ lastTime time start l := by
  induction l using List.reverseRecOn with
  | nil => simp [lastTime]
  | append_singleton l a ih =>
    obtain ⟨hl, ha⟩ := justified_concat.1 h
    have hle := ih hl
    cases hx : time a with
    | none =>
      have hsame : (l ++ [a]).filterMap time = l.filterMap time := by simp [hx]
      rw [lastTime, hsame]
      exact hle
    | some x =>
      have hnext : (l ++ [a]).filterMap time = l.filterMap time ++ [x] := by simp [hx]
      have hgap := hJ l a x ha hx
      rw [lastTime, hnext, List.getLast?_append, List.length_append, List.length_singleton]
      push_cast
      simp only [List.getLast?_singleton, Option.some_or, Option.getD_some]
      linarith

end Dchat
