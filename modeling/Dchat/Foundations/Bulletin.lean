import Mathlib.Data.List.Infix

/-!
# A log and its readers

Somebody posts messages to a log, in order, and hands them to those who subscribe. A reader who is
dropped may still be handed the first of the messages that are being posted.

* `Bulletin.Posted` is one round of posting, and `Bulletin.Ordered` says that every reader has been
  handed a part of the log without gaps, a subscriber its end.
* `Ordered.post`: a round keeps this.
* `Ordered.comparable`: of two subscribers, one has been handed the end of what the other has.
-/

namespace Dchat.Bulletins

variable {α μ : Type*}

/-- A log, its subscribers, and what everybody has been handed. -/
structure Bulletin (α μ : Type*) where
  log : List μ
  subscribed : α → Prop
  handed : α → List μ

/-- The messages `ms` are posted, and each reader is handed its part of them: a first part, all of
them if it is still subscribed, none if it was not and has been handed something before. -/
structure Bulletin.Posted (b : Bulletin α μ) (ms : List μ) (part : α → List μ) (b' : Bulletin α μ) :
    Prop where
  log : b'.log = b.log ++ ms
  handed : ∀ a, b'.handed a = b.handed a ++ part a
  first : ∀ a, part a <+: ms
  whole : ∀ a, b'.subscribed a → part a = ms
  entitled : ∀ a, b'.subscribed a ∨ part a ≠ [] → b.subscribed a ∨ b.handed a = []

/-- Nobody has missed a message between two others, and a subscriber has not missed one since its
first. -/
structure Bulletin.Ordered (b : Bulletin α μ) : Prop where
  gapless : ∀ a, b.handed a <:+: b.log
  current : ∀ a, b.subscribed a → b.handed a <:+ b.log

namespace Bulletin.Ordered

variable {b b' : Bulletin α μ} {ms : List μ} {part : α → List μ}

/-- What a reader has been handed is the end of the log, if it is handed anything now. -/
theorem suffix (h : b.Ordered) {a : α} (ha : b.subscribed a ∨ b.handed a = []) :
    b.handed a <:+ b.log := by
  obtain ha | ha := ha
  · exact h.current a ha
  · rw [ha]
    exact List.nil_suffix

/-- **A round of posting keeps the order.** -/
theorem post (h : b.Ordered) (hp : b.Posted ms part b') : b'.Ordered := by
  constructor
  · intro a
    rw [hp.log, hp.handed]
    by_cases hpart : part a = []
    · rw [hpart, List.append_nil]
      exact (h.gapless a).trans (List.prefix_append _ _).isInfix
    · obtain ⟨before, hbefore⟩ := h.suffix (hp.entitled a (.inr hpart))
      obtain ⟨after, hafter⟩ := hp.first a
      refine ⟨before, after, ?_⟩
      rw [← hbefore, ← hafter]
      simp only [List.append_assoc]
  · intro a ha
    obtain ⟨before, hbefore⟩ := h.suffix (hp.entitled a (.inl ha))
    refine ⟨before, ?_⟩
    rw [hp.log, hp.handed, hp.whole a ha, ← hbefore, List.append_assoc]

/-- **Subscribers are handed the same messages in the same order**, each from its first one on. -/
theorem comparable (h : b.Ordered) {a a' : α} (ha : b.subscribed a) (ha' : b.subscribed a') :
    b.handed a <:+ b.handed a' ∨ b.handed a' <:+ b.handed a :=
  List.suffix_or_suffix_of_suffix (h.current a ha) (h.current a' ha')

end Bulletin.Ordered

end Dchat.Bulletins
