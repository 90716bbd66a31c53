import Mathlib.Data.Nat.Notation
import Mathlib.Logic.Basic
import Mathlib.Tactic.TypeStar

/-!
# Runs of a labelled step function

A system is a partial step function `step : σ → ℓ → Option σ`: a label stands for everything the
environment decides, and a label that does not apply in a state has no successor. The runs of the
system under a restriction `ok` on its steps reach the states `Reach step ok init`.

* `Reach.invariant` is the induction rule: what holds at the start and is kept by every allowed
  step holds in every state reached; `Reach.invariant_of` is the same rule relative to facts
  already known of every state reached.
* `Reach.mono` compares the runs of two systems, `Reach.map` a run with what is seen of it, and
  `Reach.simulate` and `Reach.refine` the runs of two systems whose states are related, where a step
  is matched by one step or by any number of them.
* `exec` runs a list of labels, and `reach_exec` says that it stays inside `Reach`.
* `Inevitable` says that a goal is reached whatever labels are chosen;
  `Inevitable.of_measure` is its rule.
-/

namespace Dchat.Runs

variable {σ ℓ : Type*}

/-- The states reached from a state of `init` by steps, each allowed by `ok` in the state it is
taken in. -/
inductive Reach (step : σ → ℓ → Option σ) (ok : σ → ℓ → Prop) (init : σ → Prop) : σ → Prop
  | start {s : σ} (h : init s) : Reach step ok init s
  | next {s s' : σ} {l : ℓ} (h : Reach step ok init s) (hok : ok s l) (hs : step s l = some s') :
      Reach step ok init s'

variable {step : σ → ℓ → Option σ} {ok ok' : σ → ℓ → Prop} {init : σ → Prop}

namespace Reach

/-- **The invariant rule.** -/
theorem invariant {I : σ → Prop} (h0 : ∀ s, init s → I s)
    (hstep : ∀ s l s', I s → ok s l → step s l = some s' → I s') {s : σ}
    (h : Reach step ok init s) : I s := by
  induction h with
  | start h => exact h0 _ h
  | next _ hok hs ih => exact hstep _ _ _ ih hok hs

/-- The invariant rule, relative to a property `J` already known of every state reached. -/
theorem invariant_of {I J : σ → Prop} (hJ : ∀ s, Reach step ok init s → J s)
    (h0 : ∀ s, init s → I s)
    (hstep : ∀ s l s', J s → I s → ok s l → step s l = some s' → I s') {s : σ}
    (h : Reach step ok init s) : I s := by
  induction h with
  | start h => exact h0 _ h
  | next hr hok hs ih => exact hstep _ _ _ (hJ _ hr) ih hok hs

/-- A run whose steps are allowed steps of another system is a run of that system. -/
theorem mono {step' : σ → ℓ → Option σ}
    (hok : ∀ s l s', ok s l → step s l = some s' → ok' s l ∧ step' s l = some s') {s : σ}
    (h : Reach step ok init s) : Reach step' ok' init s := by
  induction h with
  | start h => exact .start h
  | next _ ho hs ih =>
    obtain ⟨ho', hs'⟩ := hok _ _ _ ho hs
    exact ih.next ho' hs'

/-- A run is seen through `f` as a run of another system. -/
theorem map {τ : Type*} {step' : τ → ℓ → Option τ} {ok' : τ → ℓ → Prop} {init' : τ → Prop} {f : σ → τ}
    (hinit : ∀ s, init s → init' (f s))
    (hstep : ∀ s l s', ok s l → step s l = some s' → ok' (f s) l ∧ step' (f s) l = some (f s'))
    {s : σ} (h : Reach step ok init s) : Reach step' ok' init' (f s) := by
  induction h with
  | start h => exact .start (hinit _ h)
  | next _ ho hs ih =>
    obtain ⟨ho', hs'⟩ := hstep _ _ _ ho hs
    exact ih.next ho' hs'

/-- **The simulation rule**: what relates the starts and is kept by matching steps relates every
state reached to one that the other system reaches. -/
theorem simulate {τ : Type*} {step' : τ → ℓ → Option τ} {ok' : τ → ℓ → Prop} {init' : τ → Prop}
    {R : σ → τ → Prop} (hinit : ∀ s, init s → ∃ t, init' t ∧ R s t)
    (hstep : ∀ s t l s', R s t → ok s l → step s l = some s' →
      ∃ t', ok' t l ∧ step' t l = some t' ∧ R s' t')
    {s : σ} (h : Reach step ok init s) : ∃ t, Reach step' ok' init' t ∧ R s t := by
  induction h with
  | start h =>
    obtain ⟨t, ht, hR⟩ := hinit _ h
    exact ⟨t, .start ht, hR⟩
  | next _ ho hs ih =>
    obtain ⟨t, ht, hR⟩ := ih
    obtain ⟨t', ho', hs', hR'⟩ := hstep _ _ _ _ hR ho hs
    exact ⟨t', ht.next ho' hs', hR'⟩

/-- **The refinement rule**: a step may be matched by any number of steps. -/
theorem refine {τ ℓ' : Type*} {step' : τ → ℓ' → Option τ} {ok' : τ → ℓ' → Prop} {init' : τ → Prop}
    {R : σ → τ → Prop} (hinit : ∀ s, init s → ∃ t, init' t ∧ R s t)
    (hstep : ∀ s t l s', Reach step' ok' init' t → R s t → ok s l → step s l = some s' →
      ∃ t', Reach step' ok' init' t' ∧ R s' t')
    {s : σ} (h : Reach step ok init s) : ∃ t, Reach step' ok' init' t ∧ R s t := by
  induction h with
  | start h =>
    obtain ⟨t, ht, hR⟩ := hinit _ h
    exact ⟨t, .start ht, hR⟩
  | next _ ho hs ih =>
    obtain ⟨t, ht, hR⟩ := ih
    exact hstep _ _ _ _ ht hR ho hs

end Reach

/-- Run a list of labels, refusing at the first one that does not apply or that `ok` forbids. -/
def exec (step : σ → ℓ → Option σ) (ok : σ → ℓ → Prop) [∀ s l, Decidable (ok s l)] (s : σ) :
    List ℓ → Option σ
  | [] => some s
  | l :: ls => if ok s l then (step s l).bind fun s' => exec step ok s' ls else none

theorem reach_exec [∀ s l, Decidable (ok s l)] {s s' : σ} (ls : List ℓ)
    (h : Reach step ok init s) (he : exec step ok s ls = some s') : Reach step ok init s' := by
  induction ls generalizing s with
  | nil => exact Option.some.inj he ▸ h
  | cons l ls ih =>
    rw [exec] at he
    split at he
    · next hok =>
      obtain ⟨s₁, h₁, h₂⟩ := Option.bind_eq_some_iff.1 he
      exact ih (h.next hok h₁) h₂
    · cases he

/-- A list of labels that is run under a condition which the allowed steps meet. -/
theorem reach_exec_of [∀ s l, Decidable (ok' s l)] {s s' : σ} {ls : List ℓ}
    (hok : ∀ s, ∀ l ∈ ls, ok' s l → ok s l) (h : Reach step ok init s)
    (he : exec step ok' s ls = some s') : Reach step ok init s' := by
  induction ls generalizing s with
  | nil => exact Option.some.inj he ▸ h
  | cons l ls ih =>
    rw [exec] at he
    split at he
    · next ho =>
      obtain ⟨s₁, h₁, h₂⟩ := Option.bind_eq_some_iff.1 he
      exact ih (fun s l hl => hok s l (.tail _ hl)) (h.next (hok s l (by simp) ho) h₁) h₂
    · cases he

/-- Whatever enabled labels are chosen from `s` on, each of them applies, and after finitely many of
them the goal is reached. -/
inductive Inevitable (step : σ → ℓ → Option σ) (enabled : σ → ℓ → Prop) (goal : σ → Prop) : σ → Prop
  | now {s : σ} (h : goal s) : Inevitable step enabled goal s
  | later {s : σ} (hsome : ∃ l, enabled s l) (happlies : ∀ l, enabled s l → (step s l).isSome)
      (h : ∀ l s', enabled s l → step s l = some s' → Inevitable step enabled goal s') :
      Inevitable step enabled goal s

/-- **The measure rule**: an invariant under which some label is enabled before the goal, and every
enabled label applies and decreases a measure. -/
theorem Inevitable.of_measure {enabled : σ → ℓ → Prop} {goal : σ → Prop} {I : σ → Prop} (m : σ → ℕ)
    (hprogress : ∀ s, I s → goal s ∨ ∃ l, enabled s l)
    (hstep : ∀ s l, I s → enabled s l → ∃ s', step s l = some s' ∧ I s' ∧ m s' < m s) {s : σ}
    (hs : I s) : Inevitable step enabled goal s := by
  induction hn : m s using Nat.strongRecOn generalizing s with
  | ind n ih =>
    obtain hgoal | hsome := hprogress s hs
    · exact .now hgoal
    · refine .later hsome (fun l hl => ?_) (fun l s' hl hs' => ?_)
      · obtain ⟨s', hs', -⟩ := hstep s l hs hl
        exact Option.isSome_iff_exists.2 ⟨s', hs'⟩
      · obtain ⟨s'', hs'', hI, hlt⟩ := hstep s l hs hl
        obtain rfl := Option.some.inj (hs''.symm.trans hs')
        exact ih _ (hn ▸ hlt) hI rfl

end Dchat.Runs
