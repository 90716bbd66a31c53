import Mathlib.Order.Defs.LinearOrder
import Mathlib.Data.Set.Insert

/-!
# Campaigns among ranked agents

The bully algorithm in its own terms. Agents of a linearly ordered rank campaign by calling on all
the others; an agent called on by one of lower rank stops it and campaigns itself, and otherwise
gives way; an agent that is stopped gives up. `Move` relates the campaigns before and after one such
move: which agents may campaign afterwards, and which calls are under way at least.

`Objected` is the invariant: against every campaign but that of the top agent there is an objection
under way, the call on the top agent or its answer. `Objected.move` says that the moves keep it, and
`Objected.eq_top` that once nothing is under way only the top agent can be campaigning.
-/

namespace Dchat.Outranking

/-- A call on another agent to give way, or the answer of an agent that outranks the caller. -/
inductive Call
  | start
  | stop
  deriving DecidableEq

variable {α κ : Type*}

/-- The agents that campaign, and the calls under way, with their sources and destinations. -/
structure Campaign (α : Type*) where
  campaigning : Set α
  pending : Set (Call × α × α)

variable [LinearOrder κ] (rank : α → κ) (agents : Set α)

/-- A move of the algorithm. A call that is under way stays so, unless it is the one that the move
answers. -/
inductive Move : Campaign α → Campaign α → Prop
  /-- `i` starts a campaign. -/
  | campaign {c c' : Campaign α} (i : α) (hc : c'.campaigning ⊆ insert i c.campaigning)
      (hp : c.pending ⊆ c'.pending)
      (hs : ∀ j ∈ agents, j ≠ i → (Call.start, i, j) ∈ c'.pending) : Move c c'
  /-- `j` answers the call of `i`, which it outranks. -/
  | outrank {c c' : Campaign α} (i j : α) (hr : rank i < rank j)
      (hc : c'.campaigning ⊆ insert j c.campaigning)
      (hp : c.pending \ {(Call.start, i, j)} ⊆ c'.pending)
      (hstop : (Call.stop, j, i) ∈ c'.pending)
      (hs : ∀ k ∈ agents, k ≠ j → (Call.start, j, k) ∈ c'.pending) : Move c c'
  /-- `j` gives way to `i`, which it does not outrank. -/
  | heed {c c' : Campaign α} (i j : α) (hr : ¬ rank i < rank j)
      (hc : c'.campaigning ⊆ c.campaigning \ {j})
      (hp : c.pending \ {(Call.start, i, j)} ⊆ c'.pending) : Move c c'
  /-- `j` is stopped by `i`. -/
  | halt {c c' : Campaign α} (i j : α) (hc : c'.campaigning ⊆ c.campaigning \ {j})
      (hp : c.pending \ {(Call.stop, i, j)} ⊆ c'.pending) : Move c c'

/-- Against every campaign but that of `top` an objection is under way. -/
def Objected (top : α) (c : Campaign α) : Prop :=
  ∀ i ∈ c.campaigning, i ≠ top →
    (Call.start, i, top) ∈ c.pending ∨ (Call.stop, top, i) ∈ c.pending

variable {rank agents} {top : α} {c c' : Campaign α}

/-- **The moves keep every campaign objected to.** -/
theorem Objected.move (htop : top ∈ agents) (hmax : ∀ i ∈ agents, i ≠ top → rank i < rank top)
    (hagents : c.campaigning ⊆ agents) (h : Objected top c) (hm : Move rank agents c c') :
    Objected top c' := by
  cases hm with
  | campaign i hc hp hs =>
    intro k hk hne
    obtain rfl | hk := hc hk
    · exact .inl (hs top htop hne.symm)
    · exact (h k hk hne).imp (fun h => hp h) fun h => hp h
  | outrank i j hr hc hp hstop hs =>
    intro k hk hne
    obtain rfl | hk := hc hk
    · exact .inl (hs top htop hne.symm)
    · obtain hstart | hstart := h k hk hne
      · -- the objection may be the call that is answered, and then it is the answer
        by_cases heq : (Call.start, k, top) = (Call.start, i, j)
        · obtain ⟨-, rfl, rfl⟩ : Call.start = Call.start ∧ k = i ∧ top = j := by simpa using heq
          exact .inr hstop
        · exact .inl (hp ⟨hstart, heq⟩)
      · exact .inr (hp ⟨hstart, by simp⟩)
  | heed i j hr hc hp =>
    intro k hk hne
    have hk := (hc hk).1
    obtain hstart | hstart := h k hk hne
    · refine .inl (hp ⟨hstart, fun heq => hr ?_⟩)
      obtain ⟨-, rfl, rfl⟩ : Call.start = Call.start ∧ k = i ∧ top = j := by simpa using heq
      exact hmax k (hagents hk) hne
    · exact .inr (hp ⟨hstart, by simp⟩)
  | halt i j hc hp =>
    intro k hk hne
    obtain ⟨hk, hkj⟩ := hc hk
    obtain hstart | hstart := h k hk hne
    · exact .inl (hp ⟨hstart, by simp⟩)
    · refine .inr (hp ⟨hstart, fun heq => hkj ?_⟩)
      obtain ⟨-, -, rfl⟩ : Call.stop = Call.stop ∧ top = i ∧ k = j := by simpa using heq
      exact rfl

/-- **Only the top agent is left** once no call is under way. -/
theorem Objected.eq_top (h : Objected top c) (hquiet : c.pending = ∅) {i : α}
    (hi : i ∈ c.campaigning) : i = top := by
  by_contra hne
  obtain hp | hp := h i hi hne <;> rw [hquiet] at hp <;> exact hp

end Dchat.Outranking
