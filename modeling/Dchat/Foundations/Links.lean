import Mathlib.Data.List.Basic
import Mathlib.Data.List.Pairwise

/-!
# Point-to-point links between parties

The messages under way between parties named by `α` are one list of `Packet`s, oldest first; the
link from `a` to `b` is made of the packets with that source and destination. `takeFirst a b`
takes the oldest packet off the link from `a` to `b`: first in, first out on each link, any order
across links. `takeFirst_eq_some` splits the list at that packet.
-/

namespace Dchat.Links

/-- A message `body` under way from `src` to `dst`. -/
structure Packet (α μ : Type*) where
  src : α
  dst : α
  body : μ
  deriving DecidableEq

variable {α μ : Type*}

/-- The packet is on the link from `a` to `b`. -/
def Packet.On (a b : α) (p : Packet α μ) : Prop := p.src = a ∧ p.dst = b

variable [DecidableEq α]

instance (a b : α) : DecidablePred (@Packet.On α μ a b) := fun _ => instDecidableAnd

/-- Take the oldest packet off the link from `a` to `b`. -/
def takeFirst (a b : α) : List (Packet α μ) → Option (μ × List (Packet α μ))
  | [] => none
  | p :: ps =>
    if p.On a b then some (p.body, ps)
    else (takeFirst a b ps).map fun (m, rest) => (m, p :: rest)

/-- The packet taken off a link is the first one of the list on that link. -/
theorem takeFirst_eq_some {a b : α} {m : μ} {ps rest : List (Packet α μ)}
    (h : takeFirst a b ps = some (m, rest)) :
    ∃ l r, ps = l ++ ⟨a, b, m⟩ :: r ∧ rest = l ++ r ∧ ∀ p ∈ l, ¬ p.On a b := by
  induction ps generalizing rest with
  | nil => cases h
  | cons p ps ih =>
    rw [takeFirst] at h
    split at h
    · next hp =>
      obtain ⟨rfl, rfl⟩ := Prod.mk.inj (Option.some.inj h)
      obtain ⟨rfl, rfl⟩ := hp
      exact ⟨[], ps, rfl, rfl, by simp⟩
    · next hp =>
      obtain ⟨⟨m', rest'⟩, h', heq⟩ := Option.map_eq_some_iff.1 h
      obtain ⟨rfl, rfl⟩ := Prod.mk.inj heq
      obtain ⟨l, r, rfl, rfl, hl⟩ := ih h'
      refine ⟨p :: l, r, rfl, rfl, ?_⟩
      intro q hq
      rcases List.mem_cons.1 hq with rfl | hq
      · exact hp
      · exact hl q hq

/-- Taking the first packet of a link erases it. -/
theorem takeFirst_eq_erase [DecidableEq μ] {a b : α} {m : μ} {ps rest : List (Packet α μ)}
    (h : takeFirst a b ps = some (m, rest)) : ps.erase ⟨a, b, m⟩ = rest := by
  obtain ⟨l, r, rfl, rfl, hl⟩ := takeFirst_eq_some h
  have hnot : (⟨a, b, m⟩ : Packet α μ) ∉ l := fun hmem => hl _ hmem ⟨rfl, rfl⟩
  rw [List.erase_append_right _ hnot, List.erase_cons_head]

theorem takeFirst_sublist {a b : α} {m : μ} {ps rest : List (Packet α μ)}
    (h : takeFirst a b ps = some (m, rest)) : rest.Sublist ps := by
  obtain ⟨l, r, rfl, rfl, -⟩ := takeFirst_eq_some h
  exact (List.sublist_cons_self _ r).append_left l

theorem mem_of_takeFirst {a b : α} {m : μ} {ps rest : List (Packet α μ)}
    (h : takeFirst a b ps = some (m, rest)) : (⟨a, b, m⟩ : Packet α μ) ∈ ps := by
  obtain ⟨l, r, rfl, -, -⟩ := takeFirst_eq_some h
  simp

/-- What holds between an earlier and a later packet of one link holds between the packet taken
off and everything left on its link. -/
theorem pairwise_takeFirst {R : Packet α μ → Packet α μ → Prop} {a b : α} {m : μ}
    {ps rest : List (Packet α μ)} (hR : ps.Pairwise R) (h : takeFirst a b ps = some (m, rest)) :
    ∀ p ∈ rest, p.On a b → R ⟨a, b, m⟩ p := by
  obtain ⟨l, r, rfl, rfl, hl⟩ := takeFirst_eq_some h
  intro p hp hon
  rcases List.mem_append.1 hp with hp | hp
  · exact absurd hon (hl p hp)
  · exact (List.pairwise_cons.1 (List.pairwise_append.1 hR).2.1).1 p hp

end Dchat.Links
