import Mathlib.Data.List.Forall2
import Mathlib.Data.List.Nodup

/-!
# Order of appearance in a list

`[a, b] <+ l` says that `a` appears before `b` in `l`. In a list without repetitions this is what
puts a sublist together from its neighbours: `sublist_glue` adds an element after the last one.
`exists_forall₂_of_map_sublist` turns an order on keys into an order on the values that carry them.
-/

namespace Dchat.Sublists

open List

variable {α β κ : Type*}

theorem pair_sublist_append {l : List α} {a b : α} (h : a ∈ l) : [a, b] <+ l ++ [b] :=
  (singleton_sublist.2 h).append (Sublist.refl [b])

/-- What comes before `a` and what comes after it. -/
theorem sublist_glue {L : List α} (hL : L.Nodup) {l : List α} {a b : α} (hla : l ++ [a] <+ L)
    (hab : [a, b] <+ L) : l ++ [a] ++ [b] <+ L := by
  induction L generalizing l with
  | nil => simp at hab
  | cons x L ih =>
    obtain ⟨hx, hL⟩ := nodup_cons.1 hL
    cases l with
    | nil => exact hab
    | cons y l =>
      -- in both cases `a` is in the tail, so that `x` is not `a`
      have hskip : a ∈ L → [a, b] <+ L := by
        intro ha
        cases hab with
        | cons _ h => exact h
        | cons_cons _ h => exact absurd ha hx
      cases hla with
      | cons _ h =>
        have ha : a ∈ L := h.subset (by simp)
        exact (ih hL h (hskip ha)).cons x
      | cons_cons _ h =>
        have ha : a ∈ L := h.subset (by simp)
        exact (ih hL h (hskip ha)).cons_cons x

/-- The values whose keys appear in the order of `as`, with what holds between a value and the one
of its key, are a sublist of `as` up to that relation. -/
theorem exists_forall₂_of_map_sublist {f : α → κ} {g : β → κ} {P : α → β → Prop} {as : List α}
    {bs : List β} (hsub : bs.map g <+ as.map f) (hnd : (as.map f).Nodup)
    (h : ∀ b ∈ bs, ∃ a ∈ as, f a = g b ∧ P a b) : ∃ l, l <+ as ∧ Forall₂ P l bs := by
  obtain ⟨l, hl, hmap⟩ := sublist_map_iff.1 hsub
  refine ⟨l, hl, ?_⟩
  have hinj : ∀ a ∈ as, ∀ a' ∈ as, f a = f a' → a = a' := inj_on_of_nodup_map hnd
  have hkeys : ∀ a ∈ l, ∀ b ∈ bs, f a = g b → P a b := by
    intro a ha b hb hab
    obtain ⟨a', ha', hk, hP⟩ := h b hb
    rw [hinj a (hl.subset ha) a' ha' (hab.trans hk.symm)]
    exact hP
  clear hsub hl h hinj
  induction bs generalizing l with
  | nil =>
    obtain rfl := map_eq_nil_iff.1 hmap.symm
    exact Forall₂.nil
  | cons b bs ih =>
    obtain ⟨a, l, rfl, hab, hmap'⟩ := map_eq_cons_iff.1 hmap.symm
    refine Forall₂.cons (hkeys a (by simp) b (by simp) hab) (ih l hmap'.symm ?_)
    exact fun a' ha' b' hb' => hkeys a' (by simp [ha']) b' (by simp [hb'])

end Dchat.Sublists
