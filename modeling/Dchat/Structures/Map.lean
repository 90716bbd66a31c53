import Mathlib.Data.List.Nodup
import Mathlib.Data.Int.Notation
import Mathlib.Tactic.Common

/-!
# The map of `structures/map.c`

A linked list of pairs, newest first, with a count kept beside it. `Map` carries the two facts the
operations keep: no key occurs twice, and the count is the length of the list. A stored pointer is
modelled by the object it points to, so a write through the pointer is a `mapPut` on its key.

* `mapGet`, `mapPut`, `mapRemove` follow the source; `mapGet_mapPut` and
  `mapGet_mapRemove` are their laws.
* `filterValues` is the effect of one pass of an iterator that rewrites or removes each value it
  meets; `mapGet_filterValues` says that the pass acts on each key by itself.
-/

namespace Dchat.Structures

/-- `struct map`. -/
structure Map (β : Type*) where
  pairs : List (ℤ × β)
  size : ℤ
  nodup : (pairs.map Prod.fst).Nodup
  size_eq : size = pairs.length

variable {β : Type*}

/-- The count follows the pairs. -/
theorem Map.ext_pairs {m m' : Map β} (h : m.pairs = m'.pairs) : m = m' := by
  obtain ⟨pairs, size, nodup, size_eq⟩ := m
  obtain ⟨pairs', size', nodup', size_eq'⟩ := m'
  obtain rfl : pairs = pairs' := h
  obtain rfl : size = size' := size_eq.trans size_eq'.symm
  rfl

/-- `map_new`. -/
def mapNew : Map β where
  pairs := []
  size := 0
  nodup := List.nodup_nil
  size_eq := rfl

/-- `find_pair_by_key`. -/
def findPairByKey (m : Map β) (key : ℤ) : Option (ℤ × β) := m.pairs.find? fun p => p.1 = key

/-- `map_get`. -/
def mapGet (m : Map β) (key : ℤ) : Option β := (findPairByKey m key).map Prod.snd

theorem mapGet_eq_some {m : Map β} {key : ℤ} {value : β} :
    mapGet m key = some value ↔ (key, value) ∈ m.pairs := by
  constructor
  · intro h
    obtain ⟨⟨k, v⟩, hf, rfl⟩ := Option.map_eq_some_iff.1 h
    obtain rfl : k = key := by simpa using List.find?_some hf
    exact List.mem_of_find?_eq_some hf
  · intro h
    rw [mapGet, findPairByKey]
    cases hf : m.pairs.find? fun p => p.1 = key with
    | none => simpa using List.find?_eq_none.1 hf _ h
    | some p =>
      have hk : p.1 = key := by simpa using List.find?_some hf
      have hp := List.inj_on_of_nodup_map m.nodup (List.mem_of_find?_eq_some hf) h hk
      rw [hp]
      rfl

/-- Overwrite the value of a key in place. -/
def updatePair (key : ℤ) (value : β) (p : ℤ × β) : ℤ × β := if p.1 = key then (key, value) else p

@[simp] theorem updatePair_fst (key : ℤ) (value : β) (p : ℤ × β) :
    (updatePair key value p).1 = p.1 := by
  unfold updatePair
  split
  · next h => exact h.symm
  · rfl

/-- `map_put`: overwrite the value of a key already present, or insert a new pair at the head if
`malloc` succeeds (`allocated`). -/
def mapPut (m : Map β) (key : ℤ) (value : β) (allocated : Bool) : ℤ × Map β :=
  if h : key ∈ m.pairs.map Prod.fst then
    (0, { pairs := m.pairs.map (updatePair key value)
          size := m.size
          nodup := by simpa [Function.comp_def] using m.nodup
          size_eq := by rw [m.size_eq, List.length_map] })
  else if allocated then
    (0, { pairs := (key, value) :: m.pairs
          size := m.size + 1
          nodup := List.nodup_cons.2 ⟨h, m.nodup⟩
          size_eq := by rw [m.size_eq, List.length_cons]; rfl })
  else (-1, m)

/-- **What a lookup finds after a `map_put`.** -/
theorem mapGet_mapPut (m : Map β) (key k : ℤ) (value : β) :
    mapGet (mapPut m key value true).2 k = if k = key then some value else mapGet m k := by
  apply Option.ext
  intro v
  rw [mapGet_eq_some, mapPut]
  split
  · next hmem =>
    obtain ⟨⟨_, w⟩, hw, rfl⟩ := List.mem_map.1 hmem
    simp only [List.mem_map]
    split
    · next hk =>
      subst hk
      constructor
      · rintro ⟨p, -, hp⟩
        have h1 : p.1 = k := by rw [← updatePair_fst k value p, hp]
        rw [updatePair, if_pos h1] at hp
        rw [(Prod.mk.inj hp).2]
      · rintro ⟨⟩
        exact ⟨(k, w), hw, by rw [updatePair, if_pos rfl]⟩
    · next hk =>
      rw [mapGet_eq_some]
      constructor
      · rintro ⟨p, hp, he⟩
        have h1 : p.1 = k := by rw [← updatePair_fst _ value p, he]
        rw [updatePair, if_neg (h1 ▸ hk)] at he
        exact he ▸ hp
      · intro hp
        exact ⟨(k, v), hp, by rw [updatePair, if_neg hk]⟩
  · next hmem =>
    simp only [if_true, List.mem_cons, Prod.mk.injEq]
    split
    · next hk =>
      subst hk
      constructor
      · rintro (⟨-, rfl⟩ | h)
        · rfl
        · exact absurd (List.mem_map_of_mem h) hmem
      · rintro ⟨⟩
        exact Or.inl ⟨rfl, rfl⟩
    · next hk =>
      rw [mapGet_eq_some]
      exact ⟨fun h => h.resolve_left fun h => hk h.1, Or.inr⟩

theorem mapGet_isSome {m : Map β} {key : ℤ} :
    (mapGet m key).isSome ↔ key ∈ m.pairs.map Prod.fst := by
  rw [Option.isSome_iff_exists, List.mem_map]
  constructor
  · rintro ⟨value, h⟩
    exact ⟨(key, value), mapGet_eq_some.1 h, rfl⟩
  · rintro ⟨⟨_, value⟩, h, rfl⟩
    exact ⟨value, mapGet_eq_some.2 h⟩

theorem mapPut_fst (m : Map β) (key : ℤ) (value : β) : (mapPut m key value true).1 = 0 := by
  unfold mapPut
  split
  · rfl
  · rw [if_pos rfl]

/-- `malloc` matters for a new key only. -/
theorem mapPut_stored {m : Map β} {key : ℤ} (value : β) {allocated : Bool}
    (h : allocated = true ∨ key ∈ m.pairs.map Prod.fst) :
    mapPut m key value allocated = (0, (mapPut m key value true).2) := by
  have heq : mapPut m key value allocated = mapPut m key value true := by
    obtain rfl | hmem := h
    · rfl
    · rw [mapPut, mapPut, dif_pos hmem, dif_pos hmem]
  rw [heq, ← mapPut_fst m key value]

/-- A `map_put` that fails changes nothing. -/
theorem mapPut_refused {m : Map β} {key : ℤ} (value : β) {allocated : Bool}
    (h : ¬ (allocated = true ∨ key ∈ m.pairs.map Prod.fst)) :
    mapPut m key value allocated = (-1, m) := by
  obtain ⟨hallocated, hmem⟩ := not_or.1 h
  rw [mapPut, dif_neg hmem, if_neg hallocated]

/-- `map_remove`. -/
def mapRemove (m : Map β) (key : ℤ) : Option β × Map β :=
  match h : findPairByKey m key with
  | none => (none, m)
  | some targetPair =>
    (some targetPair.2,
      { pairs := m.pairs.eraseP fun p => p.1 = key
        size := m.size - 1
        nodup := m.nodup.sublist ((List.eraseP_sublist ..).map _)
        size_eq := by
          have hmem := List.mem_of_find?_eq_some h
          have hkey := List.find?_some h
          have hpos : 0 < m.pairs.length := List.length_pos_of_mem hmem
          rw [m.size_eq, List.length_eraseP_of_mem hmem hkey]
          omega })

/-- `map_remove` returns what `map_get` would. -/
theorem mapRemove_fst (m : Map β) (key : ℤ) : (mapRemove m key).1 = mapGet m key := by
  unfold mapRemove mapGet
  split
  · next h => simp [h]
  · next h => simp [h]

theorem pairs_mapRemove (m : Map β) (key : ℤ) :
    (mapRemove m key).2.pairs = m.pairs.eraseP fun p => p.1 = key := by
  unfold mapRemove
  split
  · next h =>
    have habsent : ∀ q ∈ m.pairs, ¬ q.1 = key := by
      simpa [findPairByKey] using h
    exact (List.eraseP_of_forall_not (by simpa using habsent)).symm
  · rfl

/-- It deletes the pair of the key and no other. -/
theorem mem_mapRemove {m : Map β} {key : ℤ} {p : ℤ × β} :
    p ∈ (mapRemove m key).2.pairs ↔ p ∈ m.pairs ∧ p.1 ≠ key := by
  unfold mapRemove
  split
  · next h =>
    have habsent : ∀ q ∈ m.pairs, q.1 ≠ key := by
      simpa [findPairByKey] using h
    exact ⟨fun hp => ⟨hp, habsent p hp⟩, And.left⟩
  · next targetPair h =>
    obtain ⟨a, before, after, hbefore, ha, hpairs, herase⟩ := List.exists_of_eraseP
      (List.mem_of_find?_eq_some h) (List.find?_some h)
    have hnodup := m.nodup
    rw [hpairs, List.map_append, List.map_cons, List.nodup_append, List.nodup_cons] at hnodup
    obtain ⟨-, ⟨hafter, -⟩, -⟩ := hnodup
    have hkey : a.1 = key := of_decide_eq_true ha
    dsimp only
    rw [herase, hpairs, List.mem_append, List.mem_append, List.mem_cons]
    constructor
    · rintro (hp | hp)
      · exact ⟨.inl hp, fun hpk => hbefore p hp (decide_eq_true hpk)⟩
      · refine ⟨.inr (.inr hp), fun hpk => hafter ?_⟩
        rw [hkey, ← hpk]
        exact List.mem_map_of_mem hp
    · rintro ⟨hp | rfl | hp, hne⟩
      · exact .inl hp
      · exact absurd hkey hne
      · exact .inr hp

/-- **What a lookup finds after a `map_remove`.** -/
theorem mapGet_mapRemove (m : Map β) (key k : ℤ) :
    mapGet (mapRemove m key).2 k = if k = key then none else mapGet m k := by
  apply Option.ext
  intro v
  rw [mapGet_eq_some, mem_mapRemove]
  split
  · next hk => simp [hk]
  · next hk =>
    rw [mapGet_eq_some]
    exact and_iff_left hk

/-- `map_size`. -/
def mapSize (m : Map β) : ℤ := m.size

/-- One pass over the list, head to tail: `f` gives the new value of each pair met, or `none` to
remove it. -/
def filterValues (m : Map β) (f : ℤ → β → Option β) : Map β where
  pairs := m.pairs.filterMap fun p => (f p.1 p.2).map (p.1, ·)
  size := m.size - ((m.pairs.length : ℤ) -
    (m.pairs.filterMap fun p => (f p.1 p.2).map (p.1, ·)).length)
  nodup := by
    refine m.nodup.sublist ?_
    rw [List.map_filterMap]
    induction m.pairs with
    | nil => exact List.Sublist.slnil
    | cons p ps ih =>
      rw [List.filterMap_cons, List.map_cons]
      cases f p.1 p.2 with
      | none => exact ih.cons _
      | some v => exact ih.cons_cons _
  size_eq := by rw [m.size_eq]; omega

/-- **A pass acts on each key by itself.** -/
theorem mapGet_filterValues (m : Map β) (f : ℤ → β → Option β) (k : ℤ) :
    mapGet (filterValues m f) k = (mapGet m k).bind (f k) := by
  apply Option.ext
  intro v
  rw [mapGet_eq_some, Option.bind_eq_some_iff, filterValues, List.mem_filterMap]
  constructor
  · rintro ⟨⟨k', w⟩, hp, he⟩
    obtain ⟨v', hv, he⟩ := Option.map_eq_some_iff.1 he
    obtain ⟨rfl, rfl⟩ := Prod.mk.inj he
    exact ⟨w, mapGet_eq_some.2 hp, hv⟩
  · rintro ⟨w, hw, hv⟩
    exact ⟨(k, w), mapGet_eq_some.1 hw, by simp [hv]⟩

end Dchat.Structures
