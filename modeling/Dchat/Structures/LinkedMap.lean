import Dchat.Foundations.Queue
import Dchat.Structures.Map

/-!
# The map of `structures/map.c` as it lies in memory

`MapMemory` is `struct map` with the memory of its pairs, and its operations follow the source
pointer by pointer. `LinkedMap` carries what every map keeps: its pointers link its pairs, the count
is the number of these, and no key occurs twice. `LinkedMap.toMap` forgets the memory.

* `mapGet_linkedMap`, `mapPut_linkedMap` and `mapRemove_linkedMap`: the operations on the memory
  neither fault nor diverge, and do to `toMap` what the operations of `Map` do.
-/

namespace Dchat.Structures

open Queue

/-- The fields `key` and `value` of `struct map_pair`; a value is a `void *`. -/
structure MapPair (π : Type) where
  key : ℤ
  value : Option π
  deriving DecidableEq

/-- `struct map` and the memory of the pairs. -/
structure MapMemory (π : Type) where
  pairs : ListHead (MapPair π)
  size : ℤ

/-- A pair and its address. -/
abbrev PairCell (π : Type) := Address × MapPair π

variable {π : Type}

namespace MapMemory

/-- `map_new`. -/
def mapNew : MapMemory π where
  pairs := ListHead.init
  size := 0

/-- `find_pair_by_key`; `fuel` bounds the turns of its loop. -/
def findPairByKey (m : MapMemory π) (fuel : ℕ) (key : ℤ) : Except Fault (Option Address) :=
  m.pairs.listFind (fun p => p.key = key) fuel m.pairs.lhFirst

/-- `map_get`. -/
def mapGet (m : MapMemory π) (fuel : ℕ) (key : ℤ) : Except Fault (Option π) := do
  let targetPair ← m.findPairByKey fuel key
  match targetPair with
  | none => return none
  | some a =>
    let e ← m.pairs.deref (some a)
    return e.payload.value

/-- `map_put`; `newPair` is what `malloc` returns. -/
def mapPut (m : MapMemory π) (fuel : ℕ) (key : ℤ) (value : Option π) (newPair : Option Address) :
    Except Fault (ℤ × MapMemory π) := do
  let targetPair ← m.findPairByKey fuel key
  match targetPair with
  | some a =>
    let e ← m.pairs.deref (some a)
    let pairs := m.pairs.store a (some { e with payload := { e.payload with value := value } })
    return (0, { m with pairs := pairs })
  | none =>
    match newPair with
    | none => return (-1, m)
    | some a =>
      let pairs ← m.pairs.listInsertHead a { key := key, value := value }
      return (0, { pairs := pairs, size := m.size + 1 })

/-- `map_remove`. -/
def mapRemove (m : MapMemory π) (fuel : ℕ) (key : ℤ) : Except Fault (Option π × MapMemory π) := do
  let targetPair ← m.findPairByKey fuel key
  match targetPair with
  | none => return (none, m)
  | some a =>
    let pairs ← m.pairs.listRemove (some a)
    let e ← pairs.deref (some a)
    let pairs ← pairs.free (some a)
    return (e.payload.value, { pairs := pairs, size := m.size - 1 })

end MapMemory

/-- A map in memory: its pairs in the order of the links. -/
structure LinkedMap (π : Type) extends MapMemory π where
  cells : List (PairCell π)
  linked : Linked pairs cells
  size_eq : size = cells.length
  keys_nodup : (cells.map fun c => c.2.key).Nodup

namespace LinkedMap

/-- The map without its memory. -/
def toMap (m : LinkedMap π) : Map (Option π) where
  pairs := m.cells.map fun c => (c.2.key, c.2.value)
  size := m.size
  nodup := by
    rw [List.map_map]
    exact m.keys_nodup
  size_eq := by
    rw [m.size_eq, List.length_map]

theorem pairs_toMap (m : LinkedMap π) :
    m.toMap.pairs = m.cells.map fun c => (c.2.key, c.2.value) := rfl

/-- The new map. -/
def new : LinkedMap π where
  toMapMemory := MapMemory.mapNew
  cells := []
  linked := Linked.init
  size_eq := rfl
  keys_nodup := List.nodup_nil

/-- The map of these pairs. -/
def ofCells (cells : List (PairCell π)) (haddresses : (cells.map Prod.fst).Nodup)
    (hkeys : (cells.map fun c => c.2.key).Nodup) : LinkedMap π where
  pairs := ⟨first cells, layOut none cells⟩
  size := cells.length
  cells := cells
  linked := linked_layOut haddresses
  size_eq := rfl
  keys_nodup := hkeys

/-- A pair linked in, and the pairs around it. -/
theorem split_of_find {m : LinkedMap π} {key : ℤ} {c : PairCell π}
    (h : (m.cells.find? fun c => c.2.key = key) = some c) :
    c.2.key = key ∧ ∃ before after, m.cells = before ++ c :: after ∧
      ∀ c ∈ before, c.2.key ≠ key := by
  obtain ⟨hkey, before, after, hcells, hbefore⟩ := List.find?_eq_some_iff_append.1 h
  exact ⟨by simpa using hkey, before, after, hcells, by simpa using hbefore⟩

theorem findPairByKey_eq (m : LinkedMap π) {fuel : ℕ} (hfuel : m.cells.length < fuel) (key : ℤ) :
    m.findPairByKey fuel key =
      .ok ((m.cells.find? fun c => c.2.key = key).map Prod.fst) := by
  rw [MapMemory.findPairByKey, m.linked.lhFirst_eq]
  have hl : Linked m.pairs ([] ++ m.cells) := m.linked
  exact listFind_eq hl _ hfuel

/-- The lookup on the list of pairs is the lookup of `Map`. -/
theorem findPairByKey_toMap (m : LinkedMap π) (key : ℤ) :
    findPairByKey m.toMap key =
      (m.cells.find? fun c => c.2.key = key).map fun c => (c.2.key, c.2.value) := by
  rw [findPairByKey, toMap, List.find?_map]
  rfl

/-- **`map_get` in memory.** A null value is not told from a missing key. -/
theorem mapGet_linkedMap (m : LinkedMap π) {fuel : ℕ} (hfuel : m.cells.length < fuel) (key : ℤ) :
    m.mapGet fuel key = .ok (mapGet m.toMap key).join := by
  rw [MapMemory.mapGet, m.findPairByKey_eq hfuel, Fault.ok_bind, mapGet, findPairByKey_toMap]
  cases hc : m.cells.find? fun c => c.2.key = key with
  | none => rfl
  | some c =>
    obtain ⟨-, before, after, hcells, -⟩ := split_of_find hc
    have hl := m.linked
    rw [hcells] at hl
    simp only [Option.map_some, hl.deref, Fault.ok_bind, Option.join_some]
    rfl

/-- A lookup finds the pair of its key. -/
theorem mapGet_of_mem (m : LinkedMap π) {fuel : ℕ} (hfuel : m.cells.length < fuel) {c : PairCell π}
    (hc : c ∈ m.cells) : m.mapGet fuel c.2.key = .ok c.2.value := by
  have hmem : (c.2.key, c.2.value) ∈ m.toMap.pairs := List.mem_map_of_mem hc
  rw [m.mapGet_linkedMap hfuel, mapGet_eq_some.2 hmem]
  rfl

/-- An address and a key name the same pair. -/
theorem fst_eq_iff (m : LinkedMap π) {c d : PairCell π} (hc : c ∈ m.cells) (hd : d ∈ m.cells) :
    d.1 = c.1 ↔ d.2.key = c.2.key := by
  constructor
  · intro h
    rw [List.inj_on_of_nodup_map m.linked.nodup hd hc h]
  · intro h
    rw [List.inj_on_of_nodup_map m.keys_nodup hd hc h]

/-- A write to the value of a pair is a write to the entry of its key. -/
theorem map_setPayload (m : LinkedMap π) {c : PairCell π} (hc : c ∈ m.cells) (value : Option π) :
    (m.cells.map (setPayload c.1 { key := c.2.key, value := value })).map
        (fun d => (d.2.key, d.2.value)) =
      m.toMap.pairs.map (updatePair c.2.key value) := by
  rw [toMap, List.map_map, List.map_map]
  refine List.map_congr_left fun d hd => ?_
  simp only [Function.comp_apply, setPayload, updatePair, m.fst_eq_iff hc hd]
  split <;> rfl

theorem keys_setPayload (m : LinkedMap π) {c : PairCell π} (hc : c ∈ m.cells) (value : Option π) :
    (m.cells.map (setPayload c.1 { key := c.2.key, value := value })).map (fun d => d.2.key) =
      m.cells.map fun d => d.2.key := by
  rw [List.map_map]
  refine List.map_congr_left fun d hd => ?_
  simp only [Function.comp_apply, setPayload, m.fst_eq_iff hc hd]
  split
  · next h => exact h.symm
  · rfl

/-- **`map_put` in memory**, with memory from `malloc` that no pair uses. -/
theorem mapPut_linkedMap (m : LinkedMap π) {fuel : ℕ} (hfuel : m.cells.length < fuel) (key : ℤ)
    (value : Option π) {newPair : Option Address}
    (hnew : ∀ a, newPair = some a → m.pairs.element a = none) :
    ∃ m' : LinkedMap π,
      m.mapPut fuel key value newPair =
        .ok ((mapPut m.toMap key value newPair.isSome).1, m'.toMapMemory) ∧
      m'.toMap = (mapPut m.toMap key value newPair.isSome).2 := by
  have hkeys : key ∈ m.toMap.pairs.map Prod.fst ↔
      (m.cells.find? fun c => c.2.key = key).isSome := by
    simp [toMap]
  unfold MapMemory.mapPut
  rw [m.findPairByKey_eq hfuel, Fault.ok_bind]
  cases hc : m.cells.find? fun c => c.2.key = key with
  | some c =>
    obtain ⟨rfl, before, after, hcells, -⟩ := split_of_find hc
    have hmem : c ∈ m.cells := by simp [hcells]
    have hl := m.linked
    rw [hcells] at hl
    rw [mapPut, dif_pos (hkeys.2 (by rw [hc]; rfl))]
    simp only [Option.map_some, hl.deref, Fault.ok_bind]
    refine ⟨⟨⟨_, m.size⟩, m.cells.map (setPayload c.1 { key := c.2.key, value := value }),
      m.linked.store_payload (hl.element_eq _ _ _ _ rfl) _, ?_, ?_⟩, rfl, ?_⟩
    · rw [List.length_map, m.size_eq]
    · rw [m.keys_setPayload hmem]
      exact m.keys_nodup
    · simp only [toMap, Map.mk.injEq, and_true]
      exact m.map_setPayload hmem value
  | none =>
    rw [mapPut, dif_neg (by rw [hkeys, hc]; simp)]
    cases newPair with
    | none => exact ⟨m, rfl, rfl⟩
    | some a =>
      obtain ⟨h', hinsert, hl'⟩ := linked_listInsertHead m.linked (hnew a rfl) { key, value }
      have habsent : key ∉ m.cells.map fun c => c.2.key := by
        simpa using hc
      simp only [Option.map_none, hinsert, Fault.ok_bind]
      refine ⟨⟨⟨h', m.size + 1⟩, _, hl', ?_, List.nodup_cons.2 ⟨habsent, m.keys_nodup⟩⟩, rfl, rfl⟩
      rw [List.length_cons, m.size_eq]
      rfl

/-- The map without one of its pairs, once the pair is unlinked and freed. -/
def without (m : LinkedMap π) {before after : List (PairCell π)} {c : PairCell π}
    (hcells : m.cells = before ++ c :: after) {pairs : ListHead (MapPair π)}
    (hl : Linked pairs (before ++ after)) : LinkedMap π where
  pairs := pairs
  size := m.size - 1
  cells := before ++ after
  linked := hl
  size_eq := by
    rw [m.size_eq, hcells, List.length_append, List.length_append, List.length_cons]
    omega
  keys_nodup := by
    have hkeys := m.keys_nodup
    rw [hcells, List.map_append, List.map_cons, List.nodup_middle, List.nodup_cons,
      ← List.map_append] at hkeys
    exact hkeys.2

/-- **`map_remove` in memory.** -/
theorem mapRemove_linkedMap (m : LinkedMap π) {fuel : ℕ} (hfuel : m.cells.length < fuel) (key : ℤ) :
    ∃ m' : LinkedMap π,
      m.mapRemove fuel key = .ok ((mapRemove m.toMap key).1.join, m'.toMapMemory) ∧
      m'.toMap = (mapRemove m.toMap key).2 := by
  unfold MapMemory.mapRemove
  rw [m.findPairByKey_eq hfuel, Fault.ok_bind, mapRemove_fst, mapGet, m.findPairByKey_toMap]
  cases hc : m.cells.find? fun c => c.2.key = key with
  | none =>
    have habsent : ∀ c ∈ m.cells, c.2.key ≠ key := by
      simpa using hc
    refine ⟨m, rfl, Map.ext_pairs ?_⟩
    rw [pairs_mapRemove, List.eraseP_of_forall_not]
    intro p hp
    obtain ⟨c, hmem, rfl⟩ := List.mem_map.1 hp
    simpa using habsent c hmem
  | some c =>
    obtain ⟨rfl, before, after, hcells, hbefore⟩ := split_of_find hc
    have hl := m.linked
    rw [hcells] at hl
    obtain ⟨h₁, hremove, -, helement⟩ := linked_listRemove hl
    obtain ⟨h₂, hfree, hl₂, -⟩ := linked_free hl
    rw [hremove, Fault.ok_bind] at hfree
    have hderef : h₁.deref (some c.1) = m.pairs.deref (some c.1) := by
      simp only [ListHead.deref, helement]
    refine ⟨m.without hcells hl₂, ?_, Map.ext_pairs ?_⟩
    · simp only [Option.map_some, hremove, Fault.ok_bind, hderef, hl.deref, hfree]
      rfl
    · rw [pairs_mapRemove, pairs_toMap, pairs_toMap, hcells, List.map_append, List.map_cons,
        List.eraseP_append_right, List.eraseP_cons_of_pos, ← List.map_append]
      · rfl
      · simp
      · intro p hp
        obtain ⟨d, hmem, rfl⟩ := List.mem_map.1 hp
        simpa using hbefore d hmem

end LinkedMap

end Dchat.Structures
