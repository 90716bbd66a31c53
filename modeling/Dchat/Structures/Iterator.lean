import Dchat.Structures.LinkedMap

/-!
# The iterators of `structures/map.c`

An iterator holds two pointers into the list of pairs and nothing else, so `map_iterator_remove`
cannot know whether the pair `previous` points to is still there.

* `Walk` is what the header promises: a remove deletes the pair last returned, once, and does
  nothing when there is none.
* `mapIteratorNext_walk` and `mapIteratorRemove_walk` are the steps of an iterator that follows a
  walk; `mapIteratorRemove_faults` is the remove that the header calls a no-op.
* `iteratorHonoured_iff`: a sequence of calls on any map keeps the promise exactly when every remove
  comes after a next that returned a pair, with no other remove in between (`RemovesFollow`).
-/

namespace Dchat.Structures

open Queue

variable {π : Type}

/-- `struct map_iterator`; the map `source` is passed beside it. -/
structure MapIterator where
  current : Option Address
  previous : Option Address
  deriving DecidableEq

/-- What a call of `map_iterator_next` returns, and what it writes to `*key`. -/
structure Item (π : Type) where
  value : Option π
  key : Option ℤ
  deriving DecidableEq

/-- `map_iterator_new`, if `malloc` succeeds. -/
def mapIteratorNew (m : MapMemory π) : MapIterator where
  current := m.pairs.lhFirst
  previous := none

/-- `map_iterator_next`. -/
def mapIteratorNext (m : MapMemory π) (iterator : MapIterator) :
    Except Fault (Item π × MapIterator) :=
  match iterator.current with
  | none => .ok ({ value := none, key := none }, iterator)
  | some a => do
    let e ← m.pairs.deref (some a)
    return ({ value := e.payload.value, key := some e.payload.key },
      { current := e.leNext, previous := iterator.current })

/-- `map_iterator_remove`. -/
def mapIteratorRemove (m : MapMemory π) (iterator : MapIterator) : Except Fault (MapMemory π) := do
  let pairs ← m.pairs.listRemove iterator.previous
  let pairs ← pairs.free iterator.previous
  return { pairs := pairs, size := m.size - 1 }

/-! ## What the header promises -/

/-- The pairs of a map under an iterator: those passed, the one last returned unless it was
removed, and those to come. -/
structure Walk (π : Type) where
  passed : List (PairCell π)
  last : Option (PairCell π)
  rest : List (PairCell π)

namespace Walk

/-- The pairs in the map. -/
def cells (w : Walk π) : List (PairCell π) := w.passed ++ (w.last.toList ++ w.rest)

/-- A new iterator. -/
def start (cells : List (PairCell π)) : Walk π where
  passed := []
  last := none
  rest := cells

/-- The next pair, if there is one. -/
def next (w : Walk π) : Item π × Walk π :=
  match w.rest with
  | [] => ({ value := none, key := none }, w)
  | c :: rest => ({ value := c.2.value, key := some c.2.key },
      { passed := w.passed ++ w.last.toList, last := some c, rest := rest })

/-- Delete the pair last returned if it is still there. -/
def remove (w : Walk π) : Walk π := { w with last := none }

/-- A `next` leaves the map as it is. -/
@[simp] theorem cells_next (w : Walk π) : w.next.2.cells = w.cells := by
  obtain ⟨passed, last, rest⟩ := w
  cases rest with
  | nil => rfl
  | cons c rest => simp [next, cells]

end Walk

/-- A call on an iterator. -/
inductive IteratorCall
  | next
  | remove
  deriving DecidableEq

/-- The items that a sequence of calls returns, and the walk after it. -/
def Walk.run : Walk π → List IteratorCall → List (Item π) × Walk π
  | w, [] => ([], w)
  | w, .next :: calls => (w.next.1 :: (w.next.2.run calls).1, (w.next.2.run calls).2)
  | w, .remove :: calls => w.remove.run calls

/-- Removals or not, the calls of `next` return every pair to come once, in the order of the list,
until none is left. -/
theorem Walk.keys_run (w : Walk π) (calls : List IteratorCall) :
    (w.run calls).1.filterMap Item.key =
      (w.rest.take (calls.count .next)).map fun c => c.2.key := by
  induction calls generalizing w with
  | nil => simp [Walk.run]
  | cons call calls ih =>
    cases call with
    | remove => simpa [Walk.run, Walk.remove] using ih w.remove
    | next =>
      obtain ⟨passed, last, rest⟩ := w
      cases rest with
      | nil => simpa [Walk.run, Walk.next] using ih ⟨passed, last, []⟩
      | cons c rest =>
        simpa [Walk.run, Walk.next] using ih ⟨passed ++ last.toList, some c, rest⟩

/-- A sequence of calls on one iterator. -/
def runIterator : MapMemory π → MapIterator → List IteratorCall →
    Except Fault (List (Item π) × MapMemory π)
  | m, _, [] => .ok ([], m)
  | m, iterator, .next :: calls => do
    let (item, iterator) ← mapIteratorNext m iterator
    let (items, m') ← runIterator m iterator calls
    return (item :: items, m')
  | m, iterator, .remove :: calls => do
    let m ← mapIteratorRemove m iterator
    runIterator m iterator calls

/-! ## One call -/

/-- The iterator stands where the walk does. The pointer `previous` leads nowhere once its pair is
gone. -/
structure AtWalk (m : LinkedMap π) (iterator : MapIterator) (w : Walk π) : Prop where
  cells_eq : m.cells = w.cells
  current_eq : iterator.current = first w.rest
  previous_eq : ∀ c, w.last = some c → iterator.previous = some c.1
  gone : w.last = none → ∃ fault, m.pairs.deref iterator.previous = .error fault

theorem atWalk_new (m : LinkedMap π) :
    AtWalk m (mapIteratorNew m.toMapMemory) (Walk.start m.cells) where
  cells_eq := rfl
  current_eq := m.linked.lhFirst_eq
  previous_eq := by simp [Walk.start]
  gone := fun _ => ⟨.nullPointer, rfl⟩

variable {m : LinkedMap π} {iterator : MapIterator} {w : Walk π}

/-- **A `next` returns the first pair to come.** -/
theorem mapIteratorNext_walk (h : AtWalk m iterator w) : ∃ iterator',
    mapIteratorNext m.toMapMemory iterator = .ok (w.next.1, iterator') ∧
      AtWalk m iterator' w.next.2 := by
  obtain ⟨passed, last, rest⟩ := w
  cases rest with
  | nil =>
    refine ⟨iterator, ?_, h⟩
    have hcurrent : iterator.current = none := h.current_eq
    simp only [mapIteratorNext, hcurrent]
    rfl
  | cons c rest =>
    have hcurrent : iterator.current = some c.1 := h.current_eq
    have hl := m.linked
    rw [h.cells_eq, Walk.cells, ← List.append_assoc] at hl
    refine ⟨⟨first rest, iterator.current⟩, ?_, ?_⟩
    · simp only [mapIteratorNext, hcurrent, hl.deref, Fault.ok_bind]
      rfl
    · refine ⟨?_, rfl, ?_, ?_⟩
      · rw [Walk.cells_next, h.cells_eq]
      · rintro d ⟨⟩
        exact hcurrent
      · rintro ⟨⟩

/-- **A `remove` after a `next` deletes the pair returned**, and nothing else. -/
theorem mapIteratorRemove_walk (h : AtWalk m iterator w) {c : PairCell π} (hlast : w.last = some c) :
    ∃ m' : LinkedMap π, mapIteratorRemove m.toMapMemory iterator = .ok m'.toMapMemory ∧
      AtWalk m' iterator w.remove := by
  have hcells : m.cells = w.passed ++ c :: w.rest := by
    rw [h.cells_eq, Walk.cells, hlast]
    rfl
  have hl := m.linked
  rw [hcells] at hl
  obtain ⟨pairs, hfree, hl', hgone⟩ := linked_free hl
  refine ⟨m.without hcells hl', ?_, rfl, h.current_eq, ?_, ?_⟩
  · rw [mapIteratorRemove, h.previous_eq c hlast]
    cases hremove : m.pairs.listRemove (some c.1) with
    | error fault => rw [hremove] at hfree; cases hfree
    | ok pairs' =>
      rw [hremove] at hfree
      rw [Fault.ok_bind] at hfree ⊢
      rw [hfree]
      rfl
  · rintro d ⟨⟩
  · intro
    refine ⟨.freed, ?_⟩
    rw [h.previous_eq c hlast]
    change pairs.deref (some c.1) = _
    simp only [ListHead.deref, hgone]

/-- **A `remove` with nothing to delete follows a null or a freed pointer.** -/
theorem mapIteratorRemove_faults (h : AtWalk m iterator w) (hlast : w.last = none) :
    ∃ fault, mapIteratorRemove m.toMapMemory iterator = .error fault := by
  obtain ⟨fault, hfault⟩ := h.gone hlast
  refine ⟨fault, ?_⟩
  rw [mapIteratorRemove, ListHead.listRemove, hfault]
  rfl

/-! ## A sequence of calls -/

/-- Every remove comes after a next that returned a pair, with no other remove in between, if
`rest` pairs are to come and `last` tells whether the pair last returned is still there. -/
def RemovesFollow : ℕ → Bool → List IteratorCall → Prop
  | _, _, [] => True
  | 0, last, .next :: calls => RemovesFollow 0 last calls
  | rest + 1, _, .next :: calls => RemovesFollow rest true calls
  | rest, last, .remove :: calls => last = true ∧ RemovesFollow rest false calls

theorem removesFollow_next (w : Walk π) (calls : List IteratorCall) :
    RemovesFollow w.rest.length w.last.isSome (.next :: calls) ↔
      RemovesFollow w.next.2.rest.length w.next.2.last.isSome calls := by
  obtain ⟨passed, last, rest⟩ := w
  cases rest <;> rfl

theorem removesFollow_remove (rest : ℕ) (last : Bool) (calls : List IteratorCall) :
    RemovesFollow rest last (.remove :: calls) ↔ last = true ∧ RemovesFollow rest false calls := by
  cases rest <;> rfl

/-- The calls from `iterator` on return what the walk does, and leave a map of the pairs of the
walk: its count is their number, and no link leads elsewhere. -/
def KeepsPromise (m : LinkedMap π) (iterator : MapIterator) (w : Walk π)
    (calls : List IteratorCall) : Prop :=
  ∃ m' : LinkedMap π,
    runIterator m.toMapMemory iterator calls = .ok ((w.run calls).1, m'.toMapMemory) ∧
      m'.cells = (w.run calls).2.cells

/-- A call of `next` keeps the promise by itself. -/
theorem keepsPromise_next {iterator' : MapIterator} {calls : List IteratorCall}
    (hnext : mapIteratorNext m.toMapMemory iterator = .ok (w.next.1, iterator')) :
    KeepsPromise m iterator w (.next :: calls) ↔ KeepsPromise m iterator' w.next.2 calls := by
  unfold KeepsPromise
  rw [runIterator, hnext, Fault.ok_bind, Walk.run]
  constructor
  · rintro ⟨m', hrun, hcells⟩
    obtain ⟨⟨items, m''⟩, hrest, heq⟩ := Fault.bind_eq_ok.1 hrun
    obtain ⟨⟨⟩, rfl⟩ := Prod.mk.inj (Except.ok.inj heq)
    exact ⟨m', hrest, hcells⟩
  · rintro ⟨m', hrun, hcells⟩
    refine ⟨m', ?_, hcells⟩
    simp only [hrun]
    rfl

/-- By induction on the calls: every `next` follows the walk, and so does a `remove` unless there is
nothing to delete, where the run stops. -/
theorem keepsPromise_iff (h : AtWalk m iterator w) (calls : List IteratorCall) :
    KeepsPromise m iterator w calls ↔ RemovesFollow w.rest.length w.last.isSome calls := by
  induction calls generalizing m iterator w with
  | nil =>
    refine iff_of_true ⟨m, rfl, h.cells_eq⟩ ?_
    cases w.rest <;> trivial
  | cons call calls ih =>
    cases call with
    | next =>
      obtain ⟨iterator', hnext, h'⟩ := mapIteratorNext_walk h
      rw [keepsPromise_next hnext, ih h', removesFollow_next]
    | remove =>
      rw [removesFollow_remove]
      cases hlast : w.last with
      | some c =>
        obtain ⟨m', hremove, h'⟩ := mapIteratorRemove_walk h hlast
        rw [KeepsPromise, runIterator, hremove, Fault.ok_bind, Walk.run]
        exact (ih h').trans (by simp [Walk.remove])
      | none =>
        obtain ⟨fault, hfault⟩ := mapIteratorRemove_faults h hlast
        rw [KeepsPromise, runIterator, hfault]
        simp

/-- The promise of the header for a sequence of calls on a new iterator. -/
def IteratorHonoured (m : LinkedMap π) (calls : List IteratorCall) : Prop :=
  KeepsPromise m (mapIteratorNew m.toMapMemory) (Walk.start m.cells) calls

/-- **Any sequence of calls on a new iterator over any map** keeps the promise of the header exactly
when every remove comes after a next that returned a pair, with no other remove in between. -/
theorem iteratorHonoured_iff (m : LinkedMap π) (calls : List IteratorCall) :
    IteratorHonoured m calls ↔ RemovesFollow m.cells.length false calls :=
  keepsPromise_iff (atWalk_new m) calls

example : (do
    let (_, m) ← MapMemory.mapNew.mapPut 4 3 (some 9) (some 100)
    let (_, m) ← m.mapPut 4 2 (some 8) (some 101)
    let (_, m) ← m.mapPut 4 1 (some 7) (some 102)
    let (items, m) ← runIterator m (mapIteratorNew m) [.next, .next, .remove, .next]
    return (items.map Item.value, m.size)) =
    (.ok ([some 7, some 8, some 9], 2) : Except Fault (List (Option ℕ) × ℤ)) := by rfl

/-- A map of one pair, at address 0. -/
def LinkedMap.single (p : MapPair π) : LinkedMap π where
  pairs := { lhFirst := some 0, element := fun a =>
    if a = 0 then some { payload := p, leNext := none, lePrev := none } else none }
  size := 1
  cells := [(0, p)]
  linked :=
    { nodup := by simp
      lhFirst_eq := rfl
      element_eq := by
        intro before a x after hsplit
        obtain rfl : before = [] := by
          cases before with
          | nil => rfl
          | cons q before => simp at hsplit
        obtain ⟨⟨rfl, rfl⟩, rfl⟩ : (0 = a ∧ p = x) ∧ [] = after := by simpa using hsplit
        rfl }
  size_eq := rfl
  keys_nodup := by simp

/-- A remove before the first next follows a null pointer, and the second of two removes in a row
a freed one. -/
theorem iterator_removes_too_often :
    ¬ IteratorHonoured (LinkedMap.single ⟨7, some ()⟩) [.remove] ∧
      ¬ IteratorHonoured (LinkedMap.single ⟨7, some ()⟩) [.next, .remove, .remove] := by
  unfold IteratorHonoured
  rw [keepsPromise_iff (atWalk_new _), keepsPromise_iff (atWalk_new _)]
  simp [RemovesFollow, LinkedMap.single, Walk.start]

end Dchat.Structures
