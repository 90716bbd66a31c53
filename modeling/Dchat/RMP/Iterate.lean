import Dchat.RMP.MessageBuffers
import Dchat.Structures.Iterator

/-!
# The pass over the receive buffers, in memory

`iterate_over_send_buffer` of `RMP/message_buffers.c` walks the list of pairs with an iterator while
its callback asks for pairs to be unlinked and freed.

* `iterate_exact`: the callback is applied once to every buffer, in the order of the list, and the
  pairs left are those for which it returned 0.
* `iterate_refines`: when the callback works on the buffer it is given, the pass does to the buffers
  what `iterateOverSendBuffer` does.
-/

namespace Dchat.RMP.Iterate

open Structures Queue

variable {π σ : Type}

/-- `if(target_function(...) != 0) map_iterator_remove(iterator)`, once the status is known. -/
def removeIf (m : MapMemory π) (iterator : MapIterator) (status : ℤ) :
    Except Fault (MapMemory π) :=
  if status ≠ 0 then mapIteratorRemove m iterator else .ok m

/-- The loop of `iterate_over_send_buffer` from `current_value` on. The callback acts on the rest of
the program's state and returns a status. Beside the map and that state, the calls made are
returned: each buffer with its status. -/
def iterateLoop (targetFunction : π → σ → ℤ × σ) : ℕ → MapIterator → Option π → MapMemory π → σ →
    Except Fault (List (π × ℤ) × MapMemory π × σ)
  | 0, _, _, _, _ => .error .diverges
  | _ + 1, _, none, m, s => .ok ([], m, s)
  | fuel + 1, iterator, some currentValue, m, s => do
    let (status, s) := targetFunction currentValue s
    let m ← removeIf m iterator status
    let (item, iterator) ← mapIteratorNext m iterator
    let (calls, m, s) ← iterateLoop targetFunction fuel iterator item.value m s
    return ((currentValue, status) :: calls, m, s)

/-- `iterate_over_send_buffer`; `allocated` is whether the iterator could be allocated. -/
def iterate (targetFunction : π → σ → ℤ × σ) (fuel : ℕ) (m : MapMemory π) (s : σ)
    (allocated : Bool) : Except Fault (ℤ × List (π × ℤ) × MapMemory π × σ) :=
  if allocated then do
    let (item, iterator) ← mapIteratorNext m (mapIteratorNew m)
    let (calls, m, s) ← iterateLoop targetFunction fuel iterator item.value m s
    return (0, calls, m, s)
  else .ok (-1, [], m, s)

/-- The calls on a list of buffers, one after the other. -/
def callsOn (targetFunction : π → σ → ℤ × σ) : List π → σ → List (π × ℤ) × σ
  | [], s => ([], s)
  | v :: vs, s =>
    ((v, (targetFunction v s).1) :: (callsOn targetFunction vs (targetFunction v s).2).1,
      (callsOn targetFunction vs (targetFunction v s).2).2)

theorem callsOn_fst (targetFunction : π → σ → ℤ × σ) (vs : List π) (s : σ) :
    (callsOn targetFunction vs s).1.map Prod.fst = vs := by
  induction vs generalizing s with
  | nil => rfl
  | cons v vs ih => rw [callsOn, List.map_cons, ih]

/-- The pairs whose call returned 0. -/
def kept (cells : List (PairCell π)) (calls : List (π × ℤ)) : List (PairCell π) :=
  ((cells.zip calls).filter fun p => p.2.2 = 0).map Prod.fst

theorem kept_cons (c : PairCell π) (cells : List (PairCell π)) (call : π × ℤ) (calls : List (π × ℤ)) :
    kept (c :: cells) (call :: calls) =
      (if call.2 = 0 then [c] else []) ++ kept cells calls := by
  rw [kept, List.zip_cons_cons, List.filter_cons]
  by_cases h : call.2 = 0 <;> simp [h, kept]

theorem kept_sublist (cells : List (PairCell π)) (calls : List (π × ℤ)) :
    (kept cells calls).Sublist cells := by
  induction cells generalizing calls with
  | nil => simp [kept]
  | cons c cells ih =>
    cases calls with
    | nil => simp [kept]
    | cons call calls =>
      rw [kept_cons]
      by_cases h : call.2 = 0
      · simpa [h] using ih calls
      · simpa [h] using (ih calls).cons c

theorem length_kept {cells : List (PairCell π)} {calls : List (π × ℤ)}
    (h : cells.length = calls.length) :
    (kept cells calls).length = (calls.filter fun call => call.2 = 0).length := by
  have hcalls : (cells.zip calls).map Prod.snd = calls := List.map_snd_zip (by omega)
  conv_rhs => rw [← hcalls, List.filter_map, List.length_map]
  rw [kept, List.length_map]
  rfl

/-- After the call on the pair last returned, its pair is unlinked or not. -/
theorem removeIf_walk {m : LinkedMap π} {iterator : MapIterator} {w : Walk π}
    (h : AtWalk m iterator w) {c : PairCell π} (hlast : w.last = some c) (status : ℤ) :
    ∃ (m' : LinkedMap π) (w' : Walk π),
      removeIf m.toMapMemory iterator status = .ok m'.toMapMemory ∧ AtWalk m' iterator w' ∧
      w'.rest = w.rest ∧
      w'.passed ++ w'.last.toList = w.passed ++ if status = 0 then [c] else [] := by
  by_cases hstatus : status = 0
  · refine ⟨m, w, ?_, h, rfl, ?_⟩
    · rw [removeIf, if_neg (not_not.2 hstatus)]
    · rw [if_pos hstatus, hlast, Option.toList_some]
  · obtain ⟨m', hremove, h'⟩ := mapIteratorRemove_walk h hlast
    refine ⟨m', w.remove, ?_, h', rfl, ?_⟩
    · rw [removeIf, if_pos hstatus, hremove]
    · rw [if_neg hstatus]
      rfl

/-- The rest of the loop, from a `map_iterator_next` on. By induction on the values to come: what
was passed stays, whatever was unlinked before. -/
theorem iterateLoop_walk (targetFunction : π → σ → ℤ × σ) {values : List π} {m : LinkedMap π}
    {iterator : MapIterator} {w : Walk π} (h : AtWalk m iterator w)
    (hvalues : w.rest.map (fun c => c.2.value) = values.map some) {fuel : ℕ}
    (hfuel : values.length < fuel) (s : σ) :
    ∃ m' : LinkedMap π,
      (mapIteratorNext m.toMapMemory iterator >>= fun p =>
        iterateLoop targetFunction fuel p.2 p.1.value m.toMapMemory s) =
        .ok ((callsOn targetFunction values s).1, m'.toMapMemory,
          (callsOn targetFunction values s).2) ∧
      m'.cells = w.passed ++ w.last.toList ++ kept w.rest (callsOn targetFunction values s).1 := by
  induction values generalizing m iterator w fuel s with
  | nil =>
    obtain ⟨iterator', hnext, h'⟩ := mapIteratorNext_walk h
    have hrest : w.rest = [] := by simpa using hvalues
    obtain ⟨fuel, rfl⟩ := Nat.exists_eq_add_one_of_ne_zero (Nat.ne_zero_of_lt hfuel)
    have hvalue : w.next.1.value = none := by
      rw [Walk.next, hrest]
    refine ⟨m, ?_, ?_⟩
    · rw [hnext, Fault.ok_bind, hvalue]
      rfl
    · rw [h.cells_eq, Walk.cells, hrest]
      simp [kept]
  | cons v values ih =>
    obtain ⟨iterator', hnext, h'⟩ := mapIteratorNext_walk h
    obtain ⟨c, rest, hrest, hc, hvalues'⟩ := List.map_eq_cons_iff.1 hvalues
    obtain ⟨fuel, rfl⟩ := Nat.exists_eq_add_one_of_ne_zero (Nat.ne_zero_of_lt hfuel)
    rw [List.length_cons] at hfuel
    have hwalk : w.next =
        ({ value := some v, key := some c.2.key }, ⟨w.passed ++ w.last.toList, some c, rest⟩) := by
      rw [Walk.next, hrest]
      simp only [hc]
    rw [hwalk] at hnext h'
    obtain ⟨m₁, w₁, hremove, h₁, hrest₁, hpassed₁⟩ :=
      removeIf_walk h' rfl (targetFunction v s).1
    obtain ⟨m', hloop, hcells⟩ := ih h₁ (by rw [hrest₁]; exact hvalues')
      (by omega : values.length < fuel) (targetFunction v s).2
    refine ⟨m', ?_, ?_⟩
    · rw [hnext, Fault.ok_bind, iterateLoop]
      dsimp only
      rw [hremove, Fault.ok_bind]
      obtain ⟨p, hnext₁, hloop⟩ := Fault.bind_eq_ok.1 hloop
      rw [hnext₁, Fault.ok_bind]
      simp only [hloop]
      rfl
    · rw [hcells, hpassed₁, hrest₁, hrest, callsOn, kept_cons, List.append_assoc]

/-- **`iterate_over_send_buffer` is an exact filter.** On any map whose values are not null, and for
any callback that leaves the map alone, the pass ends with status 0, has called the callback once on
every buffer in the order of the list, and leaves exactly the pairs for which it returned 0, in
their order, with their addresses, keys and values; the count is their number and every surviving
key is looked up as before. -/
theorem iterate_exact (targetFunction : π → σ → ℤ × σ) (m : LinkedMap π) {values : List π}
    (hvalues : m.cells.map (fun c => c.2.value) = values.map some) {fuel : ℕ}
    (hfuel : m.cells.length < fuel) (s : σ) :
    ∃ (calls : List (π × ℤ)) (m' : LinkedMap π) (s' : σ),
      iterate targetFunction fuel m.toMapMemory s true = .ok (0, calls, m'.toMapMemory, s') ∧
      (calls, s') = callsOn targetFunction values s ∧ calls.map Prod.fst = values ∧
      m'.cells = kept m.cells calls ∧
      m'.size = (calls.filter fun call => call.2 = 0).length ∧
      ∀ c ∈ m'.cells, m'.mapGet fuel c.2.key = .ok c.2.value ∧
        m.mapGet fuel c.2.key = .ok c.2.value := by
  have hlength : m.cells.length = values.length := by
    simpa using congrArg List.length hvalues
  obtain ⟨m', hloop, hcells⟩ := iterateLoop_walk targetFunction (atWalk_new m) hvalues
    (by omega : values.length < fuel) s
  have hargs := callsOn_fst targetFunction values s
  have hkept : m'.cells = kept m.cells (callsOn targetFunction values s).1 := by
    simpa [Walk.start] using hcells
  have hcalls : m.cells.length = (callsOn targetFunction values s).1.length := by
    rw [hlength, ← hargs, List.length_map, hargs]
  have hsublist : m'.cells.Sublist m.cells := hkept ▸ kept_sublist _ _
  refine ⟨_, m', _, ?_, rfl, hargs, hkept, ?_, ?_⟩
  · obtain ⟨p, hnext, hloop⟩ := Fault.bind_eq_ok.1 hloop
    rw [iterate, if_pos rfl, hnext, Fault.ok_bind]
    simp only [hloop]
    rfl
  · rw [m'.size_eq, hkept, length_kept hcalls]
  · intro c hc
    have hfuel' : m'.cells.length < fuel := Nat.lt_of_le_of_lt hsublist.length_le hfuel
    exact ⟨m'.mapGet_of_mem hfuel' hc, m.mapGet_of_mem hfuel (hsublist.subset hc)⟩

/-- Three buffers. -/
def threeBuffers : LinkedMap ℕ :=
  LinkedMap.ofCells [(100, ⟨1, some 7⟩), (101, ⟨2, some 8⟩), (102, ⟨3, some 9⟩)] (by decide) (by decide)

/-- A pass over three buffers. The callback asks for that in the middle to be removed. -/
theorem iterate_exact_middle :
    threeBuffers.cells.length < 4 ∧
    ∃ (calls : List (ℕ × ℤ)) (m' : LinkedMap ℕ) (s' : ℕ),
      iterate (fun v s => (if v = 8 then 1 else 0, s + v)) 4 threeBuffers.toMapMemory 4 true =
        .ok (0, calls, m'.toMapMemory, s') ∧
      calls = [(7, 0), (8, 1), (9, 0)] ∧ s' = 28 ∧ calls.map Prod.fst = [7, 8, 9] ∧
      m'.cells = [(100, ⟨1, some 7⟩), (102, ⟨3, some 9⟩)] ∧ m'.size = 2 ∧
      ∀ c ∈ m'.cells, m'.mapGet 4 c.2.key = .ok c.2.value ∧
        threeBuffers.mapGet 4 c.2.key = .ok c.2.value := by
  refine ⟨by decide, ?_⟩
  obtain ⟨calls, m', s', hrun, hcalls, hvalues, hcells, hsize, hlookups⟩ :=
    iterate_exact (fun v s => (if v = 8 then 1 else 0, s + v)) threeBuffers
      (rfl : _ = [7, 8, 9].map some) (by decide : threeBuffers.cells.length < 4) 4
  obtain ⟨rfl, rfl⟩ : calls = [(7, 0), (8, 1), (9, 0)] ∧ s' = 28 := Prod.mk.inj hcalls
  exact ⟨_, m', _, hrun, rfl, rfl, hvalues, hcells, hsize, hlookups⟩

/-! ## The buffers behind the pointers -/

section Refinement

variable (targetFunction : ℤ → MessageHoldingBuffer Cell → ℤ × MessageHoldingBuffer Cell)
  (owner : π → ℤ)

/-- A callback that works on the buffer it is given and on no other. -/
def onOwnBuffer [DecidableEq π] (v : π) (heap : π → MessageHoldingBuffer Cell) :
    ℤ × (π → MessageHoldingBuffer Cell) :=
  ((targetFunction (owner v) (heap v)).1,
    Function.update heap v (targetFunction (owner v) (heap v)).2)

/-- A key and the buffer that its pointer leads to. -/
def entry (heap : π → MessageHoldingBuffer Cell) (c : PairCell π) :
    Option (ℤ × MessageHoldingBuffer Cell) :=
  c.2.value.map fun v => (c.2.key, heap v)

/-- The receive buffers of a map in memory. -/
def contents (heap : π → MessageHoldingBuffer Cell) (m : LinkedMap π) : ReceiveBuffer where
  pairs := m.cells.filterMap (entry heap)
  size := (m.cells.filterMap (entry heap)).length
  nodup := by
    refine m.keys_nodup.sublist ?_
    rw [List.map_filterMap]
    induction m.cells with
    | nil => exact List.Sublist.slnil
    | cons c cells ih =>
      rw [List.filterMap_cons, List.map_cons, entry]
      cases c.2.value with
      | none => exact ih.cons _
      | some v => exact ih.cons_cons _
  size_eq := rfl

theorem callsOn_ownBuffer [DecidableEq π] {values : List π} (hnodup : values.Nodup)
    (heap : π → MessageHoldingBuffer Cell) :
    callsOn (onOwnBuffer targetFunction owner) values heap =
      (values.map fun v => (v, (targetFunction (owner v) (heap v)).1),
        fun v => if v ∈ values then (targetFunction (owner v) (heap v)).2 else heap v) := by
  induction values generalizing heap with
  | nil => simp [callsOn]
  | cons v values ih =>
    obtain ⟨hv, hnodup⟩ := List.nodup_cons.1 hnodup
    have hself : (onOwnBuffer targetFunction owner v heap).2 v =
        (targetFunction (owner v) (heap v)).2 := Function.update_self ..
    have hother : ∀ u, u ≠ v → (onOwnBuffer targetFunction owner v heap).2 u = heap u :=
      fun u hu => Function.update_of_ne hu ..
    rw [callsOn, ih hnodup, List.map_cons]
    apply Prod.ext
    · refine congrArg (List.cons _) (List.map_congr_left fun u hu => ?_)
      rw [hother u fun he => hv (he ▸ hu)]
    · funext u
      by_cases huv : u = v
      · subst huv
        simp [hself, hv]
      · simp [hother u huv, huv]

theorem filterMap_kept {cells : List (PairCell π)} {values : List π}
    (hvalues : cells.map (fun c => c.2.value) = values.map some)
    (howner : ∀ c ∈ cells, ∀ v, c.2.value = some v → owner v = c.2.key)
    (heap heap' : π → MessageHoldingBuffer Cell)
    (hheap : ∀ v ∈ values, heap' v = (targetFunction (owner v) (heap v)).2) :
    (kept cells (values.map fun v => (v, (targetFunction (owner v) (heap v)).1))).filterMap
        (entry heap') =
      (cells.filterMap (entry heap)).filterMap fun p =>
        if (targetFunction p.1 p.2).1 ≠ 0 then none else some (p.1, (targetFunction p.1 p.2).2) := by
  induction values generalizing cells with
  | nil =>
    obtain rfl : cells = [] := by simpa using hvalues
    rfl
  | cons v values ih =>
    obtain ⟨c, cells, rfl, hc, hvalues'⟩ := List.map_eq_cons_iff.1 hvalues
    have hkey : owner v = c.2.key := howner c (by simp) v hc
    have ih' := ih hvalues' (fun d hd => howner d (by simp [hd])) fun u hu => hheap u (by simp [hu])
    have hc₀ : entry heap c = some (c.2.key, heap v) := by rw [entry, hc]; rfl
    have hc₁ : entry heap' c = some (c.2.key, (targetFunction c.2.key (heap v)).2) := by
      rw [entry, hc, ← hkey, ← hheap v (by simp)]
      rfl
    rw [List.map_cons, kept_cons, List.filterMap_append, ih', List.filterMap_cons, hc₀,
      List.filterMap_cons]
    by_cases hstatus : (targetFunction c.2.key (heap v)).1 = 0
    · simp [hkey, hstatus, hc₁]
    · simp [hkey, hstatus]

/-- **The pass in memory does to the buffers what `iterateOverSendBuffer` does**, if distinct keys
have distinct buffers. -/
theorem iterate_refines [DecidableEq π] (m : LinkedMap π) {values : List π}
    (hvalues : m.cells.map (fun c => c.2.value) = values.map some) (hnodup : values.Nodup)
    (howner : ∀ c ∈ m.cells, ∀ v, c.2.value = some v → owner v = c.2.key) {fuel : ℕ}
    (hfuel : m.cells.length < fuel) (heap : π → MessageHoldingBuffer Cell) :
    ∃ (calls : List (π × ℤ)) (m' : LinkedMap π) (heap' : π → MessageHoldingBuffer Cell),
      iterate (onOwnBuffer targetFunction owner) fuel m.toMapMemory heap true =
        .ok (0, calls, m'.toMapMemory, heap') ∧
      contents heap' m' = iterateOverSendBuffer (contents heap m) targetFunction := by
  obtain ⟨calls, m', heap', hrun, hcalls, -, hcells, -⟩ :=
    iterate_exact (onOwnBuffer targetFunction owner) m hvalues hfuel heap
  refine ⟨calls, m', heap', hrun, Map.ext_pairs ?_⟩
  rw [callsOn_ownBuffer targetFunction owner hnodup] at hcalls
  obtain ⟨rfl, rfl⟩ := Prod.mk.inj hcalls
  have hentries := filterMap_kept targetFunction owner hvalues howner heap
    (fun v => if v ∈ values then (targetFunction (owner v) (heap v)).2 else heap v)
    fun v hv => if_pos hv
  rw [← hcells] at hentries
  refine hentries.trans (List.filterMap_congr fun p _ => ?_)
  by_cases hstatus : (targetFunction p.1 p.2).1 = 0 <;> simp [hstatus]

end Refinement

end Dchat.RMP.Iterate
