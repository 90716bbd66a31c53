import Dchat.Foundations.Stdio
import Dchat.Structures.Map
import Mathlib.Data.Finset.Card
import Mathlib.Data.Finset.Image

/-!
# Sequences of calls on a map

`map_put`, `map_remove`, `map_get` and `map_size` called one after another on a map from `map_new`,
with `malloc` failing wherever it likes. A value is a pointer, `none` the null pointer. The counter
`size` of the source is an `int`: `m->size++` on the largest `int` is a `Fault`.

* `lastPut` reads off a history of calls, with their answers, what the last successful put of a key
  stored; `Right` is what a finite map answers.
* `Tracks.call` is the step: a map that tracks its history answers right and goes on tracking it.
* `exists_runCalls_iff`: all calls of a sequence return and are answered right exactly if there are
  never more keys present than an `int` can count.
-/

namespace Dchat.Structures

variable {γ : Type}

/-! ## The calls -/

/-- A call on a map; `allocated` is the success of `malloc` if the call comes to it. -/
inductive Call (γ : Type)
  | put (key : ℤ) (value : Option γ) (allocated : Bool)
  | remove (key : ℤ)
  | get (key : ℤ)
  | size

/-- What a call returns. -/
inductive Answer (γ : Type)
  | status (status : ℤ)
  | value (value : Option γ)
  | count (count : ℤ)

/-- `INT_MAX`. -/
def intMax : ℤ := 2147483647

/-- A call of the functions of `map.c`. A null pointer is returned for a key without a pair and for
one with a null pointer stored. -/
def Call.run (m : Map (Option γ)) : Call γ → Except Fault (Answer γ × Map (Option γ))
  | .put key value allocated =>
    let r := mapPut m key value allocated
    if intMax < r.2.size then .error .integerOverflow else .ok (.status r.1, r.2)
  | .remove key =>
    let r := mapRemove m key
    .ok (.value r.1.join, r.2)
  | .get key => .ok (.value (mapGet m key).join, m)
  | .size => .ok (.count (mapSize m), m)

/-- A call that has returned: the map before, the answer and the map after. -/
structure Done (γ : Type) where
  call : Call γ
  before : Map (Option γ)
  answer : Answer γ
  after : Map (Option γ)

/-- The calls of a sequence, one after another. -/
def runCalls (m : Map (Option γ)) : List (Call γ) → Except Fault (List (Done γ))
  | [] => .ok []
  | c :: cs => do
    let (answer, m') ← c.run m
    let log ← runCalls m' cs
    .ok (⟨c, m, answer, m'⟩ :: log)

/-! ## What a finite map answers -/

/-- What a call does to the value of a key: a successful put stores one, a remove deletes it. -/
def Done.stored (key : ℤ) (found : Option (Option γ)) (d : Done γ) : Option (Option γ) :=
  match d.call, d.answer with
  | .put k value _, .status status => if k = key ∧ status = 0 then some value else found
  | .remove k, _ => if k = key then none else found
  | _, _ => found

/-- The value of the last successful put of a key that no remove of it follows. -/
def lastPut (key : ℤ) (history : List (Done γ)) : Option (Option γ) :=
  history.foldl (Done.stored key) none

/-- What a call does to the set of keys. -/
def Call.keys (keys : Finset ℤ) : Call γ → Finset ℤ
  | .put key _ allocated => if allocated then insert key keys else keys
  | .remove key => keys.erase key
  | _ => keys

/-- The keys present after a sequence of calls. -/
def present (cs : List (Call γ)) : Finset ℤ := cs.foldl Call.keys ∅

/-- There are never more keys present than an `int` can count. -/
def Countable (cs : List (Call γ)) : Prop :=
  ∀ ps, ps <+: cs → ((present ps).card : ℤ) ≤ intMax

/-- A call after a history is answered as by a finite map, and the map after it is one. -/
structure Right (history : List (Done γ)) (d : Done γ) : Prop where
  nodup : (d.after.pairs.map Prod.fst).Nodup
  contents : ∀ key, mapGet d.after key = lastPut key (history ++ [d])
  answer : match d.call with
    | .put key _ allocated => d.answer = .status 0 ∨
        d.answer = .status (-1) ∧ allocated = false ∧ lastPut key history = none ∧
          d.after = d.before
    | .remove key => d.answer = .value (lastPut key history).join
    | .get key => d.answer = .value (lastPut key history).join
    | .size => d.answer = .count (present (history.map Done.call)).card

/-- Each call of a log is answered right after those before it. -/
def AllRight (history : List (Done γ)) : List (Done γ) → Prop
  | [] => True
  | d :: log => Right history d ∧ AllRight (history ++ [d]) log

/-- All calls of a sequence return, and each is answered right. -/
def IsFiniteMap (cs : List (Call γ)) : Prop :=
  ∃ log, runCalls mapNew cs = .ok log ∧ log.map Done.call = cs ∧ AllRight [] log

/-! ## The step -/

/-- The map after a history. -/
structure Tracks (history : List (Done γ)) (m : Map (Option γ)) : Prop where
  contents : ∀ key, mapGet m key = lastPut key history
  keys : (m.pairs.map Prod.fst).toFinset = present (history.map Done.call)

theorem lastPut_snoc (key : ℤ) (history : List (Done γ)) (d : Done γ) :
    lastPut key (history ++ [d]) = d.stored key (lastPut key history) := by
  rw [lastPut, List.foldl_append]
  rfl

theorem present_snoc (cs : List (Call γ)) (c : Call γ) :
    present (cs ++ [c]) = c.keys (present cs) := by
  rw [present, List.foldl_append]
  rfl

theorem tracks_mapNew : Tracks ([] : List (Done γ)) mapNew := ⟨fun _ => rfl, rfl⟩

/-- The counter counts the keys. -/
theorem Map.size_eq_card {β : Type*} (m : Map β) :
    m.size = (m.pairs.map Prod.fst).toFinset.card := by
  rw [List.toFinset_card_of_nodup m.nodup, List.length_map, m.size_eq]

theorem toFinset_mapPut {β : Type*} (m : Map β) (key : ℤ) (value : β) :
    ((mapPut m key value true).2.pairs.map Prod.fst).toFinset =
      insert key (m.pairs.map Prod.fst).toFinset := by
  ext k
  rw [Finset.mem_insert, List.mem_toFinset, List.mem_toFinset, ← mapGet_isSome, ← mapGet_isSome,
    mapGet_mapPut]
  split
  · next hk => simp [hk]
  · next hk => simp [hk]

theorem toFinset_mapRemove {β : Type*} (m : Map β) (key : ℤ) :
    ((mapRemove m key).2.pairs.map Prod.fst).toFinset =
      (m.pairs.map Prod.fst).toFinset.erase key := by
  ext k
  rw [Finset.mem_erase, List.mem_toFinset, List.mem_toFinset, ← mapGet_isSome, ← mapGet_isSome,
    mapGet_mapRemove]
  split
  · next hk => simp [hk]
  · next hk => simp [hk]

theorem mapRemove_size_le {β : Type*} (m : Map β) (key : ℤ) : (mapRemove m key).2.size ≤ m.size := by
  rw [Map.size_eq_card, Map.size_eq_card, toFinset_mapRemove]
  exact Int.ofNat_le.2 Finset.card_erase_le

namespace Tracks

variable {history : List (Done γ)} {m m' : Map (Option γ)} {c : Call γ} {answer : Answer γ}

/-- The counter counts the keys that the calls leave. -/
theorem size_eq (h : Tracks history m) : m.size = (present (history.map Done.call)).card := by
  rw [m.size_eq_card, h.keys]

/-- A map that a call leaves goes on tracking, if its pairs are those the call stores. -/
theorem snoc (h : Tracks history m) {d : Done γ}
    (hcontents : ∀ key, mapGet d.after key = d.stored key (mapGet m key))
    (hkeys : (d.after.pairs.map Prod.fst).toFinset = d.call.keys (m.pairs.map Prod.fst).toFinset) :
    Tracks (history ++ [d]) d.after := by
  constructor
  · intro key
    rw [lastPut_snoc, hcontents, h.contents]
  · rw [List.map_append, List.map_singleton, present_snoc, hkeys, h.keys]

/-- A successful `map_put`. -/
theorem put (h : Tracks history m) (key : ℤ) (value : Option γ) {allocated : Bool}
    (hroom : allocated = true ∨ key ∈ m.pairs.map Prod.fst) :
    Tracks (history ++ [⟨.put key value allocated, m, .status 0, (mapPut m key value true).2⟩])
      (mapPut m key value true).2 := by
  refine h.snoc (d := ⟨.put key value allocated, m, .status 0, (mapPut m key value true).2⟩) ?_ ?_
  · intro k
    simp only [mapGet_mapPut, Done.stored, and_true, eq_comm (a := k)]
  · dsimp only [Call.keys]
    rw [toFinset_mapPut]
    split
    · rfl
    · next hno =>
      exact Finset.insert_eq_self.2 (List.mem_toFinset.2 (hroom.resolve_left hno))

/-- A `map_put` that fails. -/
theorem refused (h : Tracks history m) {key : ℤ} (value : Option γ) {allocated : Bool}
    (hroom : ¬ (allocated = true ∨ key ∈ m.pairs.map Prod.fst)) :
    Tracks (history ++ [⟨.put key value allocated, m, .status (-1), m⟩]) m := by
  refine h.snoc (d := ⟨.put key value allocated, m, .status (-1), m⟩) ?_ ?_
  · intro k
    simp [Done.stored]
  · exact (if_neg (not_or.1 hroom).1).symm

/-- **A call that returns** is answered right, and the map goes on tracking. -/
theorem call (h : Tracks history m) (hrun : c.run m = .ok (answer, m')) :
    Tracks (history ++ [⟨c, m, answer, m'⟩]) m' ∧ Right history ⟨c, m, answer, m'⟩ := by
  suffices hboth : Tracks (history ++ [⟨c, m, answer, m'⟩]) m' ∧ _ from
    ⟨hboth.1, m'.nodup, hboth.1.contents, hboth.2⟩
  cases c with
  | put key value allocated =>
    dsimp only [Call.run] at hrun
    split at hrun
    · cases hrun
    obtain ⟨rfl, rfl⟩ := Prod.mk.inj (Except.ok.inj hrun)
    by_cases hroom : allocated = true ∨ key ∈ m.pairs.map Prod.fst
    · rw [mapPut_stored value hroom]
      exact ⟨h.put key value hroom, .inl rfl⟩
    · obtain ⟨hallocated, hmem⟩ := not_or.1 hroom
      have habsent : mapGet m key = none := by
        rw [← Option.not_isSome_iff_eq_none, mapGet_isSome]
        exact hmem
      rw [mapPut_refused value hroom]
      exact ⟨h.refused value hroom, .inr
        ⟨rfl, eq_false_of_ne_true hallocated, (h.contents key).symm.trans habsent, rfl⟩⟩
  | remove key =>
    obtain ⟨rfl, rfl⟩ := Prod.mk.inj (Except.ok.inj hrun)
    refine ⟨h.snoc (d := ⟨.remove key, m, _, (mapRemove m key).2⟩) ?_ (toFinset_mapRemove m key), ?_⟩
    · intro k
      simp only [mapGet_mapRemove, Done.stored, eq_comm (a := k)]
    · dsimp only
      rw [mapRemove_fst, h.contents]
  | get key =>
    obtain ⟨rfl, rfl⟩ := Prod.mk.inj (Except.ok.inj hrun)
    refine ⟨h.snoc (d := ⟨.get key, m, _, m⟩) (fun _ => rfl) rfl, ?_⟩
    dsimp only
    rw [h.contents]
  | size =>
    obtain ⟨rfl, rfl⟩ := Prod.mk.inj (Except.ok.inj hrun)
    refine ⟨h.snoc (d := ⟨.size, m, _, m⟩) (fun _ => rfl) rfl, ?_⟩
    dsimp only
    rw [mapSize, h.size_eq]

/-- **When a call returns**: unless it leaves more keys than an `int` can count. -/
theorem exists_run (h : Tracks history m) (hsize : m.size ≤ intMax) :
    (∃ answer m', c.run m = .ok (answer, m')) ↔
      ((present (history.map Done.call ++ [c])).card : ℤ) ≤ intMax := by
  -- what a call leaves, and that only `map_put` can leave more
  have hcard : ∀ {d : Done γ}, Tracks (history ++ [d]) d.after →
      d.after.size = (present (history.map Done.call ++ [d.call])).card := by
    intro d hd
    rw [hd.size_eq, List.map_append, List.map_singleton]
  cases c with
  | put key value allocated =>
    have hput : (mapPut m key value allocated).2.size =
        (present (history.map Done.call ++ [.put key value allocated])).card := by
      by_cases hroom : allocated = true ∨ key ∈ m.pairs.map Prod.fst
      · rw [mapPut_stored value hroom]
        exact hcard (h.put key value hroom)
      · rw [mapPut_refused value hroom]
        exact hcard (h.refused value hroom)
    dsimp only [Call.run]
    rw [← hput]
    split
    · next hgt => simp [not_le.2 hgt]
    · next hle => exact iff_of_true ⟨_, _, rfl⟩ (not_lt.1 hle)
  | remove key =>
    have hremove := hcard (h.call (c := .remove key) rfl).1
    exact iff_of_true ⟨_, _, rfl⟩ (hremove ▸ (mapRemove_size_le m key).trans hsize)
  | get key => exact iff_of_true ⟨_, _, rfl⟩ (hcard (h.call (c := .get key) rfl).1 ▸ hsize)
  | size => exact iff_of_true ⟨_, _, rfl⟩ (hcard (h.call (c := .size) rfl).1 ▸ hsize)

end Tracks

/-! ## Sequences of calls -/

theorem forall_prefix_cons {α : Type*} {P : List α → Prop} {x : α} {xs : List α} :
    (∀ ps, ps <+: x :: xs → P ps) ↔ P [] ∧ ∀ ps, ps <+: xs → P (x :: ps) := by
  constructor
  · intro h
    exact ⟨h [] List.nil_prefix, fun ps hps => h _ (List.cons_prefix_cons.2 ⟨rfl, hps⟩)⟩
  · rintro ⟨hnil, hcons⟩ ps hps
    obtain rfl | ⟨ps', rfl, hps'⟩ := List.prefix_cons_iff.1 hps
    · exact hnil
    · exact hcons ps' hps'

/-- **A sequence of calls**, from a map that tracks a history. -/
theorem exists_runCalls_iff {history : List (Done γ)} {m : Map (Option γ)} (h : Tracks history m)
    (hsize : m.size ≤ intMax) (cs : List (Call γ)) :
    (∃ log, runCalls m cs = .ok log ∧ log.map Done.call = cs ∧ AllRight history log) ↔
      ∀ ps, ps <+: cs → ((present (history.map Done.call ++ ps)).card : ℤ) ≤ intMax := by
  induction cs generalizing history m with
  | nil =>
    refine iff_of_true ⟨[], rfl, rfl, trivial⟩ fun ps hps => ?_
    rw [List.prefix_nil.1 hps, List.append_nil, ← h.size_eq]
    exact hsize
  | cons c cs ih =>
    -- the rest of the calls, after one that has returned
    have hrest : ∀ {answer m'}, c.run m = .ok (answer, m') →
        ((∃ log, runCalls m' cs = .ok log ∧ log.map Done.call = cs ∧
          AllRight (history ++ [⟨c, m, answer, m'⟩]) log) ↔
        ∀ ps, ps <+: cs → ((present (history.map Done.call ++ c :: ps)).card : ℤ) ≤ intMax) := by
      intro answer m' hrun
      have htracks := (h.call hrun).1
      have hsize' := (h.exists_run hsize).1 ⟨answer, m', hrun⟩
      rw [ih htracks (by rw [htracks.size_eq, List.map_append]; exact hsize')]
      simp
    rw [forall_prefix_cons, List.append_nil, ← h.size_eq]
    constructor
    · rintro ⟨log, hlog, hcalls, hright⟩
      obtain ⟨⟨answer, m'⟩, hrun, hlog⟩ := Fault.bind_eq_ok.1 hlog
      obtain ⟨log', hlog', hlog⟩ := Fault.bind_eq_ok.1 hlog
      obtain rfl := Except.ok.inj hlog
      exact ⟨hsize, (hrest hrun).1 ⟨log', hlog', (List.cons.inj hcalls).2, hright.2⟩⟩
    · rintro ⟨-, hle⟩
      obtain ⟨answer, m', hrun⟩ := (h.exists_run hsize).2 (hle [] List.nil_prefix)
      obtain ⟨log, hlog, hcalls, hright⟩ := (hrest hrun).2 hle
      refine ⟨⟨c, m, answer, m'⟩ :: log, ?_, ?_, (h.call hrun).2, hright⟩
      · rw [runCalls, hrun, Fault.ok_bind]
        exact Fault.bind_eq_ok.2 ⟨log, hlog, rfl⟩
      · rw [List.map_cons, hcalls]

theorem mapNew_size_le : (mapNew : Map (Option γ)).size ≤ intMax := Int.natCast_nonneg 2147483647

/-- **`map.c` is a finite map** exactly as long as its counter can count the keys. -/
theorem isFiniteMap_iff (cs : List (Call γ)) : IsFiniteMap cs ↔ Countable cs :=
  exists_runCalls_iff tracks_mapNew mapNew_size_le cs

/-- `map_put` of the keys `0` to `n - 1`. -/
def putUpTo (n : ℕ) : List (Call ℕ) := (List.range n).map fun key => .put (Int.ofNat key) none true

theorem card_present_putUpTo (n : ℕ) : (present (putUpTo n)).card = n := by
  have hpresent : present (putUpTo n) = (Finset.range n).image Int.ofNat := by
    induction n with
    | zero => rfl
    | succ n ih =>
      rw [putUpTo, List.range_succ, List.map_append, List.map_singleton, present_snoc,
        Finset.range_add_one, Finset.image_insert, ← ih]
      rfl
  rw [hpresent, Finset.card_image_of_injective _ (fun _ _ h => Int.ofNat.inj h), Finset.card_range]

/-- The counter overflows at every number of keys beyond the largest `int`. -/
theorem not_isFiniteMap_of_lt {n : ℕ} (hn : intMax < n) : ¬ IsFiniteMap (putUpTo n) := by
  intro h
  have hle := (exists_runCalls_iff tracks_mapNew mapNew_size_le _).1 h _ List.prefix_rfl
  have hcard := card_present_putUpTo n
  rw [List.map_nil, List.nil_append, hcard] at hle
  exact absurd hle (not_le.2 hn)

theorem not_isFiniteMap_putUpTo : ¬ IsFiniteMap (putUpTo 2147483648) :=
  not_isFiniteMap_of_lt (by decide)

end Dchat.Structures
