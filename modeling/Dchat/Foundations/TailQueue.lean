import Dchat.Foundations.Queue
import Dchat.Foundations.Refinement

/-!
# The tail queues of `sys/queue.h`

`TAILQ_HEAD` and `TAILQ_ENTRY` as pointers into a memory. A tail queue is a list of `LIST_HEAD`
whose head also holds `tqh_last`, the place of the last pointer of the list; the `tqe_next` and
`tqe_prev` of an element are the `leNext` and `lePrev` of the lists.

* `Queued q l` says that the pointers of `q` link exactly the elements of `l`, in that order.
* `queued_tailqInsertTail`, `queued_tailqRemove`, `queued_free` and `queued_write` are the effects
  of the operations, on a queue of any length and at any place of it. Each also says what the memory
  holds afterwards (`ListHead.payload`), in the queue and outside of it.
* `agree_tailqForeach` is the rule for a loop `TAILQ_FOREACH` that may take the element it visits
  out of the queue, and may leave early: it agrees with a recursion on the list of the elements.
-/

namespace Dchat.Queue

variable {α : Type}

/-- What the memory holds at an address, apart from the links. -/
def ListHead.payload (h : ListHead α) (a : Address) : Option α := (h.element a).map Element.payload

theorem ListHead.payload_eq_some {h : ListHead α} {a : Address} {x : α} :
    h.payload a = some x ↔ ∃ e, h.element a = some e ∧ e.payload = x := by
  rw [payload, Option.map_eq_some_iff]

theorem ListHead.payload_eq_none {h : ListHead α} {a : Address} :
    h.payload a = none ↔ h.element a = none := by
  rw [payload, Option.map_eq_none_iff]

theorem ListHead.deref_eq_ok {h : ListHead α} {a : Address} {e : Element α} :
    h.deref (some a) = .ok e ↔ h.element a = some e := by
  rw [deref]
  cases h.element a <;> simp

theorem ListHead.payload_store (h : ListHead α) (a : Address) (e : Option (Element α)) (b : Address) :
    (h.store a e).payload b = if b = a then e.map Element.payload else h.payload b := by
  rw [payload, store_element]
  split <;> rfl

/-- A write to the links of an element. -/
theorem ListHead.payload_store_of_deref {h : ListHead α} {a : Address} {e e' : Element α}
    (he : h.deref (some a) = .ok e) (hpayload : e'.payload = e.payload) :
    (h.store a (some e')).payload = h.payload := by
  funext b
  rw [payload_store]
  split
  · next hb =>
    rw [hb, Option.map_some, hpayload, eq_comm, payload_eq_some]
    exact ⟨e, deref_eq_ok.1 he, rfl⟩
  · rfl

/-- A head and the memory of the elements. `tqhLast` is the element whose `tqe_next` is the last
pointer of the queue, or `none` if this is `tqh_first`. -/
structure TailqHead (α : Type) extends ListHead α where
  tqhLast : Option Address

namespace TailqHead

/-- `TAILQ_INIT`, in a memory without elements. -/
def init : TailqHead α where
  toListHead := ListHead.init
  tqhLast := none

/-- `TAILQ_INSERT_TAIL` of the element at `a`, whose other fields hold `payload`. -/
def tailqInsertTail (q : TailqHead α) (a : Address) (payload : α) : Except Fault (TailqHead α) := do
  let h := q.store a (some { payload := payload, leNext := none, lePrev := q.tqhLast })
  let h ← h.setNext q.tqhLast (some a)
  return { toListHead := h, tqhLast := some a }

/-- `TAILQ_REMOVE`. -/
def tailqRemove (q : TailqHead α) (elm : Option Address) : Except Fault (TailqHead α) := do
  let e ← q.deref elm
  let h ← q.listRemove elm
  return { toListHead := h, tqhLast := if e.leNext = none then e.lePrev else q.tqhLast }

/-- `free`. -/
def free (q : TailqHead α) (a : Option Address) : Except Fault (TailqHead α) := do
  let h ← q.toListHead.free a
  return { toListHead := h, tqhLast := q.tqhLast }

/-- A write to the other fields of an element. -/
def write (q : TailqHead α) (a : Address) (f : α → α) : Except Fault (TailqHead α) := do
  let e ← q.deref (some a)
  let h := q.store a (some { e with payload := f e.payload })
  return { toListHead := h, tqhLast := q.tqhLast }

/-- `TAILQ_FOREACH` from `current` on, over the queue that `queue` finds in the state of the loop.
The body may leave the loop, and the link to the next element is read after it; `fuel` bounds the
number of turns. -/
def tailqForeach {σ : Type} (queue : σ → TailqHead α)
    (body : Address → σ → Except Fault (ForInStep σ)) : ℕ → Option Address → σ → Except Fault σ
  | 0, _, _ => .error .diverges
  | _ + 1, none, s => .ok s
  | fuel + 1, some a, s => do
    match ← body a s with
    | .done s => .ok s
    | .yield s => do
      let e ← (queue s).deref (some a)
      tailqForeach queue body fuel e.leNext s

end TailqHead

/-! ## The elements of a queue -/

/-- The pointers of `q` link exactly the elements of `l`, in that order. -/
structure Queued (q : TailqHead α) (l : List (Address × α)) : Prop extends
    Linked q.toListHead l where
  tqhLast_eq : q.tqhLast = final l

namespace Queued

variable {q : TailqHead α} {l before after : List (Address × α)} {a : Address} {x : α}

theorem init : Queued (TailqHead.init : TailqHead α) [] := ⟨Linked.init, rfl⟩

theorem element (hq : Queued q (before ++ (a, x) :: after)) :
    q.element a = some { payload := x, leNext := first after, lePrev := final before } :=
  hq.element_eq before a x after rfl

theorem payload (hq : Queued q l) (hx : (a, x) ∈ l) : q.payload a = some x := by
  obtain ⟨before, after, rfl⟩ := List.append_of_mem hx
  rw [ListHead.payload, hq.element]
  rfl

end Queued

/-! ## The operations -/

namespace ListHead

variable {h h' : ListHead α} {elm link : Option Address}

theorem payload_setPrev (hset : h.setPrev elm link = .ok h') : h'.payload = h.payload := by
  cases elm with
  | none => rw [← Except.ok.inj hset]
  | some a =>
    obtain ⟨e, he, hset⟩ := Fault.bind_eq_ok.1 hset
    obtain rfl := Except.ok.inj hset
    exact payload_store_of_deref he rfl

theorem payload_setNext (hset : h.setNext elm link = .ok h') : h'.payload = h.payload := by
  cases elm with
  | none => rw [← Except.ok.inj hset]; rfl
  | some a =>
    obtain ⟨e, he, hset⟩ := Fault.bind_eq_ok.1 hset
    obtain rfl := Except.ok.inj hset
    exact payload_store_of_deref he rfl

/-- Unlinking an element leaves the contents of the memory as they are. -/
theorem payload_listRemove (hremove : h.listRemove elm = .ok h') : h'.payload = h.payload := by
  obtain ⟨e, -, hremove⟩ := Fault.bind_eq_ok.1 hremove
  obtain ⟨h₁, hprev, hnext⟩ := Fault.bind_eq_ok.1 hremove
  rw [payload_setNext hnext, payload_setPrev hprev]

end ListHead

section Operations

variable {q : TailqHead α} {l before after : List (Address × α)} {a : Address} {x : α}

/-- **`TAILQ_INSERT_TAIL` of memory not in use puts one element behind the others.** -/
theorem queued_tailqInsertTail (hq : Queued q l) (ha : q.element a = none) (x : α) :
    ∃ q', q.tailqInsertTail a x = .ok q' ∧ Queued q' (l ++ [(a, x)]) ∧
      ∀ b, q'.payload b = if b = a then some x else q.payload b := by
  have hmem : a ∉ l.map Prod.fst := fun hm => hq.element_ne_none hm ha
  have hstore := hq.toLinked.store_of_not_mem hmem
    (some { payload := x, leNext := none, lePrev := q.tqhLast })
  have hlast : final l ≠ some a := fun hf => hmem (final_mem hf)
  obtain ⟨h, hset, hfirst, helement⟩ := ListHead.setNext_eq
    (q.store a (some { payload := x, leNext := none, lePrev := q.tqhLast })) q.tqhLast (some a)
    (fun b hb => hstore.element_ne_none (final_mem (hq.tqhLast_eq ▸ hb)))
  rw [hq.tqhLast_eq] at hfirst helement
  refine ⟨⟨h, some a⟩, ?_, ⟨⟨?_, ?_, ?_⟩, by simp⟩, ?_⟩
  · rw [TailqHead.tailqInsertTail, hset]
    rfl
  · rw [List.map_append, List.nodup_append]
    refine ⟨hq.nodup, by simp, ?_⟩
    rintro b hb c hc rfl
    obtain rfl : b = a := List.mem_singleton.1 hc
    exact hmem hb
  · rw [hfirst, first_append]
    simp only [final_eq_none, ListHead.store_lhFirst, hq.lhFirst_eq]
    rfl
  · intro before b y after hsplit
    rw [helement]
    obtain rfl | ⟨mid, c, rfl⟩ := after.eq_nil_or_concat'
    · -- the new element
      obtain ⟨rfl, hb⟩ := List.append_inj' hsplit rfl
      obtain ⟨rfl, rfl⟩ : a = b ∧ x = y := by simpa using hb
      rw [if_neg hlast, ListHead.store_element, if_pos rfl]
      rfl
    · -- an old element: its `tqe_next` changes if it was the last one
      rw [← List.cons_append, ← List.append_assoc] at hsplit
      obtain ⟨rfl, hc⟩ := List.append_inj' hsplit rfl
      obtain rfl : (a, x) = c := by simpa using hc
      rw [← hq.tqhLast_eq, hstore.element_eq before b y mid rfl, hq.tqhLast_eq, final_append_cons,
        first_append]
      cases mid with
      | nil => simp
      | cons d mid =>
        have hb : final ((b, y) :: d :: mid) ≠ some b := by
          have hnodup := hq.nodup
          rw [List.map_append, List.nodup_append, List.map_cons, List.nodup_cons] at hnodup
          rw [final_cons_cons]
          exact fun hf => hnodup.2.1.1 (final_mem hf)
        rw [if_neg hb]
        rfl
  · intro b
    have hpayload : h.payload b = _ := congrFun (ListHead.payload_setNext hset) b
    rw [hpayload, ListHead.payload_store]
    rfl

/-- **`TAILQ_REMOVE` unlinks the element and no other**, wherever it stands. The element itself is
left as it was. -/
theorem queued_tailqRemove (hq : Queued q (before ++ (a, x) :: after)) :
    ∃ q', q.tailqRemove (some a) = .ok q' ∧ Queued q' (before ++ after) ∧
      q'.element a = q.element a ∧ q'.payload = q.payload := by
  obtain ⟨h, hremove, hl, helement⟩ := linked_listRemove hq.toLinked
  refine ⟨⟨h, if first after = none then final before else q.tqhLast⟩, ?_, ⟨hl, ?_⟩, helement, ?_⟩
  · rw [TailqHead.tailqRemove, hq.deref, Fault.ok_bind, hremove]
    rfl
  · rw [final_append, hq.tqhLast_eq, final_append_cons]
    cases after with
    | nil => rfl
    | cons c after => rfl
  · exact ListHead.payload_listRemove hremove

/-- **`free` of an element that is allocated and not in the queue.** -/
theorem queued_free (hq : Queued q l) (ha : a ∉ l.map Prod.fst) (hx : q.element a ≠ none) :
    ∃ q', q.free (some a) = .ok q' ∧ Queued q' l ∧
      ∀ b, q'.payload b = if b = a then none else q.payload b := by
  obtain ⟨e, he⟩ := Option.ne_none_iff_exists'.1 hx
  refine ⟨⟨q.store a none, q.tqhLast⟩, ?_, ⟨hq.toLinked.store_of_not_mem ha none, hq.tqhLast_eq⟩, ?_⟩
  · rw [TailqHead.free, ListHead.free, ListHead.deref_some he]
    rfl
  · exact q.payload_store a none

/-- **A write to the other fields of an element in the queue.** -/
theorem queued_write (hq : Queued q (before ++ (a, x) :: after)) (f : α → α) :
    ∃ q', q.write a f = .ok q' ∧ Queued q' (before ++ (a, f x) :: after) ∧
      ∀ b, q'.payload b = if b = a then some (f x) else q.payload b := by
  have hmap : (before ++ (a, x) :: after).map (setPayload a (f x)) = before ++ (a, f x) :: after := by
    have hnodup := hq.nodup
    rw [List.map_append, List.map_cons, List.nodup_append, List.nodup_cons] at hnodup
    obtain ⟨-, ⟨hafter, -⟩, hdisjoint⟩ := hnodup
    have hfix : ∀ l : List (Address × α), a ∉ l.map Prod.fst → l.map (setPayload a (f x)) = l := by
      intro l hl
      refine (List.map_congr_left fun c hc => if_neg ?_).trans l.map_id
      rintro rfl
      exact hl (List.mem_map_of_mem hc)
    rw [List.map_append, List.map_cons, hfix after hafter,
      hfix before fun hm => hdisjoint a hm a (by simp) rfl, setPayload, if_pos rfl]
  have hl := hq.toLinked.store_payload hq.element (f x)
  rw [hmap] at hl
  refine ⟨⟨_, q.tqhLast⟩, ?_, ⟨hl, ?_⟩, q.payload_store a _⟩
  · rw [TailqHead.write, hq.deref]
    rfl
  · rw [hq.tqhLast_eq, final_append_cons, final_append_cons]
    cases after <;> rfl

end Operations

/-! ## `TAILQ_FOREACH` -/

section Foreach

variable {σ τ β ρ : Type} {queue : σ → TailqHead α} {body : Address → σ → Except Fault (ForInStep σ)}
  {loop : List β → τ → Except Fault ρ} {address : β → Address} {I : List β → σ → τ → Prop}
  {P : σ → ρ → Prop}

/-- What a turn of a loop at the element of `b` does, and what the recursion `loop` does that it is
compared with, where `bs` is still to be visited: both stop at a fault; or the loop is left, and so
is the recursion; or the link of the element, which must not be freed, leads on to `bs`. -/
inductive LoopTurn (queue : σ → TailqHead α) (loop : List β → τ → Except Fault ρ) (address : β → Address)
    (I : List β → σ → τ → Prop) (P : σ → ρ → Prop) (b : β) (bs : List β) :
    Except Fault (ForInStep σ) → Except Fault ρ → Prop
  | fault {e : Fault} (h : e ≠ .freed) : LoopTurn queue loop address I P b bs (.error e) (.error e)
  | leave {s : σ} {r : ρ} (h : P s r) : LoopTurn queue loop address I P b bs (.ok (.done s)) (.ok r)
  | next {s : σ} {t : τ} {e : Element α} (h : I bs s t)
      (helement : (queue s).element (address b) = some e)
      (hnext : e.leNext = bs.head?.map address) :
      LoopTurn queue loop address I P b bs (.ok (.yield s)) (loop bs t)

/-- **The loop rule.** `I bs` relates the loop and the recursion when `bs` is still to be
visited. -/
theorem agree_tailqForeach (hnil : ∀ s t, I [] s t → Fault.Agree P (.ok s) (loop [] t))
    (hcons : ∀ b bs s t, I (b :: bs) s t →
      LoopTurn queue loop address I P b bs (body (address b) s) (loop (b :: bs) t))
    {bs : List β} {s : σ} {t : τ} (h : I bs s t) {fuel : ℕ} (hfuel : bs.length < fuel) :
    Fault.Agree P (TailqHead.tailqForeach queue body fuel (bs.head?.map address) s) (loop bs t) := by
  induction bs generalizing s t fuel with
  | nil =>
    cases fuel with
    | zero => omega
    | succ fuel => exact hnil s t h
  | cons b bs ih =>
    cases fuel with
    | zero => omega
    | succ fuel =>
      rw [List.length_cons] at hfuel
      have hturn := hcons b bs s t h
      rw [List.head?_cons, Option.map_some, TailqHead.tailqForeach]
      generalize body (address b) s = x at hturn ⊢
      generalize loop (b :: bs) t = y at hturn ⊢
      cases hturn with
      | fault he => exact .error he
      | leave hP => exact .ok hP
      | next hI helement hnext =>
        rw [Fault.ok_bind]
        dsimp only
        rw [ListHead.deref_some helement, Fault.ok_bind, hnext]
        exact ih hI (by omega)

end Foreach

end Dchat.Queue
