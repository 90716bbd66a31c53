import Dchat.Foundations.Fault
import Mathlib.Data.List.Nodup
import Mathlib.Logic.Function.Basic

/-!
# The lists of `sys/queue.h`

`LIST_HEAD` and `LIST_ENTRY` as pointers into a memory. An element holds a payload, the address of
the next element and, as `le_prev`, the place of the pointer that points to it: the `le_next` of
another element or the `lh_first` of the head. Following a null pointer or a pointer to freed memory
is a `Fault`.

* `Linked h l` says that the pointers of `h` link exactly the elements of `l`, in that order.
* `linked_listInsertHead` and `linked_listRemove` are the effects of `LIST_INSERT_HEAD` and of
  `LIST_REMOVE` followed by `free`, on a list of any length and at any place of it.
* `listFind_eq` is the loop `LIST_FOREACH` that stops at the first element with a property.
-/

namespace Dchat.Queue

/-- The address of an element. A pointer is an `Option Address`; `none` is the null pointer. -/
abbrev Address := ℕ

/-- An element of a list. `lePrev` is the element whose `le_next` the field points to, or `none`
if it points to the `lh_first` of the head. -/
structure Element (α : Type) where
  payload : α
  leNext : Option Address
  lePrev : Option Address
  deriving DecidableEq

/-- A head and the memory of the elements; an address is free where `element` is `none`. -/
structure ListHead (α : Type) where
  lhFirst : Option Address
  element : Address → Option (Element α)

variable {α : Type}

namespace ListHead

/-- `LIST_INIT`, in a memory without elements. -/
def init : ListHead α where
  lhFirst := none
  element := fun _ => none

/-- The element a pointer points to. -/
def deref (h : ListHead α) : Option Address → Except Fault (Element α)
  | none => .error .nullPointer
  | some a =>
    match h.element a with
    | none => .error .freed
    | some e => .ok e

theorem deref_some {h : ListHead α} {a : Address} {e : Element α} (he : h.element a = some e) :
    h.deref (some a) = .ok e := by
  simp only [deref, he]

/-- Overwrite the element at an address. -/
def store (h : ListHead α) (a : Address) (e : Option (Element α)) : ListHead α :=
  { h with element := Function.update h.element a e }

@[simp] theorem store_lhFirst (h : ListHead α) (a : Address) (e : Option (Element α)) :
    (h.store a e).lhFirst = h.lhFirst := rfl

@[simp] theorem store_element (h : ListHead α) (a b : Address) (e : Option (Element α)) :
    (h.store a e).element b = if b = a then e else h.element b :=
  Function.update_apply h.element a e b

/-- `*le_prev = next`. -/
def setNext (h : ListHead α) (lePrev next : Option Address) : Except Fault (ListHead α) :=
  match lePrev with
  | none => .ok { h with lhFirst := next }
  | some p => do
    let e ← h.deref (some p)
    return h.store p (some { e with leNext := next })

/-- `elm->le_prev = lePrev`, unless `elm` is null. -/
def setPrev (h : ListHead α) (elm lePrev : Option Address) : Except Fault (ListHead α) :=
  match elm with
  | none => .ok h
  | some a => do
    let e ← h.deref (some a)
    return h.store a (some { e with lePrev := lePrev })

/-- `LIST_REMOVE`. -/
def listRemove (h : ListHead α) (elm : Option Address) : Except Fault (ListHead α) := do
  let e ← h.deref elm
  let h' ← h.setPrev e.leNext e.lePrev
  h'.setNext e.lePrev e.leNext

/-- `LIST_INSERT_HEAD` of the element at `a`, whose other fields hold `payload`. -/
def listInsertHead (h : ListHead α) (a : Address) (payload : α) : Except Fault (ListHead α) := do
  let h' := h.store a (some { payload := payload, leNext := h.lhFirst, lePrev := none })
  let h'' ← h'.setPrev h.lhFirst (some a)
  return { h'' with lhFirst := some a }

/-- `free`. -/
def free (h : ListHead α) : Option Address → Except Fault (ListHead α)
  | none => .ok h
  | some a => do
    let _ ← h.deref (some a)
    return h.store a none

/-- `LIST_FOREACH` from `current` on, up to the first element whose payload has the property `p`;
`fuel` bounds the number of turns. -/
def listFind (h : ListHead α) (p : α → Bool) : ℕ → Option Address → Except Fault (Option Address)
  | 0, _ => .error .diverges
  | _ + 1, none => .ok none
  | fuel + 1, some a => do
    let e ← h.deref (some a)
    if p e.payload then return some a else listFind h p fuel e.leNext

end ListHead

/-! ## The elements linked -/

/-- The address of the first element. -/
def first (l : List (Address × α)) : Option Address := l.head?.map Prod.fst

/-- The address of the last element. -/
def final (l : List (Address × α)) : Option Address := l.getLast?.map Prod.fst

@[simp] theorem first_nil : first ([] : List (Address × α)) = none := rfl

@[simp] theorem first_cons (p : Address × α) (l : List (Address × α)) :
    first (p :: l) = some p.1 := rfl

@[simp] theorem final_nil : final ([] : List (Address × α)) = none := rfl

@[simp] theorem final_append_cons (l : List (Address × α)) (p : Address × α)
    (l' : List (Address × α)) : final (l ++ p :: l') = final (p :: l') := by
  rw [final, final, List.getLast?_append_of_ne_nil _ (List.cons_ne_nil _ _)]

@[simp] theorem final_cons_cons (p q : Address × α) (l : List (Address × α)) :
    final (p :: q :: l) = final (q :: l) := final_append_cons [p] q l

@[simp] theorem final_singleton (p : Address × α) : final [p] = some p.1 := rfl

theorem first_mem {l : List (Address × α)} {a : Address} (h : first l = some a) :
    a ∈ l.map Prod.fst := by
  cases l with
  | nil => cases h
  | cons p l => rw [first_cons, Option.some.injEq] at h; simp [h]

/-- The pointers of `h` link exactly the elements of `l`, in that order. -/
structure Linked (h : ListHead α) (l : List (Address × α)) : Prop where
  /-- No two elements share an address. -/
  nodup : (l.map Prod.fst).Nodup
  lhFirst_eq : h.lhFirst = first l
  /-- The fields of every element, by the place of the element in the list. -/
  element_eq : ∀ before a x after, l = before ++ (a, x) :: after →
    h.element a = some { payload := x, leNext := first after, lePrev := final before }

namespace Linked

variable {h : ListHead α} {l : List (Address × α)}

theorem init : Linked (ListHead.init : ListHead α) [] where
  nodup := List.nodup_nil
  lhFirst_eq := rfl
  element_eq := by simp

/-- What a pointer into the list finds. -/
theorem deref {before after : List (Address × α)} {a : Address} {x : α}
    (hl : Linked h (before ++ (a, x) :: after)) :
    h.deref (some a) = .ok { payload := x, leNext := first after, lePrev := final before } :=
  ListHead.deref_some (hl.element_eq before a x after rfl)

/-- The elements of a list are allocated. -/
theorem element_ne_none (hl : Linked h l) {a : Address} (ha : a ∈ l.map Prod.fst) :
    h.element a ≠ none := by
  obtain ⟨⟨a, x⟩, hmem, rfl⟩ := List.mem_map.1 ha
  obtain ⟨before, after, rfl⟩ := List.append_of_mem hmem
  rw [hl.element_eq before a x after rfl]
  exact Option.some_ne_none _

/-- Memory that holds no element of the list may change. -/
theorem store_of_not_mem (hl : Linked h l) {a : Address} (ha : a ∉ l.map Prod.fst)
    (e : Option (Element α)) : Linked (h.store a e) l where
  nodup := hl.nodup
  lhFirst_eq := hl.lhFirst_eq
  element_eq := by
    rintro before b x after rfl
    have hb : b ≠ a := by
      rintro rfl
      simp at ha
    rw [ListHead.store_element, if_neg hb]
    exact hl.element_eq before b x after rfl

end Linked

/-! ## A list laid out in memory -/

/-- The elements of a list after the one at `lePrev`, linked in its order. -/
def layOut : Option Address → List (Address × α) → Address → Option (Element α)
  | _, [], _ => none
  | lePrev, (b, x) :: l, a =>
    if a = b then some { payload := x, leNext := first l, lePrev := lePrev } else layOut (some b) l a

theorem layOut_append {before after : List (Address × α)} {a : Address} {x : α}
    (h : ((before ++ (a, x) :: after).map Prod.fst).Nodup) (lePrev : Option Address) :
    layOut lePrev (before ++ (a, x) :: after) a =
      some { payload := x, leNext := first after, lePrev := (final before).or lePrev } := by
  induction before generalizing lePrev with
  | nil => exact if_pos rfl
  | cons p before ih =>
    obtain ⟨hp, hnodup⟩ := List.nodup_cons.1 h
    have hne : a ≠ p.1 := fun heq => hp (heq ▸ by simp)
    rw [List.cons_append, layOut, if_neg hne, ih hnodup]
    cases before with
    | nil => rfl
    | cons q before =>
      have hlast : final (q :: before) = some ((q :: before).getLast (List.cons_ne_nil _ _)).1 := by
        rw [final, List.getLast?_eq_some_getLast (List.cons_ne_nil _ _), Option.map_some]
      rw [final_cons_cons, hlast, Option.some_or, Option.some_or]

/-- Elements with different addresses can be linked. -/
theorem linked_layOut {l : List (Address × α)} (h : (l.map Prod.fst).Nodup) :
    Linked ⟨first l, layOut none l⟩ l where
  nodup := h
  lhFirst_eq := rfl
  element_eq := by
    rintro before a x after rfl
    exact (layOut_append h none).trans (by rw [Option.or_none])

/-! ## The payloads -/

theorem first_map {f : Address × α → Address × α} (hf : ∀ c, (f c).1 = c.1)
    (l : List (Address × α)) : first (l.map f) = first l := by
  cases l with
  | nil => rfl
  | cons c l => rw [List.map_cons, first_cons, first_cons, hf]

theorem final_map {f : Address × α → Address × α} (hf : ∀ c, (f c).1 = c.1)
    (l : List (Address × α)) : final (l.map f) = final l := by
  simp only [final, List.getLast?_map, Option.map_map]
  congr 1
  funext c
  exact hf c

/-- Overwrite the payload of the element at `a`. -/
def setPayload (a : Address) (y : α) (c : Address × α) : Address × α := if c.1 = a then (a, y) else c

@[simp] theorem setPayload_fst (a : Address) (y : α) (c : Address × α) :
    (setPayload a y c).1 = c.1 := by
  unfold setPayload
  split
  · next h => exact h.symm
  · rfl

/-- A write to a payload leaves the links as they are. -/
theorem Linked.store_payload {h : ListHead α} {l : List (Address × α)} (hl : Linked h l)
    {a : Address} {e : Element α} (he : h.element a = some e) (y : α) :
    Linked (h.store a (some { e with payload := y })) (l.map (setPayload a y)) where
  nodup := by
    rw [List.map_map]
    simpa [Function.comp_def] using hl.nodup
  lhFirst_eq := by
    rw [first_map (setPayload_fst a y)]
    exact hl.lhFirst_eq
  element_eq := by
    intro before' b z after' hsplit
    obtain ⟨before, after₁, hl₁, rfl, hmap⟩ := List.map_eq_append_iff.1 hsplit
    obtain ⟨⟨c, x⟩, after, rfl, hc, rfl⟩ := List.map_eq_cons_iff.1 hmap
    have helement := hl.element_eq before c x after hl₁
    rw [first_map (setPayload_fst a y), final_map (setPayload_fst a y), ListHead.store_element]
    unfold setPayload at hc
    split at hc
    · next hca =>
      obtain ⟨rfl, rfl⟩ := Prod.mk.inj hc
      obtain rfl : c = a := hca
      rw [helement, Option.some.injEq] at he
      rw [if_pos rfl, ← he]
    · next hca =>
      obtain ⟨rfl, rfl⟩ := Prod.mk.inj hc
      rw [if_neg hca, helement]

/-! ## Writing the links -/

namespace ListHead

theorem setPrev_eq (h : ListHead α) (elm lePrev : Option Address)
    (helm : ∀ a, elm = some a → h.element a ≠ none) :
    ∃ h', h.setPrev elm lePrev = .ok h' ∧ h'.lhFirst = h.lhFirst ∧
      ∀ b, h'.element b = if elm = some b then (h.element b).map ({ · with lePrev := lePrev })
        else h.element b := by
  cases elm with
  | none => exact ⟨h, rfl, rfl, by simp⟩
  | some a =>
    obtain ⟨e, he⟩ := Option.ne_none_iff_exists'.1 (helm a rfl)
    refine ⟨h.store a (some { e with lePrev := lePrev }), ?_, rfl, ?_⟩
    · simp only [setPrev, deref_some he]
      rfl
    · intro b
      rw [store_element]
      by_cases hb : b = a
      · rw [if_pos hb, if_pos (hb ▸ rfl), hb, he]
        rfl
      · rw [if_neg hb, if_neg fun hab => hb (Option.some.inj hab).symm]

theorem setNext_eq (h : ListHead α) (lePrev next : Option Address)
    (hprev : ∀ a, lePrev = some a → h.element a ≠ none) :
    ∃ h', h.setNext lePrev next = .ok h' ∧
      h'.lhFirst = (if lePrev = none then next else h.lhFirst) ∧
      ∀ b, h'.element b = if lePrev = some b then (h.element b).map ({ · with leNext := next })
        else h.element b := by
  cases lePrev with
  | none => exact ⟨{ h with lhFirst := next }, rfl, rfl, by simp⟩
  | some a =>
    obtain ⟨e, he⟩ := Option.ne_none_iff_exists'.1 (hprev a rfl)
    refine ⟨h.store a (some { e with leNext := next }), ?_, rfl, ?_⟩
    · simp only [setNext, deref_some he]
      rfl
    · intro b
      rw [store_element]
      by_cases hb : b = a
      · rw [if_pos hb, if_pos (hb ▸ rfl), hb, he]
        rfl
      · rw [if_neg hb, if_neg fun hab => hb (Option.some.inj hab).symm]

end ListHead

/-! ## `LIST_REMOVE` -/

theorem final_mem {l : List (Address × α)} {a : Address} (h : final l = some a) :
    a ∈ l.map Prod.fst := by
  rw [final, Option.map_eq_some_iff] at h
  obtain ⟨p, hp, rfl⟩ := h
  exact List.mem_map_of_mem (List.mem_of_getLast? hp)

theorem first_append (l l' : List (Address × α)) :
    first (l ++ l') = if l = [] then first l' else first l := by
  cases l <;> rfl

theorem final_append (l l' : List (Address × α)) :
    final (l ++ l') = if l' = [] then final l else final l' := by
  cases l' with
  | nil => simp
  | cons p l' => simp

theorem final_eq_none {l : List (Address × α)} : final l = none ↔ l = [] := by
  simp [final]

/-- **`LIST_REMOVE` unlinks the element and no other**, wherever it stands. The element itself is
left as it was. -/
theorem linked_listRemove {h : ListHead α} {before after : List (Address × α)} {a : Address} {x : α}
    (hl : Linked h (before ++ (a, x) :: after)) : ∃ h', h.listRemove (some a) = .ok h' ∧
      Linked h' (before ++ after) ∧ h'.element a = h.element a := by
  have hnodup := hl.nodup
  rw [List.map_append, List.map_cons, List.nodup_append, List.nodup_cons] at hnodup
  obtain ⟨hbefore, ⟨ha, hafter⟩, hdisjoint⟩ := hnodup
  have hab : a ∉ before.map Prod.fst := fun hm => hdisjoint _ hm _ (by simp) rfl
  obtain ⟨h₁, hprev, hfirst₁, helement₁⟩ := h.setPrev_eq (first after) (final before)
    (fun b hb => hl.element_ne_none (by simp [first_mem hb]))
  have hlive : ∀ b, final before = some b → h₁.element b ≠ none := by
    intro b hb
    rw [helement₁, if_neg]
    · exact hl.element_ne_none (by simp [final_mem hb])
    · intro hf
      exact hdisjoint b (final_mem hb) b (.tail _ (first_mem hf)) rfl
  obtain ⟨h₂, hnext, hfirst₂, helement₂⟩ := h₁.setNext_eq (final before) (first after) hlive
  refine ⟨h₂, ?_, ⟨?_, ?_, ?_⟩, ?_⟩
  · rw [ListHead.listRemove, hl.deref, Fault.ok_bind, hprev, Fault.ok_bind, hnext]
  · rw [List.map_append, List.nodup_append]
    exact ⟨hbefore, hafter, fun b hb c hc => hdisjoint b hb c (.tail _ hc)⟩
  · rw [hfirst₂, hfirst₁, hl.lhFirst_eq, first_append, first_append]
    simp only [final_eq_none]
    split <;> rfl
  · intro b' c y d hsplit
    rw [helement₂, helement₁]
    obtain ⟨mid, rfl, rfl⟩ | ⟨mid, rfl, hmid⟩ := List.append_eq_append_iff.1 hsplit
    -- an element behind the one removed: its `le_prev` changes if it is the next one
    · have hc := hl.element_eq (before ++ (a, x) :: mid) c y d (by simp)
      have hne : final before ≠ some c := fun hf => hdisjoint c (final_mem hf) c (by simp) rfl
      rw [if_neg hne, hc]
      cases mid with
      | nil => simp
      | cons q mid =>
        have hq : q.1 ≠ c := fun he => by simp [he] at hafter
        simp [hq]
    · cases mid with
      | nil =>
        obtain rfl : after = (c, y) :: d := by simpa using hmid.symm
        have hc := hl.element_eq (b' ++ [(a, x)]) c y d (by simp)
        have hne : final b' ≠ some c := fun hf => hdisjoint c (by simp [final_mem hf]) c (by simp) rfl
        simp [hne, hc]
      -- an element before the one removed: its `le_next` changes if it is the last of these
      | cons q mid =>
        obtain ⟨rfl, rfl⟩ : (c, y) = q ∧ d = mid ++ after := by simpa using hmid
        have hc := hl.element_eq b' c y (mid ++ (a, x) :: after) (by simp)
        have hne : first after ≠ some c := fun hf => hdisjoint c (by simp) c (.tail _ (first_mem hf)) rfl
        rw [if_neg hne, hc, first_append, first_append, final_append, if_neg (List.cons_ne_nil _ _)]
        cases mid with
        | nil => simp
        | cons r mid =>
          have hr : final ((c, y) :: r :: mid) ≠ some c := by
            rw [final_cons_cons]
            intro hf
            have hmem := final_mem hf
            simp only [List.map_append, List.map_cons, List.nodup_append, List.nodup_cons] at hbefore
            exact hbefore.2.1.1 hmem
          rw [if_neg hr]
          simp
  · rw [helement₂, if_neg fun hf => hab (final_mem hf), helement₁, if_neg fun hf => ha (first_mem hf)]

/-- `LIST_REMOVE` followed by `free`. -/
theorem linked_free {h : ListHead α} {before after : List (Address × α)} {a : Address} {x : α}
    (hl : Linked h (before ++ (a, x) :: after)) : ∃ h', (h.listRemove (some a) >>= fun h' =>
      h'.free (some a)) = .ok h' ∧ Linked h' (before ++ after) ∧ h'.element a = none := by
  have ha : a ∉ (before ++ after).map Prod.fst := by
    have hnodup := hl.nodup
    rw [List.map_append, List.map_cons, List.nodup_middle, List.nodup_cons] at hnodup
    rw [List.map_append]
    exact hnodup.1
  obtain ⟨h₁, hremove, hl₁, helement⟩ := linked_listRemove hl
  have hderef := hl.deref
  refine ⟨h₁.store a none, ?_, hl₁.store_of_not_mem ha none, by simp⟩
  rw [hremove, Fault.ok_bind, ListHead.free]
  cases he : h.element a with
  | none => exact absurd he (hl.element_ne_none (by simp))
  | some e =>
    rw [ListHead.deref_some (helement.trans he)]
    rfl

/-! ## `LIST_INSERT_HEAD` -/

/-- **`LIST_INSERT_HEAD` of memory not in use puts one element before the others.** -/
theorem linked_listInsertHead {h : ListHead α} {l : List (Address × α)} (hl : Linked h l)
    {a : Address} (ha : h.element a = none) (payload : α) :
    ∃ h', h.listInsertHead a payload = .ok h' ∧ Linked h' ((a, payload) :: l) := by
  have hmem : a ∉ l.map Prod.fst := fun hm => hl.element_ne_none hm ha
  have hstore := hl.store_of_not_mem hmem
    (some { payload := payload, leNext := h.lhFirst, lePrev := none })
  obtain ⟨h₁, hprev, -, helement⟩ := ListHead.setPrev_eq
    (h.store a (some { payload := payload, leNext := h.lhFirst, lePrev := none })) h.lhFirst (some a)
    (fun b hb => hstore.element_ne_none (first_mem (hl.lhFirst_eq ▸ hb)))
  refine ⟨{ h₁ with lhFirst := some a }, ?_, List.nodup_cons.2 ⟨hmem, hl.nodup⟩, rfl, ?_⟩
  · rw [ListHead.listInsertHead, hprev]
    rfl
  · intro before b y after hsplit
    rw [helement]
    cases before with
    | nil =>
      obtain ⟨⟨rfl, rfl⟩, rfl⟩ : (a = b ∧ payload = y) ∧ l = after := by simpa using hsplit
      rw [if_neg fun hf => hmem (first_mem (hl.lhFirst_eq ▸ hf)), ListHead.store_element, if_pos rfl,
        hl.lhFirst_eq]
      rfl
    | cons p before =>
      obtain ⟨rfl, rfl⟩ : (a, payload) = p ∧ l = before ++ (b, y) :: after := by simpa using hsplit
      rw [hstore.element_eq before b y after rfl, hl.lhFirst_eq]
      cases before with
      | nil => simp
      | cons q before =>
        have hq : q.1 ≠ b := by
          have hnodup := hl.nodup
          rintro rfl
          simp at hnodup
        simp [hq]

/-! ## `LIST_FOREACH` -/

/-- The loop stops at the first element with the property, if the fuel lasts for the list. -/
theorem listFind_eq {h : ListHead α} {before l : List (Address × α)} (hl : Linked h (before ++ l))
    (p : α → Bool) {fuel : ℕ} (hfuel : l.length < fuel) :
    h.listFind p fuel (first l) = .ok ((l.find? fun c => p c.2).map Prod.fst) := by
  induction l generalizing before fuel with
  | nil =>
    cases fuel with
    | zero => omega
    | succ fuel => rfl
  | cons c l ih =>
    obtain ⟨a, x⟩ := c
    cases fuel with
    | zero => omega
    | succ fuel =>
      rw [List.length_cons] at hfuel
      rw [first_cons, ListHead.listFind, hl.deref, Fault.ok_bind, List.find?_cons]
      cases hp : p x with
      | true => simp [pure, Except.pure]
      | false =>
        have hl' : Linked h ((before ++ [(a, x)]) ++ l) := by simpa using hl
        simpa using ih hl' (by omega)

end Dchat.Queue
