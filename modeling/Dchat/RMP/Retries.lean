import Dchat.Foundations.Runs
import Dchat.RMP.Moves
import Dchat.RMP.Timer
import Mathlib.Data.List.Chain

/-!
# The retries of an ACK

A message stored by `receive_and_process_message` is acknowledged at once and, until it
is delivered, overwritten or given up, again each time its timer expires. The code keeps
a counter and a time; here a history keeps what happened, the time of the DATA and the
times of the retransmissions.

* `maintainBufferElement_eq` and `mapGet_processMessage` say what a pass and a datagram do to one
  buffer.
* `cleanReceiveBuffer_out`: the retransmissions that the history records are the ACKs
  that a pass sends.
* `tracks_step`: the counter and the time agree with the history.
* `retries_paced`: in every sequence of calls, an ACK is sent again at most `NUM_RETRIES` times,
  each time more than `ACK_TIMEOUT_USEC` after the last, and an occupied buffer is removed only when
  its timer expires once more after the last of `NUM_RETRIES` retransmissions.
-/

namespace Dchat.RMP

open Structures Runs

/-! ## Clock readings -/

/-- Of two clock readings, the second is more than `ACK_TIMEOUT_USEC` after the first. -/
def LongAfter (t t' : Timeval) : Prop :=
  t.Normal → t'.Normal → ackTimeoutUsec < t'.micros - t.micros

theorem longAfter_of_greater {t t' : Timeval}
    (h : intervalGreaterThanValue t t' ackTimeoutUsec = true) : LongAfter t t' := by
  intro ht ht'
  rw [← micros_mk_zero ackTimeoutUsec]
  exact (timercmpGt_timersub ht ht' (by unfold Timeval.Normal; decide)).1 h

/-! ## One buffer -/

/-- The timer of a buffer has expired. -/
def Expired (b : MessageHoldingBuffer Cell) (now : Timeval) : Prop :=
  intervalGreaterThanValue b.timestamp now ackTimeoutUsec = true

instance (b : MessageHoldingBuffer Cell) (now : Timeval) : Decidable (Expired b now) :=
  inferInstanceAs (Decidable (_ = _))

/-- `maintain_buffer_element` sends the ACK of a buffer again. -/
def Due (b : MessageHoldingBuffer Cell) (now : Timeval) : Prop :=
  Expired b now ∧ b.retriesRemaining ≠ 0 ∧ b.occupied = true

instance (b : MessageHoldingBuffer Cell) (now : Timeval) : Decidable (Due b now) :=
  inferInstanceAs (Decidable (_ ∧ _ ∧ _))

/-- **What `maintain_buffer_element` does to a buffer.** -/
theorem maintainBufferElement_eq (now : Timeval) (sendOk : Bool) (peer : RmpAddress)
    (b : MessageHoldingBuffer Cell) :
    maintainBufferElement now sendOk peer b =
      if Due b now then
        (0, { b with retriesRemaining := b.retriesRemaining - 1, timestamp := now },
          (sendRmpDatagram sendOk peer .ack b.id []).2)
      else if Expired b now then (-1, b, []) else (0, b, []) := by
  unfold maintainBufferElement Due Expired
  by_cases ht : intervalGreaterThanValue b.timestamp now ackTimeoutUsec = true
  · by_cases hr : b.retriesRemaining = 0
    · simp [ht, hr]
    · by_cases ho : b.occupied = true <;> simp [ht, hr, ho]
  · simp [ht]

/-- The ACK that `maintain_buffer_element` sends. -/
theorem maintainBufferElement_out (now : Timeval) (sendOk : Bool) (peer : RmpAddress)
    (b : MessageHoldingBuffer Cell) :
    (maintainBufferElement now sendOk peer b).2.2 =
      if Due b now ∧ sendOk = true then [(peer, ⟨.ack, b.id, []⟩)] else [] := by
  rw [maintainBufferElement_eq]
  by_cases hdue : Due b now
  · cases sendOk <;> simp [hdue, sendRmpDatagram]
  · simp only [hdue, if_false, false_and]
    split <;> rfl

/-- The buffer of a key after a pass. -/
theorem mapGet_cleanReceiveBuffer (st : RmpState) (c : CleanInput) (key : ℤ) :
    mapGet (cleanReceiveBuffer st c).1 key = (mapGet st.receiveBuffer key).bind fun b =>
      if Due b (c.currentTime key) then
        some { b with retriesRemaining := b.retriesRemaining - 1, timestamp := c.currentTime key }
      else if Expired b (c.currentTime key) then none else some b := by
  rw [cleanReceiveBuffer, iterateOverSendBuffer, mapGet_filterValues]
  congr 1
  funext b
  simp only [RmpState.maintain, maintainBufferElement_eq]
  split
  · rfl
  · split <;> rfl

/-- The buffer of a peer, made if there is none. -/
theorem mapGet_getReceiveBufferFor (m : ReceiveBuffer) (src : RmpAddress)
    (fresh : MessageHoldingBuffer Cell) (key : ℤ) :
    mapGet (getReceiveBufferFor m src fresh).2 key =
      if key = rmpAddressHash src then some (getReceiveBufferFor m src fresh).1
      else mapGet m key := by
  unfold getReceiveBufferFor
  dsimp only
  cases h : mapGet m (rmpAddressHash src) with
  | some b =>
    dsimp only
    split
    · next hk => rw [hk, h]
    · rfl
  | none =>
    dsimp only
    rw [mapGet_mapPut]

/-- A stored message. -/
def fillBuffer (b : MessageHoldingBuffer Cell) (cell : Cell) (d : Datagram) (now : Timeval) :
    MessageHoldingBuffer Cell :=
  { b with
    occupied := true, type := d.type, id := d.id, message := d.payload
    timestamp := now, peer := cell, retriesRemaining := numRetries }

/-- What processing a datagram does to the buffer `b` of its source. -/
def processBuffer (b : MessageHoldingBuffer Cell) (cell : Cell) (d : Datagram) (now : Timeval) :
    MessageHoldingBuffer Cell :=
  if d.type = .data then fillBuffer b cell d now
  else if d.type = .synAck ∧ b.occupied = true ∧ d.id = b.id then { b with occupied := false }
  else b

/-- **What processing a datagram does to the buffer of a key.** Only the buffer of its source can
change, or be made. -/
theorem mapGet_processMessage (st : RmpState) (cell : Cell) (src : RmpAddress) (d : Datagram)
    (n : ℕ) (o : ReceiveInput) (key : ℤ) :
    mapGet (processMessage st cell src d n o).receiveBuffer key =
      if key = rmpAddressHash src ∧ (d.type = .data ∨ d.type = .synAck) then
        some (processBuffer (getReceiveBufferFor st.receiveBuffer src o.fresh).1 cell d o.timestamp)
      else mapGet st.receiveBuffer key := by
  have hget := mapGet_getReceiveBufferFor st.receiveBuffer src o.fresh key
  cases ht : d.type with
  | data =>
    have hm : (processMessage st cell src d n o).receiveBuffer =
        (mapPut (getReceiveBufferFor st.receiveBuffer src o.fresh).2 (rmpAddressHash src)
          (fillBuffer (getReceiveBufferFor st.receiveBuffer src o.fresh).1 cell d o.timestamp)
          true).2 := by
      simp only [processMessage, ht, fillBuffer]
      split <;> rfl
    rw [hm, mapGet_mapPut, hget]
    by_cases hk : key = rmpAddressHash src <;> simp [hk, processBuffer, ht]
  | synAck =>
    simp only [processMessage, processBuffer, ht]
    split
    · next hb =>
      rw [mapGet_mapPut, hget]
      by_cases hk : key = rmpAddressHash src <;> simp [hk, hb]
    · next hb =>
      rw [hget]
      by_cases hk : key = rmpAddressHash src
      · simp only [hk, reduceCtorEq, if_false, or_true, and_self, if_true, true_and, if_neg hb]
      · simp [hk]
  | ack =>
    rw [(processMessage_ack st cell src d n o ht).1]
    simp
  | other value => simp [processMessage, ht]

/-- A message is delivered by the SYN_ACK of its id. -/
theorem processMessage_delivered (st : RmpState) (cell : Cell) (src : RmpAddress) (d : Datagram)
    (n : ℕ) (o : ReceiveInput) :
    (processMessage st cell src d n o).delivered = true ↔
      d.type = .synAck ∧
        (getReceiveBufferFor st.receiveBuffer src o.fresh).1.occupied = true ∧
        d.id = (getReceiveBufferFor st.receiveBuffer src o.fresh).1.id := by
  cases ht : d.type with
  | data => simp [(processMessage_data st cell src d n o ht).2.2.1]
  | ack => simp [(processMessage_ack st cell src d n o ht).2.2.1]
  | synAck =>
    simp only [processMessage, ht, true_and]
    split
    · next hb => exact iff_of_true rfl hb
    · next hb => exact iff_of_false Bool.false_ne_true hb
  | other value => simp [processMessage, ht]

/-! ## Calls of `receive_and_process_message`, with their history -/

/-- The arguments of one call, what the operating system gives it, and the variables
`recv_src_address` of the calls under way. -/
structure Reception where
  live : List (Cell × RmpAddress)
  bufferSize : ℕ
  clean : CleanInput
  recv : RecvOutcome
  rest : ReceiveInput

/-- `receive_and_process_message`: the state after it, and the rest as in `Processed`. -/
def receiveAndProcessMessage (st : RmpState) (i : Reception) : RmpState × Processed :=
  let st := { st with live := i.live }
  let (m, out) := cleanReceiveBuffer st i.clean
  let (st, _, p) := receiveAndProcess { st with receiveBuffer := m } i.bufferSize i.recv i.rest
  (st, { p with out := out ++ p.out })

/-- The time of the DATA that filled a buffer, and the times at which its ACK was sent again. -/
structure Fill where
  filled : Timeval
  resent : List Timeval
  deriving DecidableEq

/-- The time of the last of these. -/
def Fill.latest (f : Fill) : Timeval := f.resent.getLastD f.filled

/-- Each time is more than `ACK_TIMEOUT_USEC` after the one before. -/
def Fill.Paced (f : Fill) : Prop :=
  List.IsChain LongAfter (f.filled :: f.resent)

/-- The buffers of a pass whose ACK is handed to `sendto` again, and when. -/
def resends (st : RmpState) (c : CleanInput) : List (ℤ × Timeval) :=
  st.receiveBuffer.pairs.filterMap fun p =>
    if (maintainBufferElement (c.currentTime p.1) true (st.address c.stack p.2.peer) p.2).2.2 = []
    then none else some (p.1, c.currentTime p.1)

/-- The ACKs of these that `sendto` takes. -/
def acksSent (st : RmpState) (c : CleanInput) : Output :=
  (resends st c).filterMap fun p =>
    if c.sendOk p.1 then
      (mapGet st.receiveBuffer p.1).map fun b => (st.address c.stack b.peer, ⟨.ack, b.id, []⟩)
    else none

/-- **A pass sends these ACKs**, and nothing else. -/
theorem cleanReceiveBuffer_out (st : RmpState) (c : CleanInput) :
    (cleanReceiveBuffer st c).2 = acksSent st c := by
  have hstored : ∀ p ∈ st.receiveBuffer.pairs, mapGet st.receiveBuffer p.1 = some p.2 :=
    fun p hp => mapGet_eq_some.2 hp
  rw [cleanReceiveBuffer, acksSent, resends]
  revert hstored
  induction st.receiveBuffer.pairs with
  | nil => exact fun _ => rfl
  | cons p pairs ih =>
    intro hstored
    have ih := ih fun q hq => hstored q (.tail _ hq)
    have hp := hstored p (.head _)
    simp only [List.flatMap_cons, List.filterMap_cons, RmpState.maintain,
      maintainBufferElement_out] at ih ⊢
    by_cases hdue : Due p.2 (c.currentTime p.1)
    · by_cases hok : c.sendOk p.1 = true
      · simp [hdue, hok, hp, ih]
      · simp [hdue, hok, ih]
    · simp [hdue, ih]

/-- A process with the history of each buffer since a DATA filled it, and of the occupied buffers
that were removed from the map, each with the time of its removal. -/
structure Watched where
  st : RmpState
  fill : ℤ → Option Fill
  discarded : List (Option Fill × Timeval)

namespace Watched

/-- No call yet. -/
def Initial (s : Watched) : Prop :=
  (∃ garbage, s.st = RmpState.initial garbage) ∧ s.fill = (fun _ => none) ∧ s.discarded = []

/-- The history of a pass. The history of a buffer ends when the buffer is removed. -/
def pass (s : Watched) (c : CleanInput) : Watched :=
  let m := (cleanReceiveBuffer s.st c).1
  { st := { s.st with receiveBuffer := m }
    fill := fun key =>
      if mapGet m key = none then none
      else (s.fill key).map fun f => { f with
        resent := f.resent ++ ((resends s.st c).filter fun p => p.1 = key).map Prod.snd }
    discarded := s.discarded ++ (s.st.receiveBuffer.pairs.filter fun p =>
      p.2.occupied ∧ mapGet m p.1 = none).map fun p => (s.fill p.1, c.currentTime p.1) }

/-- The history of a datagram. A DATA starts the history of the buffer it fills; the delivery of the
message ends it. -/
def receive (s : Watched) (n : ℕ) (r : RecvOutcome) (o : ReceiveInput) : Watched :=
  let (st, header, p) := receiveAndProcess s.st n r o
  { st := st
    fill := match r, header with
      | .datagram _ _, some (src, d) =>
        if d.type = .data then Function.update s.fill (rmpAddressHash src) (some ⟨o.timestamp, []⟩)
        else if p.delivered then Function.update s.fill (rmpAddressHash src) none
        else s.fill
      | _, _ => s.fill
    discarded := s.discarded }

/-- One call. -/
def step (s : Watched) (i : Reception) : Option Watched :=
  some (({ s with st := { s.st with live := i.live } }.pass i.clean).receive i.bufferSize i.recv
    i.rest)

/-- A buffer and its history. -/
inductive Tracks : Option (MessageHoldingBuffer Cell) → Option Fill → Prop
  | absent : Tracks none none
  | free {b : MessageHoldingBuffer Cell} (h : b.occupied = false) : Tracks (some b) none
  | held {b : MessageHoldingBuffer Cell} {f : Fill} (h : b.occupied = true)
      (hcount : b.retriesRemaining + f.resent.length = numRetries)
      (htime : b.timestamp = f.latest) (hpaced : f.Paced) : Tracks (some b) (some f)

/-- The retransmissions of one buffer in a pass: one if it is due, and no other buffer's. -/
theorem resends_of_key {st : RmpState} (c : CleanInput) {key : ℤ} {b : MessageHoldingBuffer Cell}
    (h : mapGet st.receiveBuffer key = some b) :
    ((resends st c).filter fun p => p.1 = key).map Prod.snd =
      if Due b (c.currentTime key) then [c.currentTime key] else [] := by
  obtain ⟨before, after, hpairs⟩ := List.append_of_mem (mapGet_eq_some.1 h)
  have hnodup := st.receiveBuffer.nodup
  rw [hpairs, List.map_append, List.map_cons, List.nodup_middle, List.nodup_cons,
    ← List.map_append] at hnodup
  have hother : ∀ l : List (ℤ × MessageHoldingBuffer Cell), (∀ p ∈ l, p ∈ before ++ after) →
      ((l.filterMap fun p =>
        if (maintainBufferElement (c.currentTime p.1) true (st.address c.stack p.2.peer) p.2).2.2 = []
        then none else some (p.1, c.currentTime p.1)).filter fun p => p.1 = key) = [] := by
    intro l hl
    rw [List.filter_eq_nil_iff]
    intro q hq
    obtain ⟨p, hp, hpq⟩ := List.mem_filterMap.1 hq
    split at hpq
    · cases hpq
    · obtain rfl := Option.some.inj hpq
      have hmem := List.mem_map_of_mem (f := Prod.fst) (hl p hp)
      have hne : p.1 ≠ key := fun he => hnodup.1 (he ▸ hmem)
      simpa using hne
  rw [resends, hpairs, List.filterMap_append, List.filterMap_cons, List.filter_append,
    hother before fun p hp => List.mem_append_left _ hp, maintainBufferElement_out]
  by_cases hdue : Due b (c.currentTime key)
  · simp [hdue, hother after fun p hp => List.mem_append_right _ hp]
  · simp [hdue, hother after fun p hp => List.mem_append_right _ hp]

@[simp] theorem latest_append (f : Fill) (now : Timeval) :
    Fill.latest { f with resent := f.resent ++ [now] } = now := by
  simp [Fill.latest]

theorem paced_append {f : Fill} (hf : f.Paced) {now : Timeval}
    (h : intervalGreaterThanValue f.latest now ackTimeoutUsec = true) :
    Fill.Paced { f with resent := f.resent ++ [now] } := by
  unfold Fill.Paced at *
  dsimp only
  rw [← List.cons_append, List.isChain_append]
  refine ⟨hf, List.isChain_singleton _, ?_⟩
  intro x hx y hy
  rw [List.getLast?_cons, ← List.getLastD_eq_getLast?] at hx
  obtain rfl : f.latest = x := Option.some.inj hx
  obtain rfl : now = y := Option.some.inj hy
  exact longAfter_of_greater h

/-- A pass keeps the counter and the time of a buffer in step with its history. -/
theorem tracks_pass (s : Watched) (c : CleanInput) (key : ℤ)
    (h : Tracks (mapGet s.st.receiveBuffer key) (s.fill key)) :
    Tracks (mapGet (s.pass c).st.receiveBuffer key) ((s.pass c).fill key) := by
  have hget := mapGet_cleanReceiveBuffer s.st c key
  simp only [pass]
  generalize hb : mapGet s.st.receiveBuffer key = stored at h
  generalize s.fill key = history at h
  cases h with
  | absent =>
    rw [hget, hb]
    exact .absent
  | @free b hfree =>
    have hdue : ¬ Due b (c.currentTime key) := by simp [Due, hfree]
    rw [hget, hb, Option.bind_some, if_neg hdue]
    by_cases hexpired : Expired b (c.currentTime key)
    · rw [if_pos hexpired]
      exact .absent
    · rw [if_neg hexpired]
      exact .free hfree
  | @held b f hheld hcount htime hpaced =>
    rw [hget, hb, Option.bind_some, resends_of_key c hb]
    by_cases hdue : Due b (c.currentTime key)
    · rw [if_pos hdue, if_pos hdue, if_neg (Option.some_ne_none _)]
      obtain ⟨hexpired, hretries, -⟩ := hdue
      refine .held hheld ?_ (latest_append f _).symm (paced_append hpaced (htime ▸ hexpired))
      simp only [List.length_append, List.length_singleton]
      omega
    · rw [if_neg hdue, if_neg hdue]
      by_cases hexpired : Expired b (c.currentTime key)
      · rw [if_pos hexpired]
        exact .absent
      · rw [if_neg hexpired, if_neg (Option.some_ne_none _), Option.map_some, List.append_nil]
        exact .held hheld hcount htime hpaced

/-- The history of a removed buffer has `NUM_RETRIES` retransmissions, and its timer has expired
once more. -/
def Spent (p : Option Fill × Timeval) : Prop :=
  ∃ f, p.1 = some f ∧ f.resent.length = numRetries ∧ LongAfter f.latest p.2

/-- An occupied buffer that a pass removes has been acknowledged `NUM_RETRIES` times again, and its
timer has expired since. -/
theorem discarded_pass (s : Watched) (c : CleanInput)
    (h : ∀ key, Tracks (mapGet s.st.receiveBuffer key) (s.fill key))
    (hdiscarded : ∀ p ∈ s.discarded, Spent p) : ∀ p ∈ (s.pass c).discarded, Spent p := by
  intro p hp
  rcases List.mem_append.1 hp with hp | hp
  · exact hdiscarded p hp
  · obtain ⟨⟨key, b⟩, hmem, rfl⟩ := List.mem_map.1 hp
    obtain ⟨hpair, hgone⟩ := List.mem_filter.1 hmem
    obtain ⟨hoccupied, hgone⟩ := of_decide_eq_true hgone
    have hb := mapGet_eq_some.2 hpair
    have htracks := h key
    rw [hb] at htracks
    rw [mapGet_cleanReceiveBuffer, hb, Option.bind_some] at hgone
    generalize s.fill key = history at htracks
    cases htracks with
    | free hfree => simp [hfree] at hoccupied
    | @held _ f _ hcount htime hpaced =>
      by_cases hdue : Due b (c.currentTime key)
      · simp [hdue] at hgone
      · rw [if_neg hdue] at hgone
        by_cases hexpired : Expired b (c.currentTime key)
        · have hretries : b.retriesRemaining = 0 := by
            by_contra hne
            exact hdue ⟨hexpired, hne, hoccupied⟩
          exact ⟨f, rfl, by omega, htime ▸ longAfter_of_greater hexpired⟩
        · simp [hexpired] at hgone

/-- A buffer made for a peer is free. -/
theorem tracks_getReceiveBufferFor {m : ReceiveBuffer} {src : RmpAddress} {f : Option Fill}
    (h : Tracks (mapGet m (rmpAddressHash src)) f) (fresh : MessageHoldingBuffer Cell) :
    Tracks (some (getReceiveBufferFor m src fresh).1) f := by
  unfold getReceiveBufferFor
  dsimp only
  generalize mapGet m (rmpAddressHash src) = stored at h
  cases h with
  | absent => exact .free rfl
  | free hfree => exact .free hfree
  | held hheld hcount htime hpaced => exact .held hheld hcount htime hpaced

/-- A datagram keeps them in step too. -/
theorem tracks_receive (s : Watched) (n : ℕ) (r : RecvOutcome) (o : ReceiveInput)
    (h : ∀ key, Tracks (mapGet s.st.receiveBuffer key) (s.fill key)) (key : ℤ) :
    Tracks (mapGet (s.receive n r o).st.receiveBuffer key) ((s.receive n r o).fill key) := by
  rcases r with ⟨src, d⟩ | ⟨src, d, length⟩ | _ | _
  · simp only [receive, receiveAndProcess_datagram]
    generalize received n d = d
    have hdelivered := processMessage_delivered s.st s.st.recvSrcAddress.1 src d n o
    have hb := tracks_getReceiveBufferFor (h (rmpAddressHash src)) o.fresh
    rw [mapGet_processMessage]
    by_cases hk : key = rmpAddressHash src
    · subst hk
      by_cases hdata : d.type = .data
      · rw [if_pos ⟨rfl, .inl hdata⟩, if_pos hdata, Function.update_self, processBuffer,
          if_pos hdata]
        exact .held rfl rfl rfl (List.isChain_singleton _)
      · rw [if_neg hdata]
        by_cases hsyn : d.type = .synAck
        · rw [if_pos ⟨rfl, .inr hsyn⟩, processBuffer, if_neg hdata]
          split
          · next hrelease =>
            rw [if_pos (hdelivered.2 hrelease), Function.update_self]
            exact .free rfl
          · next hkept =>
            rw [if_neg fun hd => hkept (hdelivered.1 hd)]
            exact hb
        · rw [if_neg fun hd => hsyn (hdelivered.1 hd).1, if_neg]
          · exact h _
          · exact fun hd => hd.2.elim hdata hsyn
    · rw [if_neg fun h => hk h.1]
      have hfill : ∀ f : Option Fill, Function.update s.fill (rmpAddressHash src) f key = s.fill key :=
        fun f => Function.update_of_ne hk ..
      split
      · rw [hfill]
        exact h key
      · split
        · rw [hfill]
          exact h key
        · exact h key
  · simp only [receive, receiveAndProcess_runt]
    exact h key
  · exact h key
  · exact h key

/-- **The law of the retries.** -/
structure RetriesPaced (s : Watched) : Prop where
  /-- Every stored message has its history. -/
  recorded : ∀ key b, mapGet s.st.receiveBuffer key = some b → b.occupied = true →
    ∃ f, s.fill key = some f
  count : ∀ key f, s.fill key = some f → f.resent.length ≤ numRetries
  pace : ∀ key f, s.fill key = some f → f.Paced
  /-- An occupied buffer is removed after `NUM_RETRIES` retransmissions, when the timer expires. -/
  discarded : ∀ p ∈ s.discarded, Spent p

/-- The counters and the times agree with the histories after every call. -/
theorem tracks_step {s s' : Watched} {i : Reception} (hs : s.step i = some s')
    (h : ∀ key, Tracks (mapGet s.st.receiveBuffer key) (s.fill key)) (key : ℤ) :
    Tracks (mapGet s'.st.receiveBuffer key) (s'.fill key) := by
  obtain rfl := Option.some.inj hs
  refine tracks_receive _ _ _ _ (fun key => ?_) key
  exact tracks_pass { s with st := { s.st with live := i.live } } i.clean key (h key)

/-- The state is that which `receive_and_process_message` leaves. -/
theorem step_st (s : Watched) (i : Reception) :
    (s.step i).map Watched.st = some (receiveAndProcessMessage s.st i).1 := rfl

/-- **Bounded, paced retries and no premature discard**, in every sequence of calls. A call leaves
the state that `receive_and_process_message` leaves, and its pass sends the ACKs of which the
history is kept. -/
theorem retries_paced {s : Watched} (h : Reach step (fun _ _ => True) Initial s) :
    RetriesPaced s ∧ ∀ i,
      (s.step i).map Watched.st = some (receiveAndProcessMessage s.st i).1 ∧
      (cleanReceiveBuffer { s.st with live := i.live } i.clean).2 =
        acksSent { s.st with live := i.live } i.clean := by
  refine ⟨?_, fun i => ⟨step_st s i, cleanReceiveBuffer_out _ _⟩⟩
  have hinv : (∀ key, Tracks (mapGet s.st.receiveBuffer key) (s.fill key)) ∧
      ∀ p ∈ s.discarded, Spent p := by
    refine h.invariant (I := fun s => (∀ key, Tracks (mapGet s.st.receiveBuffer key) (s.fill key)) ∧
      ∀ p ∈ s.discarded, Spent p) ?_ ?_
    · rintro s ⟨⟨garbage, hst⟩, hfill, hdiscarded⟩
      refine ⟨fun key => ?_, by simp [hdiscarded]⟩
      rw [hst, hfill]
      exact .absent
    · rintro s i s' ⟨htracks, hdiscarded⟩ - hs
      refine ⟨tracks_step hs htracks, ?_⟩
      obtain rfl := Option.some.inj hs
      exact discarded_pass { s with st := { s.st with live := i.live } } i.clean htracks hdiscarded
  obtain ⟨htracks, hdiscarded⟩ := hinv
  have hfill : ∀ key f, s.fill key = some f → f.resent.length ≤ numRetries ∧ f.Paced := by
    intro key f hf
    have hkey := htracks key
    rw [hf] at hkey
    generalize mapGet s.st.receiveBuffer key = stored at hkey
    cases hkey with
    | held _ hcount _ hpaced => exact ⟨by omega, hpaced⟩
  refine ⟨?_, fun key f hf => (hfill key f hf).1, fun key f hf => (hfill key f hf).2, hdiscarded⟩
  intro key b hb hoccupied
  have hkey := htracks key
  rw [hb] at hkey
  generalize s.fill key = history at hkey
  cases hkey with
  | free hfree => simp [hfree] at hoccupied
  | held => exact ⟨_, rfl⟩

/-- A call in which the clock stands at `now`. -/
def callAt (now : Timeval) (recv : RecvOutcome) : Reception where
  live := [(0, ⟨0, 0⟩)]
  bufferSize := 8
  clean := { CleanInput.still with currentTime := fun _ => now }
  recv := recv
  rest := { ReceiveInput.still with timestamp := now }

/-- A DATA whose SYN_ACK never comes, in calls 30 ms apart. -/
theorem retries_paced_unanswered :
    ∃ s : Watched, s.discarded = [(some ⟨⟨0, 0⟩, [⟨0, 30000⟩, ⟨0, 60000⟩]⟩, ⟨0, 90000⟩)] ∧
      RetriesPaced s ∧ ∀ i,
        (s.step i).map Watched.st = some (receiveAndProcessMessage s.st i).1 ∧
        (cleanReceiveBuffer { s.st with live := i.live } i.clean).2 =
          acksSent { s.st with live := i.live } i.clean := by
  obtain ⟨s, hs, hdiscarded⟩ := Option.map_eq_some_iff.1
    (show (exec step (fun _ _ => True)
        ⟨RmpState.initial (blankBuffer ⟨0, 0⟩), fun _ => none, []⟩
        [callAt ⟨0, 0⟩ (.datagram ⟨1, 1⟩ ⟨.data, 7, [104]⟩), callAt ⟨0, 30000⟩ .timeout,
          callAt ⟨0, 60000⟩ .timeout, callAt ⟨0, 90000⟩ .timeout]).map Watched.discarded =
      some [(some ⟨⟨0, 0⟩, [⟨0, 30000⟩, ⟨0, 60000⟩]⟩, ⟨0, 90000⟩)] by decide)
  exact ⟨s, hdiscarded, retries_paced (reach_exec _ (.start ⟨⟨_, rfl⟩, rfl, rfl⟩) hs)⟩

end Watched

end Dchat.RMP
