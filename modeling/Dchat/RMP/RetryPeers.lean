import Dchat.RMP.Retries

/-!
# Where a retried ACK goes

A receive buffer does not hold the address of its peer, but a pointer to the variable
`recv_src_address` of the call that read its DATA. In the wait loop of `attemptSend` every datagram
is received into the same variable, so an ACK that is sent again goes to the source of the datagram
read last.

* `right_iff_senderLast`: in a round of the loop, all ACKs sent again go to the senders of their
  messages exactly if these are the sources of the datagram read last.
* `retried_right`: so they do in every run of the loop all of whose rounds are of this kind.
-/

namespace Dchat.RMP

open Structures Runs

/-- A process in a wait loop of `attemptSend`, with the source of the datagram read last in the
loop, whether the buffer of a key was filled in the loop, the source and the id of the DATA in the
buffer of a key, and the ACKs sent again, each with the source and the id of the DATA it answers. -/
structure WaitLoop where
  st : RmpState
  last : Option RmpAddress
  here : ℤ → Bool
  origin : ℤ → RmpAddress × MessageId
  retried : List ((RmpAddress × MessageId) × (RmpAddress × Datagram))

namespace WaitLoop

/-- The loop has just been entered. -/
def Initial (s : WaitLoop) : Prop :=
  (∃ st o frame, s.st = (attemptSend st o).state ∧ s.st.call = .sending frame) ∧ s.last = none ∧
    (∀ key, s.here key = false) ∧
    (∀ key b, mapGet s.st.receiveBuffer key = some b → b.occupied = true →
      b.id = (s.origin key).2) ∧
    s.retried = []

/-- The ACKs that a pass over the receive map sends again. -/
def retries (s : WaitLoop) (c : CleanInput) :
    List ((RmpAddress × MessageId) × (RmpAddress × Datagram)) :=
  s.st.receiveBuffer.pairs.flatMap fun p =>
    (s.st.maintain c p.1 p.2).2.2.map fun q => (s.origin p.1, q)

/-- These are all that the pass sends. -/
theorem retries_snd (s : WaitLoop) (c : CleanInput) :
    (s.retries c).map Prod.snd = (cleanReceiveBuffer s.st c).2 := by
  simp only [retries, cleanReceiveBuffer, List.map_flatMap, List.map_map]
  congr 1
  funext p
  exact List.map_id _

/-- The source of a datagram, if one is received. -/
def source : RecvOutcome → Option RmpAddress
  | .datagram src _ | .runt src _ _ => some src
  | .timeout | .error => none

/-- The key of the buffer that a datagram fills, and the id of its message. -/
def filled : RecvOutcome → Option (RmpAddress × MessageId)
  | .datagram src d => if d.type = .data then some (src, d.id) else none
  | _ => none

/-- A round of the loop up to `recvfrom`, or from `recvfrom` on. A round that sends the DATA again
enters another loop. -/
def step (s : WaitLoop) (i : Input) : Option WaitLoop :=
  match i with
  | .loop (some now) c _ =>
    if intervalGreaterThanValue s.st.sendBuffer.timestamp now ackTimeoutUsec then none
    else (rmpStep s.st i).map fun r => { s with st := r.state, retried := s.retried ++ s.retries c }
  | .recvfrom r _ =>
    (rmpStep s.st i).map fun result => { s with
      st := result.state
      last := (source r).or s.last
      here := fun key => s.here key || (filled r).any fun p => rmpAddressHash p.1 = key
      origin := fun key => ((filled r).filter fun p => rmpAddressHash p.1 = key).getD (s.origin key) }
  | _ => none

/-- An ACK is sent again to the source of the DATA, with its id. -/
def Right (p : (RmpAddress × MessageId) × (RmpAddress × Datagram)) : Prop :=
  p.2 = (p.1.1, ⟨.ack, p.1.2, []⟩)

instance : DecidablePred Right := fun p => inferInstanceAs (Decidable (p.2 = _))

/-- Whenever the ACK of a buffer filled in the loop is sent again, the datagram read last came from
the sender of its DATA. (The variable that another buffer points to is gone; it is asked to hold the
address still.) -/
def SenderLast (s : WaitLoop) : Input → Prop
  | .loop _ c _ => ∀ p ∈ s.st.receiveBuffer.pairs, Due p.2 (c.currentTime p.1) →
      c.sendOk p.1 = true →
      if s.here p.1 then s.last = some (s.origin p.1).1
      else s.st.address c.stack p.2.peer = (s.origin p.1).1
  | _ => True

instance (s : WaitLoop) : DecidablePred s.SenderLast
  | .loop _ c _ => inferInstanceAs (Decidable (∀ p ∈ s.st.receiveBuffer.pairs,
      Due p.2 (c.currentTime p.1) → c.sendOk p.1 = true →
        if s.here p.1 then s.last = some (s.origin p.1).1
        else s.st.address c.stack p.2.peer = (s.origin p.1).1))
  | .rmpListen _ _ _ => inferInstanceAs (Decidable True)
  | .rmpSendTo _ _ _ _ => inferInstanceAs (Decidable True)
  | .recvfrom _ _ => inferInstanceAs (Decidable True)

/-- What holds in the loop, with `cell` its variable `recv_src_address`. -/
structure Inside (s : WaitLoop) (cell : Cell) : Prop where
  /-- The variable holds the source of the datagram read last. -/
  variable_eq : ∃ a rest, s.st.live = (cell, a) :: rest ∧ ∀ src, s.last = some src → a = src
  /-- The ids of the stored messages are those of their DATA. -/
  id_eq : ∀ key b, mapGet s.st.receiveBuffer key = some b → b.occupied = true →
    b.id = (s.origin key).2
  /-- A buffer filled in the loop points to the variable. -/
  peer_eq : ∀ key b, mapGet s.st.receiveBuffer key = some b → b.occupied = true →
    s.here key = true → b.peer = cell
  here_last : ∀ key, s.here key = true → s.last ≠ none

/-! ## One round -/

theorem mem_retries {s : WaitLoop} {c : CleanInput}
    {q : (RmpAddress × MessageId) × (RmpAddress × Datagram)} :
    q ∈ s.retries c ↔ ∃ p ∈ s.st.receiveBuffer.pairs, Due p.2 (c.currentTime p.1) ∧
      c.sendOk p.1 = true ∧
      q = (s.origin p.1, (s.st.address c.stack p.2.peer, ⟨.ack, p.2.id, []⟩)) := by
  simp only [retries, List.mem_flatMap, RmpState.maintain, maintainBufferElement_out, List.mem_map]
  refine exists_congr fun p => and_congr_right fun _ => ?_
  by_cases hsent : Due p.2 (c.currentTime p.1) ∧ c.sendOk p.1 = true
  · simp [hsent, eq_comm]
  · rw [if_neg hsent]
    simpa using fun hdue hok => absurd ⟨hdue, hok⟩ hsent

/-- The variable of the loop holds the source of the datagram read last. -/
theorem Inside.address {s : WaitLoop} {cell : Cell} (h : s.Inside cell) {src : RmpAddress}
    (hlast : s.last = some src) (stack : Cell → RmpAddress) : s.st.address stack cell = src := by
  obtain ⟨a, rest, hlive, ha⟩ := h.variable_eq
  rw [RmpState.address, hlive, List.find?_cons]
  simp [ha src hlast]

/-- **A round of the loop** sends all ACKs again to the senders of their messages exactly if the
datagram read last came from them. -/
theorem right_iff_senderLast {s : WaitLoop} {cell : Cell} (h : s.Inside cell)
    (now : Option Timeval) (c : CleanInput) (o : SendInput) :
    (∀ q ∈ s.retries c, Right q) ↔ s.SenderLast (.loop now c o) := by
  -- what `Right` asks of the retry of one buffer
  have hright : ∀ p ∈ s.st.receiveBuffer.pairs, Due p.2 (c.currentTime p.1) →
      (Right (s.origin p.1, (s.st.address c.stack p.2.peer, ⟨.ack, p.2.id, []⟩)) ↔
        if s.here p.1 then s.last = some (s.origin p.1).1
        else s.st.address c.stack p.2.peer = (s.origin p.1).1) := by
    intro p hp hdue
    have hb := mapGet_eq_some.2 hp
    have hid := h.id_eq p.1 p.2 hb hdue.2.2
    have hpeer : Right (s.origin p.1, (s.st.address c.stack p.2.peer, ⟨.ack, p.2.id, []⟩)) ↔
        s.st.address c.stack p.2.peer = (s.origin p.1).1 := by
      simp [Right, hid]
    rw [hpeer]
    cases hhere : s.here p.1 with
    | false => rfl
    | true =>
      obtain ⟨src, hsrc⟩ := Option.ne_none_iff_exists'.1 (h.here_last p.1 hhere)
      rw [h.peer_eq p.1 p.2 hb hdue.2.2 hhere, h.address hsrc, hsrc, if_pos rfl,
        Option.some.injEq]
  constructor
  · intro hall p hp hdue hok
    exact (hright p hp hdue).1 (hall _ (mem_retries.2 ⟨p, hp, hdue, hok, rfl⟩))
  · intro hlast q hq
    obtain ⟨p, hp, hdue, hok, rfl⟩ := mem_retries.1 hq
    exact (hright p hp hdue).2 (hlast p hp hdue hok)

/-- A pass keeps the ids and the pointers of the stored messages. -/
theorem of_mapGet_clean {st : RmpState} {c : CleanInput} {key : ℤ} {b : MessageHoldingBuffer Cell}
    (h : mapGet (cleanReceiveBuffer st c).1 key = some b) (hb : b.occupied = true) :
    ∃ b₀, mapGet st.receiveBuffer key = some b₀ ∧ b₀.occupied = true ∧ b.id = b₀.id ∧
      b.peer = b₀.peer := by
  rw [mapGet_cleanReceiveBuffer, Option.bind_eq_some_iff] at h
  obtain ⟨b₀, hb₀, h⟩ := h
  refine ⟨b₀, hb₀, ?_⟩
  split at h
  · obtain rfl := Option.some.inj h
    exact ⟨hb, rfl, rfl⟩
  · split at h
    · cases h
    · obtain rfl := Option.some.inj h
      exact ⟨hb, rfl, rfl⟩

theorem Inside.pass {s : WaitLoop} {cell : Cell} (h : s.Inside cell) (c : CleanInput) (call : Call)
    (retried : List ((RmpAddress × MessageId) × (RmpAddress × Datagram))) :
    Inside { s with
      st := { s.st with receiveBuffer := (cleanReceiveBuffer s.st c).1, call := call }
      retried := retried } cell where
  variable_eq := h.variable_eq
  id_eq := by
    intro key b hb hoccupied
    obtain ⟨b₀, hb₀, hoccupied₀, hid, -⟩ := of_mapGet_clean hb hoccupied
    rw [hid]
    exact h.id_eq key b₀ hb₀ hoccupied₀
  peer_eq := by
    intro key b hb hoccupied hhere
    obtain ⟨b₀, hb₀, hoccupied₀, -, hpeer⟩ := of_mapGet_clean hb hoccupied
    rw [hpeer]
    exact h.peer_eq key b₀ hb₀ hoccupied₀ hhere
  here_last := h.here_last

/-- A buffer that is occupied was not made just now. -/
theorem mapGet_of_occupied {m : ReceiveBuffer} {src : RmpAddress}
    {fresh : MessageHoldingBuffer Cell}
    (h : (getReceiveBufferFor m src fresh).1.occupied = true) :
    mapGet m (rmpAddressHash src) = some (getReceiveBufferFor m src fresh).1 := by
  unfold getReceiveBufferFor at *
  dsimp only at *
  cases hb : mapGet m (rmpAddressHash src) with
  | some b => rfl
  | none =>
    rw [hb] at h
    cases h

/-- A buffer is occupied after a datagram if it was before, or if the datagram filled it. -/
theorem of_mapGet_process {st : RmpState} {cell : Cell} {src : RmpAddress} {d : Datagram} {n : ℕ}
    {o : ReceiveInput} {key : ℤ} {b : MessageHoldingBuffer Cell}
    (h : mapGet (processMessage st cell src d n o).receiveBuffer key = some b)
    (hb : b.occupied = true) :
    (d.type = .data ∧ key = rmpAddressHash src ∧ b.id = d.id ∧ b.peer = cell) ∨
      (¬ (d.type = .data ∧ key = rmpAddressHash src) ∧ mapGet st.receiveBuffer key = some b) := by
  rw [mapGet_processMessage] at h
  split at h
  · next hkey =>
    obtain ⟨rfl, htype⟩ := hkey
    obtain rfl := Option.some.inj h
    by_cases hdata : d.type = .data
    · rw [processBuffer, if_pos hdata]
      exact .inl ⟨hdata, rfl, rfl, rfl⟩
    · refine .inr ⟨fun hd => hdata hd.1, ?_⟩
      rw [processBuffer, if_neg hdata] at hb ⊢
      split at hb
      · cases hb
      · next hkept =>
        rw [if_neg hkept]
        exact mapGet_of_occupied hb
  · next hkey =>
    exact .inr ⟨fun hd => hkey ⟨hd.2, .inl hd.1⟩, h⟩

/-- What `recvfrom` leaves of the loop: it is left, or the source is written to its variable and the
datagram is processed. -/
theorem attemptSendReceive_inside {st : RmpState} {cell : Cell} {a : RmpAddress}
    {rest : List (Cell × RmpAddress)} (hlive : st.live = (cell, a) :: rest) (frame : SendFrame)
    (r : RecvOutcome) (o : ReceiveInput) :
    let s := (attemptSendReceive st frame r o).state
    s.call = .idle ∨ ((∃ frame', s.call = .sending frame') ∧
      s.live = (cell, (source r).getD a) :: rest ∧
      ∀ key b, mapGet s.receiveBuffer key = some b → b.occupied = true →
        (∃ p, filled r = some p ∧ rmpAddressHash p.1 = key ∧ b.id = p.2 ∧ b.peer = cell) ∨
          ((∀ p, filled r = some p → rmpAddressHash p.1 ≠ key) ∧
            mapGet st.receiveBuffer key = some b)) := by
  intro s
  have hne : st.live ≠ [] := by simp [hlive]
  rcases r with ⟨src, d⟩ | ⟨src, d, length⟩ | _ | _
  · have hs : s = (attemptSendReceive st frame (.datagram src d) o).state := rfl
    have hcell : st.recvSrcAddress.1 = cell := by simp [RmpState.recvSrcAddress, hlive]
    rw [attemptSendReceive_datagram st frame src d o hne, hcell] at hs
    dsimp only at hs
    split at hs
    · exact .inl (by rw [hs]; rfl)
    · split at hs
      · refine .inr ⟨⟨_, by rw [hs]⟩, by rw [hs]; simp [hlive, writeSrcAddress, source], ?_⟩
        intro key b hb hoccupied
        rw [hs] at hb
        obtain ⟨htype, hkey, hid, hpeer⟩ | ⟨hnot, hb⟩ := of_mapGet_process hb hoccupied
        · exact .inl ⟨(src, d.id), if_pos htype, hkey.symm, hid, hpeer⟩
        · refine .inr ⟨fun p hp hkey => hnot ?_, hb⟩
          simp only [filled, Option.ite_none_right_eq_some, Option.some.injEq] at hp
          obtain ⟨htype, rfl⟩ := hp
          exact ⟨htype, hkey.symm⟩
      · exact .inl (by rw [hs]; rfl)
  · have hs : s = (attemptSendReceive st frame (.runt src d length) o).state := rfl
    rw [attemptSendReceive_runt st frame src d length o hne] at hs
    dsimp only at hs
    split at hs
    · exact .inl (by rw [hs]; rfl)
    · split at hs
      · refine .inr ⟨⟨_, by rw [hs]⟩, by rw [hs]; simp [hlive, writeSrcAddress, source], ?_⟩
        intro key b hb _
        rw [hs] at hb
        exact .inr ⟨fun p hp => (by cases hp), hb⟩
      · exact .inl (by rw [hs]; rfl)
  · have hs : s = (attemptSendReceive st frame .timeout o).state := rfl
    rw [attemptSendReceive_timeout] at hs
    split at hs
    · refine .inr ⟨⟨_, by rw [hs]⟩, by rw [hs]; exact hlive, ?_⟩
      intro key b hb _
      rw [hs] at hb
      exact .inr ⟨fun p hp => (by cases hp), hb⟩
    · exact .inl (by rw [hs]; rfl)
  · exact .inl rfl

/-! ## Runs of the loop -/

/-- The process has left the loop, or is in it. -/
def Looping (s : WaitLoop) : Prop :=
  s.st.call = .idle ∨
    ((∃ frame, s.st.call = .sending frame ∨ s.st.call = .polling frame) ∧ ∃ cell, s.Inside cell)

theorem looping_initial {s : WaitLoop} (h : s.Initial) : s.Looping := by
  obtain ⟨⟨st, o, frame, hst, hcall⟩, hlast, hhere, hid, -⟩ := h
  refine .inr ⟨⟨frame, .inl hcall⟩, st.nextCell, ?_, hid, ?_, ?_⟩
  · have hlive : s.st.live = (st.nextCell, o.recvSrcAddress) :: st.live := by
      rw [hst] at hcall ⊢
      unfold attemptSend at hcall ⊢
      dsimp only at hcall ⊢
      split at hcall
      · cases hcall
      · next hset =>
        rw [if_neg hset]
        cases htime : o.timestamp with
        | none =>
          rw [htime] at hcall
          cases hcall
        | some t => rfl
    refine ⟨_, _, hlive, fun src hsrc => ?_⟩
    rw [hlast] at hsrc
    cases hsrc
  · intro key b _ _ h
    rw [hhere] at h
    cases h
  · intro key h
    rw [hhere] at h
    cases h

/-- A round up to `recvfrom`. -/
theorem step_loop {s s' : WaitLoop} {now : Option Timeval} {c : CleanInput} {o : SendInput}
    (h : s.step (.loop now c o) = some s') (hs : s.Looping) :
    (∃ cell, s.Inside cell) ∧ s'.Looping ∧ s'.retried = s.retried ++ s.retries c := by
  obtain hcall | ⟨⟨frame, hcall⟩, cell, hinside⟩ := hs
  · cases now <;> simp [step, rmpStep, hcall] at h
  cases now with
  | none => simp [step] at h
  | some now =>
    simp only [step, Option.ite_none_left_eq_some, Option.map_eq_some_iff] at h
    obtain ⟨htime, r, hr, rfl⟩ := h
    obtain hcall | hcall := hcall
    · rw [rmpStep, hcall] at hr
      obtain rfl := Option.some.inj hr
      have hround := attemptSendLoop_early s.st frame c o htime
      refine ⟨⟨cell, hinside⟩, .inr ⟨⟨frame, .inr ?_⟩, cell, ?_⟩, rfl⟩
      · rw [hround]
      · exact hround ▸ hinside.pass c _ _
    · simp [rmpStep, hcall] at hr

/-- A round from `recvfrom` on. -/
theorem step_recvfrom {s s' : WaitLoop} {r : RecvOutcome} {o : ReceiveInput}
    (h : s.step (.recvfrom r o) = some s') (hs : s.Looping) :
    s'.Looping ∧ s'.retried = s.retried := by
  simp only [step, Option.map_eq_some_iff] at h
  obtain ⟨result, hr, rfl⟩ := h
  refine ⟨?_, rfl⟩
  obtain hcall | ⟨⟨frame, hcall | hcall⟩, cell, hinside⟩ := hs
  · simp [rmpStep, hcall] at hr
  · simp [rmpStep, hcall] at hr
  rw [rmpStep, hcall] at hr
  obtain rfl := Option.some.inj hr
  obtain ⟨a, rest, hlive, ha⟩ := hinside.variable_eq
  obtain hidle | ⟨⟨frame', hsending⟩, hlive', hbuffers⟩ := attemptSendReceive_inside hlive frame r o
  · exact .inl hidle
  refine .inr ⟨⟨frame', .inl hsending⟩, cell, ⟨_, rest, hlive', ?_⟩, ?_, ?_, ?_⟩
  · intro src hsrc
    cases hread : source r with
    | none =>
      rw [hread, Option.none_or] at hsrc
      exact ha src hsrc
    | some src' =>
      rw [hread, Option.some_or] at hsrc
      exact Option.some.inj hsrc
  · intro key b hb hoccupied
    obtain ⟨p, hp, hkey, hid, -⟩ | ⟨hother, hb⟩ := hbuffers key b hb hoccupied
    · subst hkey
      simp only [hp, Option.filter_some, decide_true, if_true, Option.getD_some, hid]
    · have hnone : ((filled r).filter fun p => rmpAddressHash p.1 = key) = none := by
        simpa [Option.filter_eq_none_iff] using hother
      simpa only [hnone, Option.getD_none] using hinside.id_eq key b hb hoccupied
  · intro key b hb hoccupied hhere
    obtain ⟨p, -, -, -, hpeer⟩ | ⟨hother, hb⟩ := hbuffers key b hb hoccupied
    · exact hpeer
    · refine hinside.peer_eq key b hb hoccupied ?_
      obtain h | h := Bool.or_eq_true_iff.1 hhere
      · exact h
      · obtain ⟨p, hp, hkey⟩ := (Option.any_eq_true _ _).1 h
        exact absurd (of_decide_eq_true hkey) (hother p hp)
  · intro key hhere
    obtain h | h := Bool.or_eq_true_iff.1 hhere
    · cases hread : source r with
      | none => exact hinside.here_last key h
      | some src => exact Option.some_ne_none _
    · obtain ⟨p, hp, -⟩ := (Option.any_eq_true _ _).1 h
      rcases r with ⟨src, d⟩ | ⟨src, d, length⟩ | _ | _
      · exact Option.some_ne_none _
      · cases hp
      · cases hp
      · cases hp

/-- **Retried ACKs go to the senders they acknowledge**, in every run of the loop in which the
datagram read last always came from the sender of the message whose ACK is sent again. -/
theorem retried_right {s : WaitLoop} (h : Reach step SenderLast Initial s) :
    ∀ p ∈ s.retried, Right p := by
  have hinv : s.Looping ∧ ∀ p ∈ s.retried, Right p := by
    refine h.invariant (I := fun s => s.Looping ∧ ∀ p ∈ s.retried, Right p) ?_ ?_
    · intro s h0
      refine ⟨looping_initial h0, ?_⟩
      rw [h0.2.2.2.2]
      exact fun p hp => absurd hp List.not_mem_nil
    · rintro s i s' ⟨hloop, hright⟩ hok hs
      cases i with
      | rmpListen len a c => simp [step] at hs
      | rmpSendTo dest buffer newId o => simp [step] at hs
      | loop now c o =>
        obtain ⟨⟨cell, hinside⟩, hloop', hretried⟩ := step_loop hs hloop
        refine ⟨hloop', fun p hp => ?_⟩
        rw [hretried] at hp
        obtain hp | hp := List.mem_append.1 hp
        · exact hright p hp
        · exact (right_iff_senderLast hinside now c o).2 hok p hp
      | recvfrom r o =>
        obtain ⟨hloop', hretried⟩ := step_recvfrom hs hloop
        exact ⟨hloop', hretried ▸ hright⟩
  exact hinv.2

/-- A call of `RMP_sendTo` has entered its wait loop. -/
def entered : WaitLoop where
  st := (rmpSendTo (RmpState.initial (blankBuffer ⟨0, 0⟩)) ⟨9, 1⟩ [104, 105] 7 .still).state
  last := none
  here := fun _ => false
  origin := fun _ => (⟨0, 0⟩, 0)
  retried := []

theorem initial_entered : entered.Initial :=
  ⟨⟨_, _, _, rfl, rfl⟩, rfl, fun _ => rfl, fun _ _ h => (by cases h), rfl⟩

/-- A round of the loop in which the clock passes the timers of the receive buffers. -/
def lateRound : Input :=
  .loop (some ⟨0, 20000⟩) { CleanInput.still with currentTime := fun _ => ⟨0, 20001⟩ } .still

theorem retried_right_alone :
    ∃ s : WaitLoop, s.retried = [((⟨1, 1⟩, 5), (⟨1, 1⟩, ⟨.ack, 5, []⟩))] ∧
      ∀ p ∈ s.retried, Right p := by
  obtain ⟨s, hs, hretried⟩ := Option.map_eq_some_iff.1
    (show (exec step SenderLast entered [.wait, .receive ⟨1, 1⟩ .data 5 [104], lateRound]).map
        WaitLoop.retried = some [((⟨1, 1⟩, 5), (⟨1, 1⟩, ⟨.ack, 5, []⟩))] by decide)
  exact ⟨s, hretried, retried_right (reach_exec _ (.start initial_entered) hs)⟩

/-- Not in every run: when two peers have sent a DATA, the ACK for the first goes to the second. -/
theorem not_retried_right :
    ¬ ∀ s, Reach step (fun _ _ => True) Initial s → ∀ p ∈ s.retried, Right p := by
  intro h
  obtain ⟨s, hs, hretried⟩ := Option.map_eq_some_iff.1
    (show (exec step (fun _ _ => True) entered
        [.wait, .receive ⟨1, 1⟩ .data 5 [104], .wait, .receive ⟨2, 1⟩ .data 6 [105],
          lateRound]).map WaitLoop.retried =
      some [((⟨2, 1⟩, 6), (⟨2, 1⟩, ⟨.ack, 6, []⟩)), ((⟨1, 1⟩, 5), (⟨2, 1⟩, ⟨.ack, 5, []⟩))] by decide)
  have hright := h s (reach_exec _ (.start initial_entered) hs)
  rw [hretried] at hright
  revert hright
  decide

end WaitLoop

end Dchat.RMP
