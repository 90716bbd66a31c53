import Dchat.RMP.Retries

/-!
# The result of `RMP_sendTo`

`RMP_sendTo` returns what the latest `sendto` of its DATA returned, when its wait loop has been left
on an ACK from the destination with the id of the message. The loop looks for the ACK in three local
variables. A round whose `recvfrom` has timed out writes none of them, and a datagram shorter than
its header is written to them although it is not processed.

* `Truthful` is what the result should say about the call, told by a history of the call.
* `truthful_iff`: after any sequence of inputs it does exactly if no round ends the call
  on something else than the ACK, on the ACK with a failed `sendto`, or on the timer with
  a DATA not sent.
-/

namespace Dchat.RMP

open Structures Runs

/-- A transmission: whether `sendto` succeeded, the time read after it, and the time read last by
the wait loop since. -/
structure Attempt where
  sent : Bool
  start : Timeval
  latest : Timeval
  deriving DecidableEq

/-- A call of `RMP_sendTo` with its history: the message, the DATA handed to the network, the
transmissions (the latest first), whether an ACK of the message has been processed, and the
result. -/
structure SendCall where
  st : RmpState
  message : Outgoing
  data : Output
  attempts : List Attempt
  acked : Bool
  result : Option ℤ

namespace SendCall

/-- The DATA among the datagrams of a step. -/
def dataOf (out : Output) : Output := out.filter fun p => p.2.type = .data

/-- The result of `RMP_sendTo`, when a step returns from it. -/
def resultOf (r : StepResult) : Option ℤ :=
  match r.ret with
  | some (.sendTo result) => some result
  | _ => none

/-- The transmission that the first part of `attemptSend` starts, unless it fails. -/
def begun (o : SendInput) : List Attempt :=
  if o.setsockoptOk then (o.timestamp.map fun t => ⟨o.sendOk, t, t⟩).toList else []

/-- The wait loop has read the clock. -/
def tick (now : Timeval) : List Attempt → List Attempt
  | [] => []
  | a :: attempts => { a with latest := now } :: attempts

/-- `RMP_sendTo` is called. -/
def start (st : RmpState) (destination : RmpAddress) (buffer : Bytes) (newId : MessageId)
    (o : SendInput) : SendCall :=
  let r := rmpSendTo st destination buffer newId o
  { st := r.state
    message := ⟨destination, newId, buffer⟩
    data := dataOf r.out
    attempts := begun o
    acked := false
    result := resultOf r }

/-- A call has just been made. -/
def Initial (s : SendCall) : Prop := ∃ st destination buffer newId o,
  s = start st destination buffer newId o

/-- The timer of the transmission has expired. -/
def TimedOut (s : SendCall) (now : Timeval) : Prop :=
  intervalGreaterThanValue s.st.sendBuffer.timestamp now ackTimeoutUsec = true

instance (s : SendCall) (now : Timeval) : Decidable (s.TimedOut now) :=
  inferInstanceAs (Decidable (_ = _))

/-- A source, a type and an id are those of an ACK of the message. -/
def Answers (s : SendCall) (src : RmpAddress) (type : MessageType) (id : MessageId) : Prop :=
  src = s.message.dest ∧ type = .ack ∧ id = s.message.id

instance (s : SendCall) (src : RmpAddress) (type : MessageType) (id : MessageId) :
    Decidable (s.Answers src type id) := inferInstanceAs (Decidable (_ ∧ _ ∧ _))

/-- An ACK of the message is processed: it is read and its SYN_ACK is sent. -/
def processes (s : SendCall) (r : RecvOutcome) (o : ReceiveInput) : Bool :=
  match r with
  | .datagram src d => decide (s.Answers src d.type d.id) && o.sendOk
  | _ => false

/-- A step of the process inside the call. -/
def step (s : SendCall) (i : Input) : Option SendCall :=
  if s.result.isSome then none
  else
    match i with
    | .loop now _ o => (rmpStep s.st i).map fun r => { s with
        st := r.state
        data := s.data ++ dataOf r.out
        attempts :=
          match now with
          | none => s.attempts
          | some now =>
            if s.TimedOut now ∧ s.st.sendBuffer.retriesRemaining ≠ 0 then
              begun o ++ tick now s.attempts
            else tick now s.attempts
        result := resultOf r }
    | .recvfrom outcome o => (rmpStep s.st i).map fun r => { s with
        st := r.state
        data := s.data ++ dataOf r.out
        acked := s.acked || s.processes outcome o
        result := resultOf r }
    | _ => none

/-- **The result of the call is true**, so far as there is one. -/
structure Truthful (s : SendCall) : Prop where
  data_length : s.data.length ≤ numRetries + 1
  /-- All DATA have the same id. -/
  data_eq : ∀ p ∈ s.data, p = (s.message.dest, s.message.datagram)
  length_iff : ∀ n, s.result = some n → (n = s.message.message.length ↔ s.acked = true)
  timeout : s.result = some rmpETimeout → s.acked = false ∧
    s.data.length = numRetries + 1 ∧ s.attempts.length = numRetries + 1 ∧
      ∀ a ∈ s.attempts, LongAfter a.start a.latest

/-- The latest DATA has been sent. -/
def lastSent (s : SendCall) : Bool := s.attempts.head?.any Attempt.sent

/-- What the local variables of the wait loop look like. -/
def LocalsAnswer (s : SendCall) : Prop :=
  match s.st.call with
  | .sending frame | .polling frame => s.Answers s.st.recvSrcAddress.2 frame.recvType frame.recvId
  | _ => False

instance (s : SendCall) : Decidable s.LocalsAnswer := by
  unfold LocalsAnswer
  cases s.st.call <;> infer_instance

/-- The step does not end the call with a false result: the timer does not expire for the last time
with a DATA not sent, an ACK of the message is not processed when the latest DATA was not sent or
the timeout of the socket cannot be reset, and nothing else is taken for an ACK of the message when
neither is the case. -/
def Undisturbed (s : SendCall) : Input → Prop
  | .loop (some now) _ _ => s.TimedOut now → s.st.sendBuffer.retriesRemaining = 0 →
      ∀ a ∈ s.attempts, a.sent = true
  | .recvfrom (.datagram src d) o => s.Answers src d.type d.id → o.sendOk = true →
      s.lastSent = true ∧ o.resetOk = true
  | .recvfrom (.runt src d length) o => s.Answers src d.type d.id → (length : ℤ) - 16 ≠ -1 →
      ¬ (s.lastSent = true ∧ o.resetOk = true)
  | .recvfrom .timeout o => s.LocalsAnswer → ¬ (s.lastSent = true ∧ o.resetOk = true)
  | _ => True

instance (s : SendCall) : DecidablePred s.Undisturbed
  | .loop (some _) _ _ => inferInstanceAs (Decidable (_ → _ → ∀ a ∈ s.attempts, _))
  | .loop none _ _ => inferInstanceAs (Decidable True)
  | .recvfrom (.datagram _ _) _ => inferInstanceAs (Decidable (_ → _ → _ ∧ _))
  | .recvfrom (.runt _ _ _) _ => inferInstanceAs (Decidable (_ → _ → ¬ (_ ∧ _)))
  | .recvfrom .timeout _ => inferInstanceAs (Decidable (_ → ¬ (_ ∧ _)))
  | .recvfrom .error _ => inferInstanceAs (Decidable True)
  | .rmpListen _ _ _ => inferInstanceAs (Decidable True)
  | .rmpSendTo _ _ _ _ => inferInstanceAs (Decidable True)

/-! ## Inside the call -/

/-- What holds until the call returns. -/
structure Open (s : SendCall) : Prop where
  result_eq : s.result = none
  acked_eq : s.acked = false
  call_eq : ∃ frame : SendFrame, (s.st.call = .sending frame ∨ s.st.call = .polling frame) ∧
    frame.numBytesSent = if s.lastSent then (s.message.message.length : ℤ) else -1
  live_ne : s.st.live ≠ []
  outgoing_eq : s.st.outgoing = s.message
  type_eq : s.st.sendBuffer.type = .data
  data_eq : s.data =
    List.replicate (s.attempts.countP Attempt.sent) (s.message.dest, s.message.datagram)
  count : s.attempts.length + s.st.sendBuffer.retriesRemaining = numRetries + 1
  timer : ∃ a attempts, s.attempts = a :: attempts ∧ a.start = s.st.sendBuffer.timestamp ∧
    ∀ b ∈ attempts, LongAfter b.start b.latest

/-- The result is true as long as there is none. -/
theorem Open.truthful {s : SendCall} (h : s.Open) : s.Truthful where
  data_length := by
    have hcount := h.count
    have hle := List.countP_le_length (p := Attempt.sent) (l := s.attempts)
    rw [h.data_eq, List.length_replicate]
    omega
  data_eq := by
    rw [h.data_eq]
    exact fun p hp => List.eq_of_mem_replicate hp
  length_iff := by simp [h.result_eq]
  timeout := by simp [h.result_eq]

/-- What it takes for the result to be true when the call ends, other than on the timer: the number
of bytes after an ACK, and -1 without one. -/
theorem Open.truthful_return {s : SendCall} (h : s.Open) (st : RmpState) (acked ok : Bool) :
    Truthful { s with
      st := st
      acked := acked
      result := some (if ok then (s.message.message.length : ℤ) else -1) } ↔
      (ok = true ↔ acked = true) := by
  have hlength : ((if ok then (s.message.message.length : ℤ) else -1) = s.message.message.length ↔
      ok = true) := by
    cases ok
    · simp only [Bool.false_eq_true, if_false, iff_false]
      omega
    · simp
  constructor
  · intro ht
    exact hlength.symm.trans (ht.length_iff _ rfl)
  · intro hok
    refine ⟨h.truthful.data_length, h.truthful.data_eq, fun n hn => ?_, fun htimeout => ?_⟩
    · obtain rfl := Option.some.inj hn
      exact hlength.trans hok
    · have hn := Option.some.inj htimeout
      simp only [rmpETimeout] at hn
      cases ok
      · cases hn
      · rw [if_pos rfl] at hn
        omega

/-! ## One transmission -/

/-- The first part of `attemptSend` fails, or enters the wait loop. -/
theorem attemptSend_begun (st : RmpState) (o : SendInput) :
    (begun o = [] ∧ (attemptSend st o).ret = some (.sendTo (-1))) ∨
      ∃ t, begun o = [⟨o.sendOk, t, t⟩] ∧ (attemptSend st o).ret = none ∧
        (attemptSend st o).state = { st with
          sendBuffer := { st.sendBuffer with timestamp := t }
          live := (st.nextCell, o.recvSrcAddress) :: st.live
          nextCell := st.nextCell + 1
          call := .sending ⟨if o.sendOk then (st.sendBuffer.message.length : ℤ) else -1, o.recvType,
            o.recvId⟩ } := by
  cases hset : o.setsockoptOk with
  | false =>
    refine .inl ⟨by simp [begun, hset], ?_⟩
    simp only [attemptSend, hset, if_true]
    rfl
  | true =>
    cases htime : o.timestamp with
    | none =>
      refine .inl ⟨by simp [begun, hset, htime], ?_⟩
      simp only [attemptSend, hset, htime, Bool.true_eq_false, if_false]
      rfl
    | some t =>
      refine .inr ⟨t, by simp [begun, hset, htime], ?_⟩
      simp only [attemptSend, hset, htime, Bool.true_eq_false, if_false]
      refine ⟨trivial, ?_⟩
      cases o.sendOk <;> rfl

/-- The DATA of a transmission. -/
theorem dataOf_attemptSend {st : RmpState} {m : Outgoing} (hm : st.outgoing = m)
    (htype : st.sendBuffer.type = .data) (o : SendInput) :
    dataOf (attemptSend st o).out = if o.sendOk then [(m.dest, m.datagram)] else [] := by
  have hout : (attemptSend st o).out = attemptOutput st o := by
    obtain ⟨hout, -⟩ | ⟨-, occupied, hout⟩ := attemptSend_cases st o htype
    · exact hout
    · rw [hout]
      rfl
  subst hm
  rw [hout, attemptOutput]
  cases o.sendOk <;> simp [dataOf, sendRmpDatagram, htype, RmpState.outgoing, Outgoing.datagram]

/-- **A transmission** ends the call with an error, or goes on to the wait loop. -/
theorem open_attemptSend (st : RmpState) {m : Outgoing} {data : Output} {attempts : List Attempt}
    {acked : Bool} (hacked : acked = false) (hm : st.outgoing = m) (htype : st.sendBuffer.type = .data)
    (hdata : data = List.replicate (attempts.countP Attempt.sent) (m.dest, m.datagram))
    (hcount : attempts.length + st.sendBuffer.retriesRemaining = numRetries)
    (hlong : ∀ a ∈ attempts, LongAfter a.start a.latest) (o : SendInput) :
    let s : SendCall := ⟨(attemptSend st o).state, m, data ++ dataOf (attemptSend st o).out,
      begun o ++ attempts, acked, resultOf (attemptSend st o)⟩
    s.Open ∨ s.result.isSome = true ∧ s.Truthful := by
  intro s
  subst hacked
  have hout := dataOf_attemptSend hm htype o
  have hlength : m.message.length = st.sendBuffer.message.length := by rw [← hm]; rfl
  obtain ⟨hbegun, hret⟩ | ⟨t, hbegun, hret, hstate⟩ := attemptSend_begun st o
  · right
    have hresult : s.result = some (-1) := by simp only [s, resultOf, hret]
    refine ⟨by rw [hresult]; rfl, ?_, ?_, ?_, ?_⟩
    · have hle := List.countP_le_length (p := Attempt.sent) (l := attempts)
      have hone : (dataOf (attemptSend st o).out).length ≤ 1 := by
        rw [hout]
        cases o.sendOk <;> simp
      simp only [s, List.length_append, hdata, List.length_replicate]
      omega
    · intro p hp
      simp only [s, hdata, hout, List.mem_append] at hp
      obtain hp | hp := hp
      · exact List.eq_of_mem_replicate hp
      · cases hok : o.sendOk with
        | false => simp [hok] at hp
        | true => simpa [hok] using hp
    · intro n hn
      obtain rfl := Option.some.inj (hresult.symm.trans hn)
      exact iff_of_false (by omega) Bool.false_ne_true
    · intro htimeout
      cases hresult.symm.trans htimeout
  · left
    refine ⟨by simp only [s, resultOf, hret], rfl, ?_, ?_, ?_, ?_, ?_, ?_, ?_⟩
    · refine ⟨_, .inl (by simp only [s, hstate]; rfl), ?_⟩
      simp [s, lastSent, hbegun, hlength]
    · simp [s, hstate]
    · simp only [s, hstate]
      exact hm
    · simp only [s, hstate]
      exact htype
    · simp only [s, hdata, hout, hbegun, List.singleton_append, List.countP_cons]
      cases o.sendOk <;> simp [List.replicate_succ']
    · simp only [s, hbegun, hstate, List.singleton_append, List.length_cons]
      omega
    · exact ⟨_, attempts, by simp only [s, hbegun]; rfl, by simp only [s, hstate], hlong⟩

/-! ## One round of the wait loop -/

/-- The sending of ACKs is no sending of DATA. -/
theorem dataOf_cleanReceiveBuffer (st : RmpState) (c : CleanInput) :
    dataOf (cleanReceiveBuffer st c).2 = [] := by
  rw [dataOf, List.filter_eq_nil_iff]
  intro q hq
  simp only [cleanReceiveBuffer, List.mem_flatMap, RmpState.maintain, maintainBufferElement_out] at hq
  obtain ⟨p, -, hq⟩ := hq
  split at hq
  · obtain rfl := List.mem_singleton.1 hq
    simp
  · cases hq

theorem dataOf_processMessage (st : RmpState) (cell : Cell) (src : RmpAddress) (d : Datagram)
    (n : ℕ) (o : ReceiveInput) : dataOf (processMessage st cell src d n o).out = [] := by
  cases ht : d.type with
  | data =>
    rw [(processMessage_data st cell src d n o ht).2.1]
    cases o.sendOk <;> rfl
  | ack =>
    rw [(processMessage_ack st cell src d n o ht).2.1]
    cases o.sendOk <;> rfl
  | synAck =>
    simp only [processMessage, ht]
    split <;> rfl
  | other value => simp [processMessage, ht, dataOf]

/-- An ACK whose SYN_ACK cannot be sent is an error. -/
theorem processMessage_ack_status {d : Datagram} (ht : d.type = .ack) (st : RmpState) (cell : Cell)
    (src : RmpAddress) (n : ℕ) (o : ReceiveInput) :
    (processMessage st cell src d n o).status = -1 ↔ o.sendOk = false := by
  refine ⟨(processMessage_ack st cell src d n o ht).2.2.2, fun hok => ?_⟩
  simp [processMessage, ht, hok, sendRmpDatagram]

/-- The call goes on after a round that has left the message and the timer alone. -/
theorem Open.round {s : SendCall} (h : s.Open) (st : RmpState) {frame frame' : SendFrame}
    (hframe : s.st.call = .sending frame ∨ s.st.call = .polling frame)
    (hcall : st.call = .sending frame' ∨ st.call = .polling frame')
    (hframe' : frame'.numBytesSent = frame.numBytesSent) (hlive : st.live ≠ [])
    (hbuffer : ∃ occupied, st.sendBuffer = { s.st.sendBuffer with occupied := occupied }) :
    Open { s with st := st, result := none } := by
  obtain ⟨occupied, hbuffer⟩ := hbuffer
  obtain ⟨frame₀, hframe₀, hsent⟩ := h.call_eq
  have heq : frame₀ = frame := by
    obtain h₁ | h₁ := hframe₀ <;> obtain h₂ | h₂ := hframe <;> rw [h₁] at h₂ <;> cases h₂ <;> rfl
  refine ⟨rfl, h.acked_eq, ⟨frame', hcall, ?_⟩, hlive, ?_, ?_, h.data_eq, ?_, ?_⟩
  · rw [hframe', ← heq]
    exact hsent
  · rw [← h.outgoing_eq, RmpState.outgoing, RmpState.outgoing, hbuffer]
  · rw [hbuffer]
    exact h.type_eq
  · rw [hbuffer]
    exact h.count
  · rw [hbuffer]
    exact h.timer

/-- The call goes on after the clock has been read. -/
theorem Open.tick {s : SendCall} (h : s.Open) (now : Timeval) :
    Open { s with attempts := tick now s.attempts } := by
  obtain ⟨a, attempts, hattempts, hstart, hlong⟩ := h.timer
  obtain ⟨frame, hframe, hsent⟩ := h.call_eq
  have hdata := h.data_eq
  have hcount := h.count
  simp only [lastSent, hattempts, List.countP_cons, List.length_cons] at hsent hdata hcount
  simp only [hattempts, SendCall.tick]
  refine ⟨h.result_eq, h.acked_eq, ⟨frame, hframe, hsent⟩, h.live_ne, h.outgoing_eq, h.type_eq, ?_,
    hcount, _, attempts, rfl, hstart, hlong⟩
  rw [List.countP_cons]
  exact hdata

/-- When the timer has expired, the latest transmission too has gone without an ACK for
`ACK_TIMEOUT_USEC`. -/
theorem Open.long_tick {s : SendCall} (h : s.Open) {now : Timeval} (htime : s.TimedOut now) :
    ∀ a ∈ SendCall.tick now s.attempts, LongAfter a.start a.latest := by
  obtain ⟨a, attempts, hattempts, hstart, hlong⟩ := h.timer
  rw [hattempts, SendCall.tick]
  intro b hb
  obtain rfl | hb := List.mem_cons.1 hb
  · exact longAfter_of_greater (hstart ▸ htime)
  · exact hlong b hb

/-- When the call ends on the timer, all that can be false is that every DATA was sent. -/
theorem Open.truthful_timeout {s : SendCall} (h : s.Open) (st : RmpState)
    (hretries : s.st.sendBuffer.retriesRemaining = 0)
    (hlong : ∀ a ∈ s.attempts, LongAfter a.start a.latest) :
    Truthful { s with st := st, result := some rmpETimeout } ↔ ∀ a ∈ s.attempts, a.sent = true := by
  have hcount := h.count
  rw [← List.countP_eq_length]
  constructor
  · intro ht
    obtain ⟨-, hdata, -⟩ := ht.timeout rfl
    dsimp only at hdata
    rw [h.data_eq, List.length_replicate] at hdata
    omega
  · intro hall
    refine ⟨h.truthful.data_length, h.truthful.data_eq, fun n hn => ?_, fun _ => ⟨h.acked_eq, ?_, ?_,
      hlong⟩⟩
    · obtain rfl := Option.some.inj hn
      rw [h.acked_eq]
      refine iff_of_false ?_ Bool.false_ne_true
      simp only [rmpETimeout]
      omega
    · dsimp only
      rw [h.data_eq, List.length_replicate]
      omega
    · dsimp only
      omega

/-- The call goes on or has ended, and its result is true exactly if `P`. -/
structure Settled (P : Prop) (s : SendCall) : Prop where
  open_or_ended : s.Open ∨ s.result.isSome = true
  truthful : s.Truthful ↔ P

/-- The call after a step of its process. -/
def after (s : SendCall) (r : StepResult) (acked : Bool) : SendCall :=
  { s with st := r.state, data := s.data ++ dataOf r.out, acked := acked, result := resultOf r }

theorem Open.settled {s : SendCall} (h : s.Open) {P : Prop} (hP : P) : s.Settled P :=
  ⟨.inl h, iff_of_true h.truthful hP⟩

/-- **A round that ends the call**, other than on the timer. -/
theorem Open.after_return {s : SendCall} (h : s.Open) {r : StepResult} {acked : Bool} {P : Prop}
    (ok : Bool) (hdata : dataOf r.out = [])
    (hret : r.ret = some (.sendTo (if ok then (s.message.message.length : ℤ) else -1)))
    (hP : (ok = true ↔ acked = true) ↔ P) : (s.after r acked).Settled P := by
  have hresult : resultOf r = some (if ok then (s.message.message.length : ℤ) else -1) := by
    simp only [resultOf, hret]
  rw [after, hdata, List.append_nil, hresult]
  exact ⟨.inr rfl, (h.truthful_return r.state acked ok).trans hP⟩

/-- **A round after which the call goes on.** -/
theorem Open.after_none {s : SendCall} (h : s.Open) {r : StepResult} {acked : Bool} {P : Prop}
    {frame frame' : SendFrame} (hdata : dataOf r.out = []) (hret : r.ret = none)
    (hacked : acked = false) (hframe : s.st.call = .sending frame ∨ s.st.call = .polling frame)
    (hcall : r.state.call = .sending frame' ∨ r.state.call = .polling frame')
    (hframe' : frame'.numBytesSent = frame.numBytesSent) (hlive : r.state.live ≠ [])
    (hbuffer : ∃ occupied, r.state.sendBuffer = { s.st.sendBuffer with occupied := occupied })
    (hP : P) : (s.after r acked).Settled P := by
  obtain rfl := hacked.trans h.acked_eq.symm
  have hresult : resultOf r = none := by simp only [resultOf, hret]
  rw [after, hdata, List.append_nil, hresult]
  exact (h.round r.state hframe hcall hframe' hlive hbuffer).settled hP

/-- **A round up to `recvfrom`**: the call goes on or ends, and ends with a true result exactly
if the round is undisturbed. -/
theorem step_loop {s s' : SendCall} (h : s.Open) {now : Option Timeval} {c : CleanInput}
    {o : SendInput} (hs : s.step (.loop now c o) = some s') :
    s'.Settled (s.Undisturbed (.loop now c o)) := by
  simp only [step, h.result_eq, Option.isSome_none, Bool.false_eq_true, if_false,
    Option.map_eq_some_iff] at hs
  obtain ⟨r, hr, rfl⟩ := hs
  obtain ⟨frame, hcall | hcall, -⟩ := h.call_eq
  · rw [rmpStep, hcall] at hr
    obtain rfl := Option.some.inj hr
    cases now with
    | none =>
      have hP : (false = true ↔ s.acked = true) ↔ s.Undisturbed (.loop none c o) := by
        simp [h.acked_eq, Undisturbed]
      exact h.after_return false rfl rfl hP
    | some now =>
      by_cases htime : s.TimedOut now
      · have hgreater : intervalGreaterThanValue s.st.sendBuffer.timestamp now ackTimeoutUsec = true :=
          htime
        by_cases hretries : s.st.sendBuffer.retriesRemaining = 0
        · -- the timer has expired for the last time
          rw [attemptSendLoop_expired s.st frame c o hgreater hretries]
          simp only [sendReturn, dataOf, hretries, List.filter_nil, List.append_nil, resultOf, ne_eq,
            not_true_eq_false, and_false, if_false]
          refine ⟨.inr rfl, ((h.tick now).truthful_timeout _ hretries (h.long_tick htime)).trans ?_⟩
          obtain ⟨a, attempts, hattempts, -⟩ := h.timer
          simp [Undisturbed, htime, hretries, hattempts, SendCall.tick]
        · -- the DATA is sent again
          have htick := h.tick now
          have hcount := htick.count
          dsimp only at hcount
          have hattempt := open_attemptSend { s.st with
              sendBuffer := { s.st.sendBuffer with
                retriesRemaining := s.st.sendBuffer.retriesRemaining - 1 } }
            h.acked_eq h.outgoing_eq h.type_eq htick.data_eq (by dsimp only; omega) (h.long_tick htime) o
          have hP : s.Undisturbed (.loop (some now) c o) := fun _ hzero => absurd hzero hretries
          rw [attemptSendLoop_retry s.st frame c o hgreater hretries]
          simp only [htime, ne_eq, hretries, not_false_eq_true, and_self, if_true]
          obtain hopen | ⟨hresult, htrue⟩ := hattempt
          · exact hopen.settled hP
          · exact ⟨.inr hresult, iff_of_true htrue hP⟩
      · have hgreater : ¬ intervalGreaterThanValue s.st.sendBuffer.timestamp now ackTimeoutUsec = true :=
          htime
        let r : StepResult :=
          ⟨{ s.st with receiveBuffer := (cleanReceiveBuffer s.st c).1, call := .polling frame },
            (cleanReceiveBuffer s.st c).2, none⟩
        have hround : attemptSendLoop s.st frame (some now) c o = r :=
          attemptSendLoop_early s.st frame c o hgreater
        have hbuffer : ∃ occupied, r.state.sendBuffer = { s.st.sendBuffer with occupied := occupied } :=
          ⟨_, rfl⟩
        simp only [hround, htime, false_and, if_false]
        exact (h.tick now).after_none (dataOf_cleanReceiveBuffer s.st c) rfl h.acked_eq (.inl hcall)
          (.inr rfl) rfl h.live_ne hbuffer fun ht => absurd ht htime
  · rw [rmpStep, hcall] at hr
    cases hr

/-! ## The rest of a round, from `recvfrom` on -/

section Recvfrom

variable {s s' : SendCall} {frame : SendFrame} {o : ReceiveInput}

/-- The loop is left on an ACK of the message. -/
theorem Open.leave_iff (h : s.Open) (src : RmpAddress) (type : MessageType) (id : MessageId) :
    ¬ (src ≠ s.st.sendBuffer.peer ∨ type ≠ .ack ∨ id ≠ s.st.sendBuffer.id) ↔
      s.Answers src type id := by
  have hdest : s.st.sendBuffer.peer = s.message.dest := by rw [← h.outgoing_eq]; rfl
  have hid : s.st.sendBuffer.id = s.message.id := by rw [← h.outgoing_eq]; rfl
  simp only [Answers, hdest, hid, ne_eq, not_or, not_not]

/-- The result of a call that leaves the loop as on an ACK. -/
theorem Open.ack_result (h : s.Open) (hcall : s.st.call = .polling frame) (resetOk : Bool) :
    (if resetOk then frame.numBytesSent else -1) =
      if s.lastSent && resetOk then (s.message.message.length : ℤ) else -1 := by
  obtain ⟨frame', hframe', hsent⟩ := h.call_eq
  obtain hframe' | hframe' := hframe'
  · rw [hcall] at hframe'
    cases hframe'
  · rw [hcall] at hframe'
    obtain rfl := Call.polling.inj hframe'
    rw [hsent]
    cases s.lastSent <;> cases resetOk <;> rfl

theorem settled_datagram (h : s.Open) (hcall : s.st.call = .polling frame) (src : RmpAddress)
    (d : Datagram) :
    (s.after (attemptSendReceive s.st frame (.datagram src d) o)
      (s.acked || s.processes (.datagram src d) o)).Settled
        (s.Undisturbed (.recvfrom (.datagram src d) o)) := by
  have hround := attemptSendReceive_datagram s.st frame src d o h.live_ne
  obtain ⟨occupied, hbuffer⟩ := processMessage_sendBuffer s.st s.st.recvSrcAddress.1 src
    (received maxMessageSize d) maxMessageSize o
  have hdata := dataOf_processMessage s.st s.st.recvSrcAddress.1 src (received maxMessageSize d)
    maxMessageSize o
  have hack : d.type = .ack → ((processMessage s.st s.st.recvSrcAddress.1 src
      (received maxMessageSize d) maxMessageSize o).status = -1 ↔ o.sendOk = false) :=
    fun ht => processMessage_ack_status (d := received maxMessageSize d) ht ..
  generalize processMessage s.st s.st.recvSrcAddress.1 src (received maxMessageSize d)
    maxMessageSize o = p at *
  dsimp only at hround
  rw [hround]
  by_cases hstatus : p.status = -1
  · -- the datagram cannot be answered
    have hnot : s.Answers src d.type d.id → o.sendOk ≠ true := by
      rintro ha hok
      rw [(hack ha.2.1).1 hstatus] at hok
      cases hok
    rw [if_pos hstatus]
    refine h.after_return false hdata rfl (iff_of_true ?_ fun ha hok => absurd hok (hnot ha))
    simp only [h.acked_eq, Bool.false_or, processes, Bool.and_eq_true, decide_eq_true_eq,
      Bool.false_eq_true, false_iff, not_and]
    exact hnot
  rw [if_neg hstatus]
  by_cases ha : s.Answers src d.type d.id
  · -- the ACK of the message
    have hok : o.sendOk = true := by
      cases hok : o.sendOk
      · exact absurd ((hack ha.2.1).2 hok) hstatus
      · rfl
    have hmatch : ¬ (src ≠ p.sendBuffer.peer ∨ d.type ≠ .ack ∨ d.id ≠ p.sendBuffer.id) := by
      rw [hbuffer]
      exact (h.leave_iff ..).2 ha
    rw [if_neg hmatch]
    refine h.after_return (s.lastSent && o.resetOk) hdata ?_ ?_
    · rw [← h.ack_result hcall]
      rfl
    · simp [Undisturbed, processes, ha, hok]
  · have hmatch : src ≠ p.sendBuffer.peer ∨ d.type ≠ .ack ∨ d.id ≠ p.sendBuffer.id := by
      rw [hbuffer]
      exact not_not.1 (mt (h.leave_iff ..).1 ha)
    rw [if_pos hmatch]
    exact h.after_none hdata rfl (by simp [h.acked_eq, processes, ha]) (.inr hcall) (.inl rfl) rfl
      (writeSrcAddress_ne_nil h.live_ne src) ⟨occupied, hbuffer⟩ fun ha' => absurd ha' ha

theorem settled_runt (h : s.Open) (hcall : s.st.call = .polling frame) (src : RmpAddress)
    (d : Datagram) (length : Fin 16) :
    (s.after (attemptSendReceive s.st frame (.runt src d length) o)
      (s.acked || s.processes (.runt src d length) o)).Settled
        (s.Undisturbed (.recvfrom (.runt src d length) o)) := by
  have hround := attemptSendReceive_runt s.st frame src d length o h.live_ne
  dsimp only at hround
  rw [hround]
  by_cases hstatus : (length : ℤ) - 16 = -1
  · rw [if_pos hstatus]
    exact h.after_return false rfl rfl (by simp [Undisturbed, processes, h.acked_eq, hstatus])
  rw [if_neg hstatus]
  by_cases ha : s.Answers src d.type d.id
  · rw [if_neg ((h.leave_iff ..).2 ha)]
    refine h.after_return (s.lastSent && o.resetOk) rfl ?_ ?_
    · rw [← h.ack_result hcall]
      rfl
    · simp [Undisturbed, processes, h.acked_eq, hstatus, ha]
  · rw [if_pos (not_not.1 (mt (h.leave_iff ..).1 ha))]
    exact h.after_none rfl rfl (by simp [h.acked_eq, processes]) (.inr hcall) (.inl rfl) rfl
      (writeSrcAddress_ne_nil h.live_ne src) ⟨_, rfl⟩ fun ha' => absurd ha' ha

theorem settled_timeout (h : s.Open) (hcall : s.st.call = .polling frame) :
    (s.after (attemptSendReceive s.st frame .timeout o) (s.acked || s.processes .timeout o)).Settled
      (s.Undisturbed (.recvfrom .timeout o)) := by
  have hlocals : s.LocalsAnswer ↔ s.Answers s.st.recvSrcAddress.2 frame.recvType frame.recvId := by
    rw [LocalsAnswer, hcall]
  rw [attemptSendReceive_timeout]
  by_cases ha : s.Answers s.st.recvSrcAddress.2 frame.recvType frame.recvId
  · rw [if_neg ((h.leave_iff ..).2 ha)]
    refine h.after_return (s.lastSent && o.resetOk) rfl ?_ ?_
    · rw [← h.ack_result hcall]
      rfl
    · simp [Undisturbed, processes, h.acked_eq, hlocals, ha]
  · rw [if_pos (not_not.1 (mt (h.leave_iff ..).1 ha))]
    exact h.after_none rfl rfl (by simp [h.acked_eq, processes]) (.inr hcall) (.inl rfl) rfl
      h.live_ne ⟨_, rfl⟩ fun ha' => absurd (hlocals.1 ha') ha

/-- **A round from `recvfrom` on**, likewise. -/
theorem step_recvfrom (h : s.Open) {outcome : RecvOutcome}
    (hs : s.step (.recvfrom outcome o) = some s') : s'.Settled (s.Undisturbed (.recvfrom outcome o)) := by
  simp only [step, h.result_eq, Option.isSome_none, Bool.false_eq_true, if_false,
    Option.map_eq_some_iff] at hs
  obtain ⟨r, hr, rfl⟩ := hs
  obtain ⟨frame, hcall | hcall, -⟩ := h.call_eq
  · rw [rmpStep, hcall] at hr
    cases hr
  rw [rmpStep, hcall] at hr
  obtain rfl := Option.some.inj hr
  rcases outcome with ⟨src, d⟩ | ⟨src, d, length⟩ | _ | _
  · exact settled_datagram h hcall src d
  · exact settled_runt h hcall src d length
  · exact settled_timeout h hcall
  · exact h.after_return false rfl rfl (by simp [Undisturbed, processes, h.acked_eq])

end Recvfrom

/-! ## The whole call -/

theorem initial_cases {s : SendCall} (h : s.Initial) :
    s.Open ∨ s.result.isSome = true ∧ s.Truthful := by
  obtain ⟨st, destination, buffer, newId, o, rfl⟩ := h
  have hattempt := open_attemptSend { st with
      sendBuffer := { st.sendBuffer with
        occupied := true, type := .data, id := newId, message := buffer
        peer := destination, retriesRemaining := numRetries } }
    (m := ⟨destination, newId, buffer⟩) rfl rfl rfl (show ([] : Output) = _ from rfl) rfl
    (fun a ha => absurd ha List.not_mem_nil) o
  simp only [List.nil_append, List.append_nil] at hattempt
  exact hattempt

/-- There are no steps after the return. -/
theorem step_returned {s : SendCall} (h : s.result.isSome = true) (i : Input) : s.step i = none := by
  unfold step
  rw [if_pos h]

/-- Any step of the call. -/
theorem step_open {s s' : SendCall} (h : s.Open) {i : Input} (hs : s.step i = some s') :
    s'.Settled (s.Undisturbed i) := by
  cases i with
  | rmpListen len a c => simp [step] at hs
  | rmpSendTo destination buffer newId o => simp [step] at hs
  | loop now c o => exact step_loop h hs
  | recvfrom outcome o => exact step_recvfrom h hs

/-- **The result of `RMP_sendTo` is true** exactly if every step of the call is undisturbed,
whatever the datagrams, timeouts, clock readings and failures of the call are, and whatever its
local variables hold at first. -/
theorem truthful_iff {s₀ s : SendCall} (h₀ : s₀.Initial) {inputs : List Input}
    (h : exec step (fun _ _ => True) s₀ inputs = some s) :
    s.Truthful ↔ exec step Undisturbed s₀ inputs = some s := by
  have hcases := initial_cases h₀
  clear h₀
  induction inputs generalizing s₀ with
  | nil =>
    have htrue : s₀.Truthful := by
      obtain hopen | ⟨-, htrue⟩ := hcases
      · exact hopen.truthful
      · exact htrue
    obtain rfl := Option.some.inj h
    exact iff_of_true htrue rfl
  | cons i inputs ih =>
    rw [exec, if_pos trivial] at h
    obtain ⟨s₁, hs₁, h⟩ := Option.bind_eq_some_iff.1 h
    obtain hopen | ⟨hresult, -⟩ := hcases
    · obtain ⟨hnext, htrue⟩ := step_open hopen hs₁
      rw [exec, hs₁]
      by_cases hi : s₀.Undisturbed i
      · rw [if_pos hi, Option.bind_some]
        exact ih h (hnext.imp_right fun hresult => ⟨hresult, htrue.2 hi⟩)
      · -- the call has ended in this step
        rw [if_neg hi]
        have hfalse := mt htrue.1 hi
        obtain hopen₁ | hresult := hnext
        · exact absurd hopen₁.truthful hfalse
        · cases inputs with
          | nil =>
            obtain rfl := Option.some.inj h
            exact iff_of_false hfalse (Option.some_ne_none _).symm
          | cons j inputs =>
            rw [exec, if_pos trivial] at h
            obtain ⟨s₂, hs₂, -⟩ := Option.bind_eq_some_iff.1 h
            cases (step_returned hresult j).symm.trans hs₂
    · cases (step_returned hresult i).symm.trans hs₁

/-- A call on the message `[104, 105]` with the id 7. -/
def calling : SendCall :=
  start (RmpState.initial (blankBuffer ⟨0, 0⟩)) ⟨9, 1⟩ [104, 105] 7 .still

theorem truthful_iff_answered :
    ∃ s : SendCall, s.result = some 2 ∧
      (s.Truthful ↔ exec step Undisturbed calling [.wait, .receive ⟨9, 1⟩ .ack 7 []] = some s) := by
  obtain ⟨s, hs, hresult⟩ := Option.map_eq_some_iff.1
    (show (exec step (fun _ _ => True) calling [.wait, .receive ⟨9, 1⟩ .ack 7 []]).map
        SendCall.result = some (some 2) by decide)
  exact ⟨s, hresult, truthful_iff ⟨_, _, _, _, _, rfl⟩ hs⟩

/-- The timer expires and the DATA is sent again, but this `sendto` fails; then the ACK of the first
DATA is read. -/
def lateAck : List Input :=
  [.loop (some ⟨0, 20001⟩) .still { SendInput.still with sendOk := false, timestamp := some ⟨0, 20001⟩ },
    .loop (some ⟨0, 20002⟩) .still .still, .receive ⟨9, 1⟩ .ack 7 []]

/-- The result is not always true: `RMP_sendTo` returns -1 although the ACK has been processed. -/
theorem not_truthful :
    ¬ ∀ s₀ : SendCall, s₀.Initial → ∀ inputs s, exec step (fun _ _ => True) s₀ inputs = some s →
      s.Truthful := by
  intro h
  obtain ⟨s, hs, hres⟩ := Option.map_eq_some_iff.1
    (show (exec step (fun _ _ => True) calling lateAck).map
        (fun s => (s.result, s.acked, s.message.message)) =
      some (some (-1), true, [104, 105]) by decide)
  obtain ⟨hresult, hrest⟩ := Prod.mk.inj hres
  obtain ⟨hacked, hmessage⟩ := Prod.mk.inj hrest
  have hlength := ((h calling ⟨_, _, _, _, _, rfl⟩ lateAck s hs).length_iff _ hresult).2 hacked
  rw [hmessage] at hlength
  revert hlength
  decide

end SendCall

end Dchat.RMP
