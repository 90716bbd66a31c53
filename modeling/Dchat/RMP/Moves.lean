import Dchat.RMP.Process
import Mathlib.Logic.Function.Basic

/-!
# What a step of a process can do

The protocol that RMP runs, seen from outside a process: what the process is waiting for and which
messages it holds for its peers (`View`). `Move` lists everything one step can do to a view, with
the datagram it reads, the datagrams it sends and the library calls and returns it makes; the
parameter `late` marks what needs a timer to expire or `sendto` to fail, the parameter `faulty` what
needs another call of the operating system to fail.
`rmpStep_move` says that every step of a process is a `Move`, so that a property of runs is proved
from the moves alone.
-/

namespace Dchat.RMP

open Structures

/-- A message on its way out: an argument list of `RMP_sendTo`, with the id drawn for it. -/
structure Outgoing where
  dest : RmpAddress
  id : MessageId
  message : Bytes
  deriving DecidableEq

/-- The DATA datagram of a message. -/
def Outgoing.datagram (m : Outgoing) : Datagram := ⟨.data, m.id, m.message⟩

/-- What a process is blocked in. -/
inductive Mode
  | idle
  | listening (len : ℕ)
  | waiting (m : Outgoing)
  deriving DecidableEq

/-- The size of the buffer a datagram is read into. -/
def Mode.capacity : Mode → ℕ
  | .idle => 0
  | .listening len => len
  | .waiting _ => maxMessageSize

/-- Inside `attemptSend`. -/
def Mode.isWaiting : Mode → Bool
  | .waiting _ => true
  | _ => false

/-- The messages held for the peers of each key, with their ids. -/
abbrev Slots := ℤ → Option (MessageId × Bytes)

/-- A process seen from outside. -/
structure View where
  mode : Mode
  slot : Slots

/-- The message the send buffer holds. -/
def RmpState.outgoing (st : RmpState) : Outgoing :=
  ⟨st.sendBuffer.peer, st.sendBuffer.id, st.sendBuffer.message⟩

/-- What the process is blocked in. -/
def RmpState.mode (st : RmpState) : Mode :=
  match st.call with
  | .idle => .idle
  | .listening len => .listening len
  | .sending _ | .polling _ => .waiting st.outgoing

/-- The message of a buffer, if it is occupied. -/
def pending (b : MessageHoldingBuffer Cell) : Option (MessageId × Bytes) :=
  if b.occupied then some (b.id, b.message) else none

/-- The messages a receive map holds. -/
def slots (m : ReceiveBuffer) : Slots := fun key => (mapGet m key).bind pending

/-- The view of a process. -/
def RmpState.view (st : RmpState) : View := ⟨st.mode, slots st.receiveBuffer⟩

/-- What a process inside `attemptSend` keeps: a DATA message in the send buffer, and the variable
`recv_src_address` of the call. -/
def RmpState.Valid (st : RmpState) : Prop :=
  (∀ m, st.mode = .waiting m → st.sendBuffer.type = .data ∧ st.live ≠ [])

theorem RmpState.valid_initial (garbage : MessageHoldingBuffer RmpAddress) :
    (RmpState.initial garbage).Valid := by
  intro m h
  cases h

/-- The datagram a step reads. -/
def Input.read : Input → Option (RmpAddress × Datagram)
  | .recvfrom (.datagram src d) _ => some (src, d)
  | _ => none

/-- The message id drawn in a step. -/
def Input.newId : Input → Option MessageId
  | .rmpSendTo _ _ newId _ => some newId
  | _ => none

/-- A library call, or the return of one. -/
inductive LocalEvent
  | call (m : Outgoing)
  | sent (m : Outgoing) (result : ℤ)
  | listened (result : ℤ) (src : RmpAddress) (id : MessageId) (bytes : Bytes) (delivered : Bool)
  deriving DecidableEq

/-- The calls and returns of a step. -/
def localEvents (i : Input) (r : StepResult) : List LocalEvent :=
  (match i with
    | .rmpSendTo dest buffer newId _ => [.call ⟨dest, newId, buffer⟩]
    | _ => []) ++
  match r.ret with
  | some (.sendTo result) => [.sent r.state.outgoing result]
  | some (.listen result src id bytes delivered) => [.listened result src id bytes delivered]
  | none => []

/-! ## Faults -/

/-- No buffer of the receive map is due for a retry or for removal. -/
def CleanInput.Quiet (c : CleanInput) (m : ReceiveBuffer) : Prop :=
  ∀ p ∈ m.pairs,
    intervalGreaterThanValue p.2.timestamp (c.currentTime p.1) ackTimeoutUsec = false

instance (c : CleanInput) (m : ReceiveBuffer) : Decidable (c.Quiet m) :=
  inferInstanceAs (Decidable (∀ p ∈ m.pairs, _))

/-- No timer expires in the step and every datagram it sends leaves. -/
def Prompt (st : RmpState) : Input → Prop
  | .rmpListen _ _ c => c.Quiet st.receiveBuffer
  | .rmpSendTo _ _ _ o => o.sendOk = true
  | .loop none _ _ => True
  | .loop (some now) c _ =>
    intervalGreaterThanValue st.sendBuffer.timestamp now ackTimeoutUsec = false ∧
      c.Quiet st.receiveBuffer
  | .recvfrom (.datagram _ _) o => o.sendOk = true
  | .recvfrom (.runt _ _ _) _ => True
  | .recvfrom .timeout _ => False
  | .recvfrom .error _ => True

instance (st : RmpState) : DecidablePred (Prompt st)
  | .rmpListen _ _ c => inferInstanceAs (Decidable (c.Quiet st.receiveBuffer))
  | .rmpSendTo _ _ _ _ => inferInstanceAs (Decidable (_ = _))
  | .loop none _ _ => inferInstanceAs (Decidable True)
  | .loop (some _) c _ => inferInstanceAs (Decidable (_ ∧ c.Quiet st.receiveBuffer))
  | .recvfrom (.datagram _ _) _ => inferInstanceAs (Decidable (_ = _))
  | .recvfrom (.runt _ _ _) _ => inferInstanceAs (Decidable True)
  | .recvfrom .timeout _ => inferInstanceAs (Decidable False)
  | .recvfrom .error _ => inferInstanceAs (Decidable True)

/-- `recvfrom` does not fail, and what it receives has a header. -/
def RecvOutcome.isWhole : RecvOutcome → Bool
  | .runt _ _ _ | .error => false
  | .datagram _ _ | .timeout => true

/-- No call of the operating system but `sendto` fails where a failure changes what the process
does, and every datagram has a header. -/
def Input.Sound : Input → Prop
  | .rmpListen _ _ _ => True
  | .rmpSendTo _ _ _ o => o.setsockoptOk = true ∧ o.timestamp.isSome
  | .loop currentTime _ o => currentTime.isSome ∧ o.setsockoptOk = true ∧ o.timestamp.isSome
  | .recvfrom r _ => r.isWhole = true

instance : DecidablePred Input.Sound
  | .rmpListen _ _ _ => inferInstanceAs (Decidable True)
  | .rmpSendTo _ _ _ _ => inferInstanceAs (Decidable (_ ∧ _))
  | .loop _ _ _ => inferInstanceAs (Decidable (_ ∧ _ ∧ _))
  | .recvfrom _ _ => inferInstanceAs (Decidable (_ = _))

/-! The inputs of an operating system whose clock stands still and whose calls succeed, for runs on
given datagrams. -/

/-- Fresh memory of a buffer. -/
def blankBuffer {ρ : Type} (peer : ρ) : MessageHoldingBuffer ρ :=
  ⟨false, .data, 0, [], ⟨0, 0⟩, peer, 0⟩

def CleanInput.still : CleanInput := ⟨fun _ => ⟨0, 0⟩, fun _ => true, fun _ => ⟨0, 0⟩⟩

def SendInput.still : SendInput := ⟨true, true, some ⟨0, 0⟩, ⟨0, 0⟩, .data, 0⟩

def ReceiveInput.still : ReceiveInput := ⟨⟨0, 0⟩, true, true, blankBuffer 0⟩

namespace Input

/-- `RMP_listen` is called. -/
def listen (len : ℕ) : Input := .rmpListen len ⟨0, 0⟩ .still

/-- `RMP_sendTo` is called. -/
def sendTo (destination : RmpAddress) (buffer : Bytes) (newId : MessageId) : Input :=
  .rmpSendTo destination buffer newId .still

/-- The wait loop of `attemptSend` calls `recvfrom`. -/
def wait : Input := .loop (some ⟨0, 0⟩) .still .still

/-- `recvfrom` returns a datagram. -/
def receive (src : RmpAddress) (type : MessageType) (id : MessageId) (payload : Bytes) : Input :=
  .recvfrom (.datagram src ⟨type, id, payload⟩) .still

end Input

/-! ## Moves -/

/-- A datagram is handed to the network, or, when `late`, is not. -/
def Sends (late : Prop) (p : RmpAddress × Datagram) (out : Output) : Prop :=
  out = [p] ∨ late ∧ out = []

/-- The effect of cleaning: when `late`, some held messages are dropped and some of their ACKs are
sent again, to any address. -/
structure Cleaned (late : Prop) (slot : Slots) (out : Output) (slot' : Slots) : Prop where
  kept : ∀ k, slot' k = slot k ∨ late ∧ slot' k = none
  acks : ∀ p ∈ out, late ∧ ∃ k id m, slot k = some (id, m) ∧ p.2 = ⟨.ack, id, []⟩

/-- Cleaning does nothing unless `late`. -/
theorem Cleaned.eq {late : Prop} {slot slot' : Slots} {out : Output}
    (h : Cleaned late slot out slot') (hl : ¬ late) : out = [] ∧ slot' = slot := by
  refine ⟨List.eq_nil_iff_forall_not_mem.2 fun p hp => hl (h.acks p hp).1, ?_⟩
  funext k
  exact (h.kept k).resolve_right fun hk => hl hk.1

/-- How a process goes on after a datagram of `src` and `id` that does not complete what it is
waiting for; `RMP_listen` then returns at most `n`. -/
inductive Resume (late : Prop) (n : ℕ) (src : RmpAddress) (id : MessageId) :
    Mode → List LocalEvent → Mode → Prop
  | listening {len : ℕ} {result : ℤ} {bytes : Bytes} (hn : result ≤ n) :
      Resume late n src id (.listening len) [.listened result src id bytes false] .idle
  | waiting {m : Outgoing} : Resume late n src id (.waiting m) [] (.waiting m)
  | failed {m : Outgoing} (hl : late) :
      Resume late n src id (.waiting m) [.sent m (-1)] .idle

/-- Everything one step can do. -/
inductive Move (late faulty : Prop) :
    View → Option (RmpAddress × Datagram) → Output → List LocalEvent → View → Prop
  /-- `RMP_listen` is called. -/
  | listen {slot slot' : Slots} {out : Output} {len : ℕ} (hc : Cleaned late slot out slot') :
      Move late faulty ⟨.idle, slot⟩ none out [] ⟨.listening len, slot'⟩
  /-- `RMP_sendTo` is called. -/
  | call {slot : Slots} {out : Output} {m : Outgoing}
      (hs : Sends late (m.dest, m.datagram) out) :
      Move late faulty ⟨.idle, slot⟩ none out [.call m] ⟨.waiting m, slot⟩
  /-- `RMP_sendTo` is called and fails at once. -/
  | callFailed {slot : Slots} {out : Output} {m : Outgoing} (hf : faulty)
      (hs : Sends late (m.dest, m.datagram) out) :
      Move late faulty ⟨.idle, slot⟩ none out [.call m, .sent m (-1)] ⟨.idle, slot⟩
  /-- One more round of the wait loop. -/
  | tidy {slot slot' : Slots} {out : Output} {m : Outgoing} (hc : Cleaned late slot out slot') :
      Move late faulty ⟨.waiting m, slot⟩ none out [] ⟨.waiting m, slot'⟩
  /-- The wait loop times out: the DATA is sent again, or nothing is. -/
  | resend {slot : Slots} {out : Output} {m : Outgoing} (hl : late)
      (hs : Sends late (m.dest, m.datagram) out) :
      Move late faulty ⟨.waiting m, slot⟩ none out [] ⟨.waiting m, slot⟩
  /-- `RMP_sendTo` returns without having read a datagram. -/
  | giveUp {slot : Slots} {out : Output} {m : Outgoing} {result : ℤ} (hf : late ∨ faulty)
      (hs : out = [] ∨ late ∧ out = [(m.dest, m.datagram)]) :
      Move late faulty ⟨.waiting m, slot⟩ none out [.sent m result] ⟨.idle, slot⟩
  /-- `RMP_listen` returns without having read a datagram. -/
  | deaf {slot : Slots} {len : ℕ} {result : ℤ} {src : RmpAddress} {id : MessageId}
      (hf : late ∨ faulty) (hn : result < 0) :
      Move late faulty ⟨.listening len, slot⟩ none [] [.listened result src id [] false] ⟨.idle, slot⟩
  /-- A DATA is read: it is stored, in the place of what its sender's key held, and acknowledged. -/
  | data {slot : Slots} {mode mode' : Mode} {src : RmpAddress} {d : Datagram} {out : Output}
      {es : List LocalEvent} (ht : d.type = .data)
      (hs : Sends late (src, ⟨.ack, d.id, []⟩) out)
      (hr : Resume late 0 src d.id mode es mode') :
      Move late faulty ⟨mode, slot⟩ (some (src, d)) out es
        ⟨mode', Function.update slot (rmpAddressHash src)
          (some (d.id, d.payload.take mode.capacity))⟩
  /-- An ACK is read that is not the one waited for: it is answered. -/
  | ack {slot : Slots} {mode mode' : Mode} {src : RmpAddress} {d : Datagram} {out : Output}
      {es : List LocalEvent} (ht : d.type = .ack)
      (hs : Sends late (src, ⟨.synAck, d.id, []⟩) out)
      (hr : Resume late 0 src d.id mode es mode')
      (hne : ∀ m, mode' = .waiting m → ¬ (m.dest = src ∧ m.id = d.id)) :
      Move late faulty ⟨mode, slot⟩ (some (src, d)) out es ⟨mode', slot⟩
  /-- The ACK waited for is read: it is answered and `RMP_sendTo` returns. -/
  | acked {slot : Slots} {m : Outgoing} {src : RmpAddress} {d : Datagram} {out : Output}
      {result : ℤ} (ht : d.type = .ack) (hs : Sends late (src, ⟨.synAck, d.id, []⟩) out)
      (hd : m.dest = src) (hi : m.id = d.id) :
      Move late faulty ⟨.waiting m, slot⟩ (some (src, d)) out [.sent m result] ⟨.idle, slot⟩
  /-- `RMP_listen` reads the SYN_ACK of a held message and hands the message out. -/
  | deliver {slot : Slots} {len : ℕ} {src : RmpAddress} {d : Datagram} {bytes : Bytes}
      (ht : d.type = .synAck) (hslot : slot (rmpAddressHash src) = some (d.id, bytes)) :
      Move late faulty ⟨.listening len, slot⟩ (some (src, d)) []
        [.listened bytes.length src d.id (bytes.take len) true]
        ⟨.idle, Function.update slot (rmpAddressHash src) none⟩
  /-- The wait loop of `attemptSend` reads the SYN_ACK of a held message and drops the message. -/
  | consume {slot : Slots} {m : Outgoing} {src : RmpAddress} {d : Datagram} {bytes : Bytes}
      (ht : d.type = .synAck) (hslot : slot (rmpAddressHash src) = some (d.id, bytes)) :
      Move late faulty ⟨.waiting m, slot⟩ (some (src, d)) [] []
        ⟨.waiting m, Function.update slot (rmpAddressHash src) none⟩
  /-- A SYN_ACK is read that matches no held message: `RMP_listen` returns its payload. -/
  | stale {slot : Slots} {mode mode' : Mode} {src : RmpAddress} {d : Datagram}
      {es : List LocalEvent} (ht : d.type = .synAck)
      (hslot : ∀ bytes, slot (rmpAddressHash src) ≠ some (d.id, bytes))
      (hr : Resume False (d.payload.take mode.capacity).length src d.id mode es mode') :
      Move late faulty ⟨mode, slot⟩ (some (src, d)) [] es ⟨mode', slot⟩
  /-- A datagram of no known type is read. -/
  | other {slot : Slots} {mode mode' : Mode} {src : RmpAddress} {d : Datagram}
      {es : List LocalEvent} {value : ℕ} (ht : d.type = .other value)
      (hr : Resume False 0 src d.id mode es mode') :
      Move late faulty ⟨mode, slot⟩ (some (src, d)) [] es ⟨mode', slot⟩

/-- A message gets into a slot only when its DATA is read; every other move keeps what the slots
hold, or drops it. -/
theorem Move.slot_cases {late faulty : Prop} {v v' : View} {read : Option (RmpAddress × Datagram)}
    {out : Output} {es : List LocalEvent} (h : Move late faulty v read out es v') :
    (∃ src d, read = some (src, d) ∧ d.type = .data ∧
        v'.slot = Function.update v.slot (rmpAddressHash src)
          (some (d.id, d.payload.take v.mode.capacity))) ∨
      ((∀ src d, read = some (src, d) → d.type ≠ .data) ∧
        ∀ k x, v'.slot k = some x → v.slot k = some x) := by
  have hdrop : ∀ (slot : Slots) (key k : ℤ) (x : MessageId × Bytes),
      Function.update slot key none k = some x → slot k = some x := by
    intro slot key k x hx
    by_cases hk : k = key
    · simp [hk] at hx
    · rwa [Function.update_of_ne hk] at hx
  have hclean : ∀ {slot slot' : Slots} {out : Output}, Cleaned late slot out slot' →
      ∀ k x, slot' k = some x → slot k = some x := by
    intro slot slot' out hc k x hx
    rcases hc.kept k with he | ⟨-, he⟩
    · rwa [he] at hx
    · simp [he] at hx
  have hread : ∀ {src : RmpAddress} {d : Datagram} {t : MessageType}, d.type = t → t ≠ .data →
      ∀ src' d', some (src, d) = some (src', d') → d'.type ≠ .data := by
    rintro src d t ht hne src' d' ⟨⟩
    rwa [ht]
  cases h with
  | data ht hs hr => exact Or.inl ⟨_, _, rfl, ht, rfl⟩
  | listen hc => exact Or.inr ⟨by simp, hclean hc⟩
  | tidy hc => exact Or.inr ⟨by simp, hclean hc⟩
  | call | callFailed | resend | giveUp | deaf => exact Or.inr ⟨by simp, fun _ _ hx => hx⟩
  | ack ht | acked ht | other ht => exact Or.inr ⟨hread ht (by simp), fun _ _ hx => hx⟩
  | stale ht => exact Or.inr ⟨hread ht (by simp), fun _ _ hx => hx⟩
  | deliver ht | consume ht => exact Or.inr ⟨hread ht (by simp), hdrop _ _⟩

/-- `RMP_listen` returns a positive result only on a SYN_ACK: with the message of a slot, or with
the payload of the SYN_ACK. -/
theorem Move.listened {late faulty : Prop} {v v' : View} {read : Option (RmpAddress × Datagram)}
    {out : Output} {es : List LocalEvent} (h : Move late faulty v read out es v') {n : ℤ}
    {src : RmpAddress} {id : MessageId} {bytes : Bytes} {delivered : Bool}
    (he : .listened n src id bytes delivered ∈ es) (hn : 0 < n) :
    ∃ len d, v.mode = .listening len ∧ read = some (src, d) ∧ d.type = .synAck ∧ d.id = id ∧
      ((∃ m, v.slot (rmpAddressHash src) = some (id, m) ∧ n = m.length ∧ bytes = m.take len ∧
          delivered = true) ∨
        ((∀ m, v.slot (rmpAddressHash src) ≠ some (id, m)) ∧ n ≤ (d.payload.take len).length ∧
          delivered = false)) := by
  have hresume : ∀ {p : Prop} {limit : ℕ} {a : RmpAddress} {i : MessageId} {mode mode' : Mode}
      {es : List LocalEvent}, Resume p limit a i mode es mode' →
      .listened n src id bytes delivered ∈ es →
      ∃ len, mode = .listening len ∧ a = src ∧ i = id ∧ n ≤ limit ∧ delivered = false := by
    intro p limit a i mode mode' es hr hmem
    cases hr with
    | listening hle =>
      simp only [List.mem_singleton, LocalEvent.listened.injEq] at hmem
      obtain ⟨rfl, rfl, rfl, rfl, rfl⟩ := hmem
      exact ⟨_, rfl, rfl, rfl, hle, rfl⟩
    | waiting => simp at hmem
    | failed => simp at hmem
  cases h with
  | listen | call | callFailed | tidy | resend | giveUp | acked | consume => simp at he
  | deaf hf hneg =>
    simp only [List.mem_singleton, LocalEvent.listened.injEq] at he
    omega
  | data ht hs hr =>
    obtain ⟨_, _, _, _, hle, _⟩ := hresume hr he
    omega
  | ack ht hs hr hne =>
    obtain ⟨_, _, _, _, hle, _⟩ := hresume hr he
    omega
  | other ht hr =>
    obtain ⟨_, _, _, _, hle, _⟩ := hresume hr he
    omega
  | deliver ht hslot =>
    simp only [List.mem_singleton, LocalEvent.listened.injEq] at he
    obtain ⟨rfl, rfl, rfl, rfl, rfl⟩ := he
    exact ⟨_, _, rfl, rfl, ht, rfl, Or.inl ⟨_, hslot, rfl, rfl, rfl⟩⟩
  | stale ht hslot hr =>
    obtain ⟨len, rfl, rfl, rfl, hle, hd⟩ := hresume hr he
    exact ⟨len, _, rfl, rfl, ht, rfl, Or.inr ⟨hslot, hle, hd⟩⟩

/-- A process that waits after a move has just called `RMP_sendTo`, or was waiting before and has
not read the ACK it waits for. -/
theorem Move.waiting_cases {late faulty : Prop} {v v' : View}
    {read : Option (RmpAddress × Datagram)} {out : Output} {es : List LocalEvent}
    (h : Move late faulty v read out es v') {m : Outgoing} (hw : v'.mode = .waiting m) :
    (v.mode = .idle ∧ read = none ∧ es = [.call m] ∧ Sends late (m.dest, m.datagram) out) ∨
      v.mode = .waiting m ∧
        ∀ src d, read = some (src, d) → d.type = .ack → ¬ (m.dest = src ∧ m.id = d.id) := by
  have hresume : ∀ {p : Prop} {n : ℕ} {src : RmpAddress} {id : MessageId} {mode mode' : Mode}
      {es : List LocalEvent}, Resume p n src id mode es mode' → mode' = .waiting m →
      mode = .waiting m := by
    intro p n src id mode mode' es hr he
    cases hr with
    | listening => cases he
    | waiting => exact he
    | failed => cases he
  have hother : ∀ {src : RmpAddress} {d : Datagram} {t : MessageType}, d.type = t → t ≠ .ack →
      ∀ src' d', some (src, d) = some (src', d') → d'.type = .ack →
        ¬ (m.dest = src' ∧ m.id = d'.id) := by
    rintro src d t ht hne src' d' ⟨⟩ hack
    exact absurd (ht.symm.trans hack) hne
  cases h with
  | listen | callFailed | giveUp | deaf | acked | deliver => cases hw
  | call hs =>
    obtain rfl : _ = m := Mode.waiting.inj hw
    exact Or.inl ⟨rfl, rfl, rfl, hs⟩
  | tidy | resend => exact Or.inr ⟨hw, by simp⟩
  | consume ht => exact Or.inr ⟨hw, hother ht (by simp)⟩
  | data ht hs hr => exact Or.inr ⟨hresume hr hw, hother ht (by simp)⟩
  | stale ht hslot hr => exact Or.inr ⟨hresume hr hw, hother ht (by simp)⟩
  | other ht hr => exact Or.inr ⟨hresume hr hw, hother ht (by simp)⟩
  | ack ht hs hr hne =>
    refine Or.inr ⟨hresume hr hw, ?_⟩
    rintro src d ⟨⟩ -
    exact hne m hw

/-- Everything a move sends: the DATA of a message being sent, the ACK of a message held, and the
answer to the datagram read. -/
theorem Move.sends {late faulty : Prop} {v v' : View} {read : Option (RmpAddress × Datagram)}
    {out : Output} {es : List LocalEvent} (h : Move late faulty v read out es v')
    {p : RmpAddress × Datagram} (hp : p ∈ out) :
    (∃ m, p = (m.dest, m.datagram) ∧ read = none ∧
        (v.mode = .idle ∧ .call m ∈ es ∨ v.mode = .waiting m)) ∨
      (∃ k id bytes, v.slot k = some (id, bytes) ∧ p.2 = ⟨.ack, id, []⟩) ∨
      ∃ src d, read = some (src, d) ∧
        (d.type = .data ∧ p = (src, ⟨.ack, d.id, []⟩) ∨
          d.type = .ack ∧ p = (src, ⟨.synAck, d.id, []⟩)) := by
  have hsent : ∀ {q : RmpAddress × Datagram}, Sends late q out → p = q := by
    rintro q (rfl | ⟨-, rfl⟩)
    · exact List.mem_singleton.1 hp
    · cases hp
  have hclean : ∀ {slot slot' : Slots}, Cleaned late slot out slot' →
      ∃ k id bytes, slot k = some (id, bytes) ∧ p.2 = ⟨.ack, id, []⟩ :=
    fun hc => (hc.acks p hp).2
  cases h with
  | listen hc => exact Or.inr (Or.inl (hclean hc))
  | tidy hc => exact Or.inr (Or.inl (hclean hc))
  | call hs => exact Or.inl ⟨_, hsent hs, rfl, Or.inl ⟨rfl, by simp⟩⟩
  | callFailed hf hs => exact Or.inl ⟨_, hsent hs, rfl, Or.inl ⟨rfl, by simp⟩⟩
  | resend hl hs => exact Or.inl ⟨_, hsent hs, rfl, Or.inr rfl⟩
  | giveUp hf hs =>
    rcases hs with rfl | ⟨hl, rfl⟩
    · cases hp
    · exact Or.inl ⟨_, List.mem_singleton.1 hp, rfl, Or.inr rfl⟩
  | data ht hs => exact Or.inr (Or.inr ⟨_, _, rfl, Or.inl ⟨ht, hsent hs⟩⟩)
  | ack ht hs => exact Or.inr (Or.inr ⟨_, _, rfl, Or.inr ⟨ht, hsent hs⟩⟩)
  | acked ht hs => exact Or.inr (Or.inr ⟨_, _, rfl, Or.inr ⟨ht, hsent hs⟩⟩)
  | deaf | deliver | consume | stale | other => cases hp

/-- Only ACKs follow another datagram in what a move sends. -/
theorem Move.sends_pairwise {late faulty : Prop} {v v' : View}
    {read : Option (RmpAddress × Datagram)} {out : Output} {es : List LocalEvent}
    (h : Move late faulty v read out es v') : out.Pairwise fun _ q => q.2.type = .ack := by
  have hsent : ∀ {q : RmpAddress × Datagram}, Sends late q out →
      out.Pairwise fun _ q => q.2.type = .ack := by
    rintro q (rfl | ⟨-, rfl⟩)
    · exact List.pairwise_singleton _ _
    · exact List.Pairwise.nil
  have hclean : ∀ {slot slot' : Slots}, Cleaned late slot out slot' →
      out.Pairwise fun _ q => q.2.type = .ack := by
    intro slot slot' hc
    refine List.pairwise_of_forall_mem_list fun p _ q hq => ?_
    obtain ⟨-, _, _, _, -, he⟩ := hc.acks q hq
    rw [he]
  cases h with
  | listen hc => exact hclean hc
  | tidy hc => exact hclean hc
  | call hs => exact hsent hs
  | callFailed _ hs => exact hsent hs
  | resend _ hs => exact hsent hs
  | data _ hs => exact hsent hs
  | ack _ hs => exact hsent hs
  | acked _ hs => exact hsent hs
  | giveUp _ hs =>
    rcases hs with rfl | ⟨-, rfl⟩
    · exact List.Pairwise.nil
    · exact List.pairwise_singleton _ _
  | deaf | deliver | consume | stale | other => exact List.Pairwise.nil

/-- What a process sends besides DATA is a bare header. -/
theorem Move.sends_payload {late faulty : Prop} {v v' : View}
    {read : Option (RmpAddress × Datagram)} {out : Output} {es : List LocalEvent}
    (h : Move late faulty v read out es v') {p : RmpAddress × Datagram} (hp : p ∈ out)
    (ht : p.2.type ≠ .data) : p.2.payload = [] := by
  rcases h.sends hp with ⟨m, rfl, -, -⟩ | ⟨_, _, _, -, he⟩ | ⟨_, _, -, ⟨-, rfl⟩ | ⟨-, rfl⟩⟩
  · exact absurd rfl ht
  · rw [he]
  · rfl
  · rfl

/-! ## Cleaning is a move -/

/-- What `maintain_buffer_element` can do to a buffer. -/
theorem maintainBufferElement_cases (now : Timeval) (sendOk : Bool) (peer : RmpAddress)
    (b : MessageHoldingBuffer Cell) :
    (intervalGreaterThanValue b.timestamp now ackTimeoutUsec = false ∧
        maintainBufferElement now sendOk peer b = (0, b, [])) ∨
      (intervalGreaterThanValue b.timestamp now ackTimeoutUsec = true ∧
        maintainBufferElement now sendOk peer b = (-1, b, [])) ∨
      (intervalGreaterThanValue b.timestamp now ackTimeoutUsec = true ∧ b.occupied = true ∧
        ∃ b' out, maintainBufferElement now sendOk peer b = (0, b', out) ∧ pending b' = pending b ∧
          ∀ p ∈ out, p.2 = ⟨.ack, b.id, []⟩) := by
  unfold maintainBufferElement
  split
  · next ht =>
    split
    · exact Or.inr (Or.inl ⟨ht, rfl⟩)
    · next hr =>
      obtain ⟨-, ho⟩ := not_or.1 hr
      refine Or.inr (Or.inr ⟨ht, by simpa using ho, _, _, rfl, rfl, ?_⟩)
      cases sendOk <;> simp [sendRmpDatagram]
  · next ht => exact Or.inl ⟨by simpa using ht, rfl⟩

theorem slots_eq_some {m : ReceiveBuffer} {k : ℤ} {x : MessageId × Bytes} :
    slots m k = some x ↔ ∃ b, (k, b) ∈ m.pairs ∧ pending b = some x := by
  simp only [slots, Option.bind_eq_some_iff, mapGet_eq_some]

theorem cleanReceiveBuffer_cleaned (st : RmpState) (c : CleanInput) :
    Cleaned (¬ c.Quiet st.receiveBuffer) (slots st.receiveBuffer) (cleanReceiveBuffer st c).2
      (slots (cleanReceiveBuffer st c).1) := by
  constructor
  · intro k
    simp only [cleanReceiveBuffer, iterateOverSendBuffer, slots, mapGet_filterValues]
    cases hb : mapGet st.receiveBuffer k with
    | none => exact Or.inl rfl
    | some b =>
      simp only [Option.bind_some, RmpState.maintain]
      rcases maintainBufferElement_cases (c.currentTime k) (c.sendOk k)
        (st.address c.stack b.peer) b with ⟨-, he⟩ | ⟨ht, he⟩ | ⟨-, -, b', out, he, hp, -⟩
      · left
        simp [he]
      · right
        refine ⟨fun hq => ?_, by simp [he]⟩
        have := hq _ (mapGet_eq_some.1 hb)
        simp only [ht, reduceCtorEq] at this
      · left
        simp [he, hp]
  · rintro p hp
    obtain ⟨⟨k, b⟩, hkb, hp⟩ := List.mem_flatMap.1 hp
    simp only [RmpState.maintain] at hp
    rcases maintainBufferElement_cases (c.currentTime k) (c.sendOk k)
      (st.address c.stack b.peer) b with ⟨-, he⟩ | ⟨-, he⟩ | ⟨ht, ho, b', out, he, -, hout⟩
    · simp [he] at hp
    · simp [he] at hp
    · rw [he] at hp
      have hpend : pending b = some (b.id, b.message) := by simp [pending, ho]
      refine ⟨fun hq => ?_, k, b.id, b.message, slots_eq_some.2 ⟨b, hkb, hpend⟩, hout p hp⟩
      have := hq _ hkb
      simp only [ht, reduceCtorEq] at this

/-! ## The receive map as slots -/

@[simp] theorem slots_mapPut (m : ReceiveBuffer) (key : ℤ) (b : MessageHoldingBuffer Cell) :
    slots (mapPut m key b true).2 = Function.update (slots m) key (pending b) := by
  funext k
  rw [slots, mapGet_mapPut]
  by_cases hk : k = key
  · subst hk
    simp
  · simp [hk, slots]

theorem getReceiveBufferFor_slots (m : ReceiveBuffer) (src : RmpAddress)
    (fresh : MessageHoldingBuffer Cell) :
    pending (getReceiveBufferFor m src fresh).1 = slots m (rmpAddressHash src) ∧
      slots (getReceiveBufferFor m src fresh).2 = slots m := by
  unfold getReceiveBufferFor
  dsimp only
  cases h : mapGet m (rmpAddressHash src) with
  | some b => simp [slots, h]
  | none =>
    have hn : slots m (rmpAddressHash src) = none := by simp [slots, h]
    refine ⟨by simp [pending, hn], ?_⟩
    rw [slots_mapPut]
    exact Function.update_eq_self_iff.2 (by simp [pending, hn])

/-! ## Every step is a move -/

theorem sends_sendRmpDatagram {late : Prop} (ok : Bool) (hok : ok = true ∨ late)
    (dest : RmpAddress) (type : MessageType) (id : MessageId) (payload : Bytes) :
    Sends late (dest, ⟨type, id, payload⟩) (sendRmpDatagram ok dest type id payload).2 := by
  cases ok with
  | true => exact Or.inl rfl
  | false => exact Or.inr ⟨hok.resolve_left (by simp), rfl⟩

theorem sendRmpDatagram_status (ok : Bool) (dest : RmpAddress) (type : MessageType)
    (id : MessageId) :
    (sendRmpDatagram ok dest type id []).1 = -1 ↔ ok = false := by
  cases ok <;> simp [sendRmpDatagram]

theorem sendReturn_valid (st : RmpState) (occupied : Bool) (out : Output) (result : ℤ) :
    (sendReturn st occupied out result).state.Valid := by
  intro m h
  cases h

/-- The datagram `attemptSend` hands to the network. -/
def attemptOutput (st : RmpState) (o : SendInput) : Output :=
  (sendRmpDatagram o.sendOk st.sendBuffer.peer st.sendBuffer.type st.sendBuffer.id
    st.sendBuffer.message).2

theorem attemptOutput_sends (st : RmpState) (o : SendInput) (ht : st.sendBuffer.type = .data) :
    Sends (o.sendOk = false) (st.outgoing.dest, st.outgoing.datagram) (attemptOutput st o) := by
  rw [attemptOutput, ht]
  exact sends_sendRmpDatagram o.sendOk (by simp) _ _ _ _

/-- `attemptSend` reaches its wait loop, or fails and returns. -/
theorem attemptSend_cases (st : RmpState) (o : SendInput) (ht : st.sendBuffer.type = .data) :
    ((attemptSend st o).out = attemptOutput st o ∧ (attemptSend st o).ret = none ∧
        (attemptSend st o).state.view = ⟨.waiting st.outgoing, slots st.receiveBuffer⟩ ∧
        (attemptSend st o).state.Valid) ∨
      (¬ (o.setsockoptOk = true ∧ o.timestamp.isSome) ∧
        ∃ occupied, attemptSend st o = sendReturn st occupied (attemptOutput st o) (-1)) := by
  cases hs : o.setsockoptOk with
  | false =>
    right
    exact ⟨by simp, _, by simp only [attemptSend, hs, if_true]; rfl⟩
  | true =>
    cases htime : o.timestamp with
    | none =>
      right
      exact ⟨by simp, false, by simp only [attemptSend, hs, htime]; rfl⟩
    | some t =>
      left
      simp only [attemptSend, hs, htime, Bool.true_eq_false, if_false]
      refine ⟨rfl, trivial, rfl, fun m _ => ⟨ht, by simp⟩⟩

section Processing

variable (st : RmpState) (cell : Cell) (src : RmpAddress) (d : Datagram) (n : ℕ) (o : ReceiveInput)

/-- Processing a datagram leaves the message of the send buffer alone. -/
theorem processMessage_sendBuffer :
    ∃ occupied, (processMessage st cell src d n o).sendBuffer =
      { st.sendBuffer with occupied := occupied } := by
  rcases d with ⟨_ | _ | _ | _, id, payload⟩
  · refine ⟨st.sendBuffer.occupied, ?_⟩
    simp only [processMessage]
    split <;> rfl
  · simp only [processMessage]
    split
    · exact ⟨_, rfl⟩
    · split
      · exact ⟨_, rfl⟩
      · exact ⟨_, rfl⟩
  · refine ⟨st.sendBuffer.occupied, ?_⟩
    simp only [processMessage]
    split <;> rfl
  · exact ⟨_, rfl⟩

/-- Processing a DATA. -/
theorem processMessage_data (ht : d.type = .data) :
    let p := processMessage st cell src d n o
    slots p.receiveBuffer = Function.update (slots st.receiveBuffer) (rmpAddressHash src)
        (some (d.id, d.payload)) ∧
      p.out = (sendRmpDatagram o.sendOk src .ack d.id []).2 ∧ p.delivered = false ∧
      (p.status = -1 → o.sendOk = false) := by
  obtain ⟨-, hs⟩ := getReceiveBufferFor_slots st.receiveBuffer src o.fresh
  have hm : ∀ b : MessageHoldingBuffer Cell, b.occupied = true → b.id = d.id →
      b.message = d.payload →
      slots (mapPut (getReceiveBufferFor st.receiveBuffer src o.fresh).2 (rmpAddressHash src) b
        true).2 = Function.update (slots st.receiveBuffer) (rmpAddressHash src)
        (some (d.id, d.payload)) := by
    intro b ho hi hb
    rw [slots_mapPut, hs, pending, ho, hi, hb]
    rfl
  simp only [processMessage, ht]
  split
  · next h => exact ⟨hm _ rfl rfl rfl, rfl, rfl, fun _ => (sendRmpDatagram_status ..).1 h⟩
  · next h =>
    refine ⟨hm _ rfl rfl rfl, rfl, rfl, fun h' => ?_⟩
    simp only at h'
    omega

/-- Processing an ACK. -/
theorem processMessage_ack (ht : d.type = .ack) :
    let p := processMessage st cell src d n o
    p.receiveBuffer = st.receiveBuffer ∧
      p.out = (sendRmpDatagram o.sendOk src .synAck d.id []).2 ∧ p.delivered = false ∧
      (p.status = -1 → o.sendOk = false) := by
  simp only [processMessage, ht]
  split
  · next h => exact ⟨rfl, rfl, rfl, fun _ => (sendRmpDatagram_status ..).1 h⟩
  · next h =>
    refine ⟨rfl, rfl, rfl, fun h' => ?_⟩
    simp only at h'
    omega

/-- Processing the SYN_ACK of a held message. -/
theorem processMessage_synAck {bytes : Bytes} (ht : d.type = .synAck)
    (hslot : slots st.receiveBuffer (rmpAddressHash src) = some (d.id, bytes)) :
    let p := processMessage st cell src d n o
    slots p.receiveBuffer = Function.update (slots st.receiveBuffer) (rmpAddressHash src) none ∧
      p.out = [] ∧ p.delivered = true ∧ p.status = bytes.length ∧
      (d.payload.length ≤ n → p.resultBuffer.take bytes.length = bytes.take n) := by
  obtain ⟨hp, hs⟩ := getReceiveBufferFor_slots st.receiveBuffer src o.fresh
  rw [hslot, pending] at hp
  split at hp
  · next ho =>
    obtain ⟨hi, hb⟩ := Prod.mk.inj (Option.some.inj hp)
    simp only [processMessage, ht]
    rw [if_pos ⟨ho, hi.symm⟩]
    refine ⟨?_, rfl, rfl, by rw [hb], fun hn => ?_⟩
    · simp only [slots_mapPut, hs, pending]
      rfl
    · simp only [hb]
      rcases Nat.lt_or_ge n bytes.length with hlt | hle
      · have hd : d.payload.drop (bytes.take n).length = [] := by
          rw [List.drop_eq_nil_iff, List.length_take]
          omega
        rw [hd, List.append_nil, List.take_take, Nat.min_eq_right (Nat.le_of_lt hlt)]
      · rw [List.take_of_length_le hle, List.take_left']
        rfl
  · cases hp

/-- Processing a SYN_ACK that matches no held message. -/
theorem processMessage_stale (ht : d.type = .synAck)
    (hslot : ∀ bytes, slots st.receiveBuffer (rmpAddressHash src) ≠ some (d.id, bytes)) :
    let p := processMessage st cell src d n o
    slots p.receiveBuffer = slots st.receiveBuffer ∧ p.out = [] ∧ p.delivered = false ∧
      p.status = d.payload.length ∧ p.resultBuffer = d.payload := by
  obtain ⟨hp, hs⟩ := getReceiveBufferFor_slots st.receiveBuffer src o.fresh
  simp only [processMessage, ht]
  rw [if_neg]
  · exact ⟨hs, rfl, rfl, rfl, rfl⟩
  · rintro ⟨ho, hi⟩
    refine hslot (getReceiveBufferFor st.receiveBuffer src o.fresh).1.message (hp.symm.trans ?_)
    rw [pending, if_pos ho, hi]

/-- A datagram of no known type does nothing. -/
theorem processMessage_other {value : ℕ} (ht : d.type = .other value) :
    processMessage st cell src d n o =
      ⟨st.sendBuffer, st.receiveBuffer, d.payload.length, d.payload, [], false⟩ := by
  rw [processMessage, ht]

end Processing

/-- What `receive_and_process_message` has read when `recvfrom` returns a datagram. -/
def received (n : ℕ) (d : Datagram) : Datagram := { d with payload := d.payload.take n }

theorem receiveAndProcess_datagram (st : RmpState) (n : ℕ) (src : RmpAddress) (d : Datagram)
    (o : ReceiveInput) :
    receiveAndProcess st n (.datagram src d) o =
      let p := processMessage st st.recvSrcAddress.1 src (received n d) n o
      ({ st with
          sendBuffer := p.sendBuffer
          receiveBuffer := p.receiveBuffer
          live := writeSrcAddress src st.live }, some (src, received n d), p) := by
  have hstatus : ¬ (((d.payload.take n).length : ℤ) < 0) := by omega
  simp only [receiveAndProcess, receiveRmpDatagram, if_neg hstatus]
  rfl

/-- A datagram without a header is not processed. -/
theorem receiveAndProcess_runt (st : RmpState) (n : ℕ) (src : RmpAddress) (d : Datagram)
    (length : Fin 16) (o : ReceiveInput) :
    receiveAndProcess st n (.runt src d length) o =
      ({ st with live := writeSrcAddress src st.live }, some (src, d),
        ⟨st.sendBuffer, st.receiveBuffer, (length : ℤ) - 16, d.payload, [], false⟩) := by
  have hstatus : (length : ℤ) - 16 < 0 := by omega
  simp only [receiveAndProcess, receiveRmpDatagram, if_pos hstatus]

/-- The state in which `RMP_listen` returns after a datagram has been processed. -/
def listenState (st : RmpState) (p : Processed) : RmpState where
  sendBuffer := p.sendBuffer
  receiveBuffer := p.receiveBuffer
  live := []
  nextCell := st.nextCell
  call := .idle

/-- What `RMP_listen` returns after it has read a datagram. -/
theorem rmpListenReturn_datagram (st : RmpState) (len : ℕ) (src : RmpAddress) (d : Datagram)
    (o : ReceiveInput) :
    let p := processMessage st st.recvSrcAddress.1 src (received len d) len o
    ∃ result bytes delivered,
      rmpListenReturn st len (.datagram src d) o =
          ⟨listenState st p, p.out, some (.listen result src d.id bytes delivered)⟩ ∧
        (d.type ≠ .synAck → result ≤ 0 ∧ delivered = false) ∧
        (d.type = .synAck → 0 ≤ p.status →
          result = p.status ∧ bytes = p.resultBuffer.take p.status.toNat ∧
            delivered = p.delivered) := by
  intro p
  have he : rmpListenReturn st len (.datagram src d) o =
      if p.status < 0 then ⟨listenState st p, p.out, some (.listen p.status src d.id [] false)⟩
      else if d.type = .synAck then
        ⟨listenState st p, p.out,
          some (.listen p.status src d.id (p.resultBuffer.take p.status.toNat) p.delivered)⟩
      else ⟨listenState st p, p.out, some (.listen 0 src d.id [] false)⟩ := rfl
  rw [he]
  split
  · next hneg =>
    exact ⟨_, _, _, rfl, fun _ => ⟨by omega, rfl⟩, fun _ h => absurd hneg (by omega)⟩
  · split
    · next ht => exact ⟨_, _, _, rfl, fun h => absurd ht h, fun _ _ => ⟨rfl, rfl, rfl⟩⟩
    · next ht => exact ⟨_, _, _, rfl, fun _ => ⟨by omega, rfl⟩, fun h => absurd h ht⟩

/-- What `RMP_listen` returns after a datagram without a header. -/
theorem rmpListenReturn_runt (st : RmpState) (len : ℕ) (src : RmpAddress) (d : Datagram)
    (length : Fin 16) (o : ReceiveInput) :
    rmpListenReturn st len (.runt src d length) o =
      ⟨{ st with live := [], call := .idle }, [],
        some (.listen ((length : ℤ) - 16) src d.id [] false)⟩ := by
  have hstatus : (length : ℤ) - 16 < 0 := by omega
  simp only [rmpListenReturn, receiveAndProcess_runt, if_pos hstatus]

/-- `RMP_listen` returning from `recvfrom` is a move. -/
theorem rmpListenReturn_move (st : RmpState) (len : ℕ) (r : RecvOutcome) (o : ReceiveInput) :
    Move (¬ Prompt st (.recvfrom r o)) (¬ Input.Sound (.recvfrom r o))
      ⟨.listening len, slots st.receiveBuffer⟩
      (Input.read (.recvfrom r o)) (rmpListenReturn st len r o).out
      (localEvents (.recvfrom r o) (rmpListenReturn st len r o))
      (rmpListenReturn st len r o).state.view := by
  rcases r with ⟨src, d⟩ | ⟨src, d, length⟩ | _ | _
  · obtain ⟨result, bytes, delivered, he, hdel, hsyn⟩ := rmpListenReturn_datagram st len src d o
    set p := processMessage st st.recvSrcAddress.1 src (received len d) len o with hp
    rw [he]
    have hok : o.sendOk = true ∨ ¬ Prompt st (.recvfrom (.datagram src d) o) := by
      cases h : o.sendOk <;> simp [Prompt, h]
    have hview : (listenState st p).view = ⟨.idle, slots p.receiveBuffer⟩ := rfl
    simp only [localEvents, List.nil_append, hview]
    cases ht : d.type with
    | data =>
      obtain ⟨hs, ho, hd, -⟩ := processMessage_data st st.recvSrcAddress.1 src (received len d) len
        o ht
      obtain ⟨hn, rfl⟩ := hdel (by simp [ht])
      rw [hs, ho]
      exact .data ht (sends_sendRmpDatagram _ hok ..) (.listening hn)
    | ack =>
      obtain ⟨hs, ho, hd, -⟩ := processMessage_ack st st.recvSrcAddress.1 src (received len d) len
        o ht
      obtain ⟨hn, rfl⟩ := hdel (by simp [ht])
      rw [hs, ho]
      exact .ack ht (sends_sendRmpDatagram _ hok ..) (.listening hn) (by simp)
    | synAck =>
      by_cases hslot : ∃ m, slots st.receiveBuffer (rmpAddressHash src) = some (d.id, m)
      · obtain ⟨m, hslot⟩ := hslot
        obtain ⟨hs, ho, hd, hst, hb⟩ := processMessage_synAck st st.recvSrcAddress.1 src
          (received len d) len o ht hslot
        obtain ⟨rfl, rfl, rfl⟩ := hsyn ht (by rw [hp, hst]; exact Int.natCast_nonneg _)
        rw [hs, ho, hd, hst, Int.toNat_natCast, hb (List.length_take_le _ _)]
        exact .deliver ht hslot
      · obtain ⟨hs, ho, hd, hst, hb⟩ := processMessage_stale st st.recvSrcAddress.1 src
          (received len d) len o ht (fun m h => hslot ⟨m, h⟩)
        obtain ⟨rfl, rfl, rfl⟩ := hsyn ht (by rw [hp, hst]; exact Int.natCast_nonneg _)
        rw [hs, ho, hd]
        exact .stale ht (fun m h => hslot ⟨m, h⟩) (.listening (Int.le_of_eq hst))
    | other value =>
      obtain ⟨hn, rfl⟩ := hdel (by simp [ht])
      rw [hp, processMessage_other st st.recvSrcAddress.1 src (received len d) len o ht]
      exact .other ht (.listening hn)
  · rw [rmpListenReturn_runt]
    exact .deaf (Or.inr Bool.false_ne_true) (by omega)
  · exact .deaf (Or.inl id) (show rmpETimeout < 0 by decide)
  · exact .deaf (Or.inr Bool.false_ne_true) (show (-1 : ℤ) < 0 by decide)

/-! ## The wait loop of `attemptSend` -/

/-- A loop that has a `recv_src_address` keeps it when `recvfrom` writes to it. -/
theorem writeSrcAddress_ne_nil {live : List (Cell × RmpAddress)} (h : live ≠ []) (src : RmpAddress) :
    writeSrcAddress src live ≠ [] := by
  obtain ⟨⟨cell, a⟩, live, rfl⟩ := List.exists_cons_of_ne_nil h
  simp [writeSrcAddress]

/-- The timer has expired and no retries are left. -/
theorem attemptSendLoop_expired (st : RmpState) (frame : SendFrame) {now : Timeval} (c : CleanInput)
    (o : SendInput)
    (htime : intervalGreaterThanValue st.sendBuffer.timestamp now ackTimeoutUsec = true)
    (hretries : st.sendBuffer.retriesRemaining = 0) :
    attemptSendLoop st frame (some now) c o = sendReturn st false [] rmpETimeout := by
  simp only [attemptSendLoop, if_pos htime, if_pos hretries]

/-- The timer has expired and the DATA is sent again. -/
theorem attemptSendLoop_retry (st : RmpState) (frame : SendFrame) {now : Timeval} (c : CleanInput)
    (o : SendInput)
    (htime : intervalGreaterThanValue st.sendBuffer.timestamp now ackTimeoutUsec = true)
    (hretries : st.sendBuffer.retriesRemaining ≠ 0) :
    attemptSendLoop st frame (some now) c o = attemptSend { st with
      sendBuffer := { st.sendBuffer with
        retriesRemaining := st.sendBuffer.retriesRemaining - 1 } } o := by
  simp only [attemptSendLoop, if_pos htime, if_neg hretries]

/-- The timer has not expired. -/
theorem attemptSendLoop_early (st : RmpState) (frame : SendFrame) {now : Timeval} (c : CleanInput)
    (o : SendInput)
    (htime : ¬ intervalGreaterThanValue st.sendBuffer.timestamp now ackTimeoutUsec = true) :
    attemptSendLoop st frame (some now) c o =
      ⟨{ st with receiveBuffer := (cleanReceiveBuffer st c).1, call := .polling frame },
        (cleanReceiveBuffer st c).2, none⟩ := by
  simp only [attemptSendLoop, if_neg htime]

/-- What a round of the wait loop does when `recvfrom` has timed out: it looks at what the locals
still hold. -/
theorem attemptSendReceive_timeout (st : RmpState) (frame : SendFrame) (o : ReceiveInput) :
    attemptSendReceive st frame .timeout o =
      if st.recvSrcAddress.2 ≠ st.sendBuffer.peer ∨ frame.recvType ≠ .ack ∨
          frame.recvId ≠ st.sendBuffer.id then
        ⟨{ st with call := .sending frame }, [], none⟩
      else sendReturn st false [] (if o.resetOk then frame.numBytesSent else -1) :=
  rfl

/-- What a round of the wait loop does after it has read a datagram. -/
theorem attemptSendReceive_datagram (st : RmpState) (frame : SendFrame) (src : RmpAddress)
    (d : Datagram) (o : ReceiveInput) (hlive : st.live ≠ []) :
    let p := processMessage st st.recvSrcAddress.1 src (received maxMessageSize d) maxMessageSize o
    let st' : RmpState := { st with
      sendBuffer := p.sendBuffer, receiveBuffer := p.receiveBuffer
      live := writeSrcAddress src st.live }
    let frame' : SendFrame := { frame with recvType := d.type, recvId := d.id }
    attemptSendReceive st frame (.datagram src d) o =
      if p.status = -1 then sendReturn st' false p.out (-1)
      else if src ≠ p.sendBuffer.peer ∨ d.type ≠ .ack ∨ d.id ≠ p.sendBuffer.id then
        ⟨{ st' with call := .sending frame' }, p.out, none⟩
      else sendReturn st' false p.out (if o.resetOk then frame.numBytesSent else -1) := by
  intro p st' frame'
  obtain ⟨⟨cell, a⟩, live, hl⟩ := List.exists_cons_of_ne_nil hlive
  have hsrc : st'.recvSrcAddress.2 = src := by
    simp only [st', RmpState.recvSrcAddress, hl]
    rfl
  conv_lhs => rw [attemptSendReceive, receiveAndProcess_datagram]
  change (if p.status = -1 then _ else if st'.recvSrcAddress.2 ≠ _ ∨ _ then _ else _) = _
  rw [hsrc]
  rfl

/-- The three ways a round of the wait loop ends after it has read a datagram: with an error, with
another round, and with the ACK waited for. -/
theorem attemptSendReceive_cases (st : RmpState) (frame : SendFrame) (src : RmpAddress)
    (d : Datagram) (o : ReceiveInput) (htype : st.sendBuffer.type = .data)
    (hlive : st.live ≠ []) :
    let p := processMessage st st.recvSrcAddress.1 src (received maxMessageSize d) maxMessageSize o
    let s := attemptSendReceive st frame (.datagram src d) o
    let es := localEvents (.recvfrom (.datagram src d) o) s
    s.out = p.out ∧ s.state.Valid ∧
      ((p.status = -1 ∧ s.state.view = ⟨.idle, slots p.receiveBuffer⟩ ∧
          es = [.sent st.outgoing (-1)]) ∨
        (p.status ≠ -1 ∧ (d.type = .ack → ¬ (st.outgoing.dest = src ∧ st.outgoing.id = d.id)) ∧
          s.state.view = ⟨.waiting st.outgoing, slots p.receiveBuffer⟩ ∧ es = []) ∨
        (d.type = .ack ∧ st.outgoing.dest = src ∧ st.outgoing.id = d.id ∧
          s.state.view = ⟨.idle, slots p.receiveBuffer⟩ ∧
          ∃ result, es = [.sent st.outgoing result])) := by
  intro p s es
  have hs := attemptSendReceive_datagram st frame src d o hlive
  obtain ⟨occupied, hsb⟩ := processMessage_sendBuffer st st.recvSrcAddress.1 src
    (received maxMessageSize d) maxMessageSize o
  -- the send buffer still names the message being sent, whatever happened to `occupied`
  have hout : ∀ st' : RmpState, (∃ b, st'.sendBuffer = { p.sendBuffer with occupied := b }) →
      st'.outgoing = st.outgoing := by
    rintro st' ⟨b, hb⟩
    simp only [RmpState.outgoing, hb, p, hsb]
  have hes : es = localEvents (.recvfrom (.datagram src d) o) s := rfl
  change s = _ at hs
  dsimp only at hs
  split at hs
  · next hst =>
    rw [hes, hs]
    refine ⟨rfl, sendReturn_valid _ _ _ _, Or.inl ⟨hst, rfl, ?_⟩⟩
    exact congrArg (fun m => [LocalEvent.sent m (-1)]) (hout _ ⟨false, rfl⟩)
  · next hst =>
    split at hs
    · next hne =>
      rw [hes, hs]
      refine ⟨rfl, fun _ _ => ⟨?_, writeSrcAddress_ne_nil hlive src⟩, Or.inr (Or.inl ⟨hst, ?_, ?_, rfl⟩)⟩
      · simp only [hsb, htype]
      · rintro ht ⟨hd, hi⟩
        simp only [hsb] at hne
        rcases hne with h | h | h
        · exact h hd.symm
        · exact h ht
        · exact h hi.symm
      · exact congrArg (fun m => View.mk (.waiting m) _) (hout _ ⟨p.sendBuffer.occupied, rfl⟩)
    · next heq =>
      simp only [ne_eq, not_or, not_not, hsb] at heq
      obtain ⟨hd, ht, hi⟩ := heq
      rw [hes, hs]
      refine ⟨rfl, sendReturn_valid _ _ _ _, Or.inr (Or.inr ⟨ht, hd.symm, hi.symm, rfl,
        if o.resetOk then frame.numBytesSent else -1, ?_⟩)⟩
      exact congrArg (fun m => [LocalEvent.sent m _]) (hout _ ⟨false, rfl⟩)

/-- What a round of the wait loop does after a datagram without a header: nothing is processed, but
the loop looks at its source and at what its header looks like. -/
theorem attemptSendReceive_runt (st : RmpState) (frame : SendFrame) (src : RmpAddress)
    (d : Datagram) (length : Fin 16) (o : ReceiveInput) (hlive : st.live ≠ []) :
    let st' : RmpState := { st with live := writeSrcAddress src st.live }
    let frame' : SendFrame := { frame with recvType := d.type, recvId := d.id }
    attemptSendReceive st frame (.runt src d length) o =
      if (length : ℤ) - 16 = -1 then sendReturn st' false [] (-1)
      else if src ≠ st.sendBuffer.peer ∨ d.type ≠ .ack ∨ d.id ≠ st.sendBuffer.id then
        ⟨{ st' with call := .sending frame' }, [], none⟩
      else sendReturn st' false [] (if o.resetOk then frame.numBytesSent else -1) := by
  intro st' frame'
  obtain ⟨⟨cell, a⟩, live, hl⟩ := List.exists_cons_of_ne_nil hlive
  have hsrc : st'.recvSrcAddress.2 = src := by
    simp only [st', RmpState.recvSrcAddress, hl]
    rfl
  conv_lhs => rw [attemptSendReceive, receiveAndProcess_runt]
  change (if _ then _ else if st'.recvSrcAddress.2 ≠ _ ∨ _ then _ else _) = _
  rw [hsrc]

/-- The wait loop of `attemptSend` reading a datagram is a move. -/
theorem attemptSendReceive_datagram_move (st : RmpState) (frame : SendFrame) (src : RmpAddress)
    (d : Datagram) (o : ReceiveInput) (htype : st.sendBuffer.type = .data)
    (hlive : st.live ≠ []) :
    Move (¬ Prompt st (.recvfrom (.datagram src d) o)) (¬ Input.Sound (.recvfrom (.datagram src d) o))
      ⟨.waiting st.outgoing, slots st.receiveBuffer⟩
        (some (src, d)) (attemptSendReceive st frame (.datagram src d) o).out
        (localEvents (.recvfrom (.datagram src d) o)
          (attemptSendReceive st frame (.datagram src d) o))
        (attemptSendReceive st frame (.datagram src d) o).state.view ∧
      (attemptSendReceive st frame (.datagram src d) o).state.Valid := by
  obtain ⟨hout, hvalid, hcases⟩ := attemptSendReceive_cases st frame src d o htype hlive
  refine ⟨?_, hvalid⟩
  rw [hout]
  have hok : o.sendOk = true ∨ ¬ Prompt st (.recvfrom (.datagram src d) o) := by
    cases h : o.sendOk <;> simp [Prompt, h]
  have hlate : o.sendOk = false → ¬ Prompt st (.recvfrom (.datagram src d) o) := by
    intro h
    simp [Prompt, h]
  cases ht : d.type with
  | data =>
    obtain ⟨hs, ho, -, hf⟩ := processMessage_data st st.recvSrcAddress.1 src
      (received maxMessageSize d) maxMessageSize o ht
    rw [ho]
    rcases hcases with ⟨hst, hv, he⟩ | ⟨-, -, hv, he⟩ | ⟨ht', -⟩
    · rw [hv, he, hs]
      exact .data ht (sends_sendRmpDatagram _ hok ..) (.failed (hlate (hf hst)))
    · rw [hv, he, hs]
      exact .data ht (sends_sendRmpDatagram _ hok ..) .waiting
    · simp [ht] at ht'
  | ack =>
    obtain ⟨hs, ho, -, hf⟩ := processMessage_ack st st.recvSrcAddress.1 src
      (received maxMessageSize d) maxMessageSize o ht
    rw [ho]
    rcases hcases with ⟨hst, hv, he⟩ | ⟨-, hne, hv, he⟩ | ⟨-, hd, hi, hv, result, he⟩
    · rw [hv, he, hs]
      exact .ack ht (sends_sendRmpDatagram _ hok ..) (.failed (hlate (hf hst))) (by simp)
    · rw [hv, he, hs]
      refine .ack ht (sends_sendRmpDatagram _ hok ..) .waiting ?_
      rintro m ⟨⟩
      exact hne ht
    · rw [hv, he, hs]
      exact .acked ht (sends_sendRmpDatagram _ hok ..) hd hi
  | synAck =>
    by_cases hslot : ∃ m, slots st.receiveBuffer (rmpAddressHash src) = some (d.id, m)
    · obtain ⟨m, hslot⟩ := hslot
      obtain ⟨hs, ho, -, hst', -⟩ := processMessage_synAck st st.recvSrcAddress.1 src
        (received maxMessageSize d) maxMessageSize o ht hslot
      rw [ho]
      rcases hcases with ⟨hst, -⟩ | ⟨-, -, hv, he⟩ | ⟨ht', -⟩
      · omega
      · rw [hv, he, hs]
        exact .consume ht hslot
      · simp [ht] at ht'
    · have hmiss : ∀ m, slots st.receiveBuffer (rmpAddressHash src) ≠ some (d.id, m) :=
        fun m h => hslot ⟨m, h⟩
      obtain ⟨hs, ho, -, hst', -⟩ := processMessage_stale st st.recvSrcAddress.1 src
        (received maxMessageSize d) maxMessageSize o ht hmiss
      rw [ho]
      rcases hcases with ⟨hst, -⟩ | ⟨-, -, hv, he⟩ | ⟨ht', -⟩
      · omega
      · rw [hv, he, hs]
        exact .stale ht hmiss .waiting
      · simp [ht] at ht'
  | other value =>
    rw [processMessage_other st st.recvSrcAddress.1 src (received maxMessageSize d) maxMessageSize o
      ht] at hcases ⊢
    rcases hcases with ⟨hst, -⟩ | ⟨-, -, hv, he⟩ | ⟨ht', -⟩
    · simp only at hst
      omega
    · rw [hv, he]
      exact .other ht .waiting
    · simp [ht] at ht'

/-- The wait loop of `attemptSend` returning from `recvfrom` is a move. -/
theorem attemptSendReceive_move (st : RmpState) (frame : SendFrame) (r : RecvOutcome)
    (o : ReceiveInput) (htype : st.sendBuffer.type = .data) (hlive : st.live ≠ []) :
    Move (¬ Prompt st (.recvfrom r o)) (¬ Input.Sound (.recvfrom r o))
      ⟨.waiting st.outgoing, slots st.receiveBuffer⟩
        (Input.read (.recvfrom r o)) (attemptSendReceive st frame r o).out
        (localEvents (.recvfrom r o) (attemptSendReceive st frame r o))
        (attemptSendReceive st frame r o).state.view ∧
      (attemptSendReceive st frame r o).state.Valid := by
  rcases r with ⟨src, d⟩ | ⟨src, d, length⟩ | _ | _
  · exact attemptSendReceive_datagram_move st frame src d o htype hlive
  · -- a datagram without a header: the loop goes on, or leaves on what the header looks like
    have hf : ¬ Input.Sound (.recvfrom (.runt src d length) o) := Bool.false_ne_true
    rw [attemptSendReceive_runt st frame src d length o hlive]
    split
    · exact ⟨.giveUp (Or.inr hf) (Or.inl rfl), sendReturn_valid _ _ _ _⟩
    · split
      · exact ⟨.tidy ⟨fun _ => Or.inl rfl, by simp⟩,
          fun _ _ => ⟨htype, writeSrcAddress_ne_nil hlive src⟩⟩
      · exact ⟨.giveUp (Or.inr hf) (Or.inl rfl), sendReturn_valid _ _ _ _⟩
  · -- `recvfrom` has timed out: the loop goes on, or leaves on what the locals still hold
    have hl : ¬ Prompt st (.recvfrom .timeout o) := id
    rw [attemptSendReceive_timeout]
    split
    · exact ⟨.resend hl (Or.inr ⟨hl, rfl⟩), fun _ _ => ⟨htype, hlive⟩⟩
    · exact ⟨.giveUp (Or.inl hl) (Or.inl rfl), sendReturn_valid _ _ _ _⟩
  · exact ⟨.giveUp (Or.inr Bool.false_ne_true) (Or.inl rfl), sendReturn_valid _ _ _ _⟩

/-- The first part of `attemptSend` is a move, of a process that calls `RMP_sendTo` or of one that
retries. -/
theorem attemptSend_move (st : RmpState) (o : SendInput) (late faulty : Prop)
    (htype : st.sendBuffer.type = .data) (hl : o.sendOk = false → late)
    (hf : ¬ (o.setsockoptOk = true ∧ o.timestamp.isSome) → faulty) :
    Sends late (st.outgoing.dest, st.outgoing.datagram) (attemptSend st o).out ∧
      (attemptSend st o).state.Valid ∧
      (((attemptSend st o).ret = none ∧
          (attemptSend st o).state.view = ⟨.waiting st.outgoing, slots st.receiveBuffer⟩) ∨
        (faulty ∧ (attemptSend st o).ret = some (.sendTo (-1)) ∧
          (attemptSend st o).state.outgoing = st.outgoing ∧
          (attemptSend st o).state.view = ⟨.idle, slots st.receiveBuffer⟩)) := by
  have hsends : Sends late (st.outgoing.dest, st.outgoing.datagram) (attemptOutput st o) := by
    rcases attemptOutput_sends st o htype with h | ⟨hb, h⟩
    · exact Or.inl h
    · exact Or.inr ⟨hl hb, h⟩
  rcases attemptSend_cases st o htype with ⟨ho, hr, hv, hval⟩ | ⟨hbad, b, he⟩
  · exact ⟨ho ▸ hsends, hval, Or.inl ⟨hr, hv⟩⟩
  · rw [he]
    exact ⟨hsends, sendReturn_valid _ _ _ _,
      Or.inr ⟨hf hbad, rfl, rfl, rfl⟩⟩

/-- Cleaning does not depend on which local variables are live. -/
theorem cleaned_of_receiveBuffer {st st' : RmpState} {c : CleanInput} {late : Prop}
    (h : st'.receiveBuffer = st.receiveBuffer) (hl : ¬ c.Quiet st.receiveBuffer → late) :
    Cleaned late (slots st.receiveBuffer) (cleanReceiveBuffer st' c).2
      (slots (cleanReceiveBuffer st' c).1) := by
  have hc := cleanReceiveBuffer_cleaned st' c
  rw [h] at hc
  exact ⟨fun k => (hc.kept k).imp id (fun ⟨h₁, h₂⟩ => ⟨hl h₁, h₂⟩),
    fun p hp => ⟨hl (hc.acks p hp).1, (hc.acks p hp).2⟩⟩

/-- The wait loop of `attemptSend` up to `recvfrom` is a move. -/
theorem attemptSendLoop_move (st : RmpState) (frame : SendFrame) (currentTime : Option Timeval)
    (c : CleanInput) (o : SendInput) (htype : st.sendBuffer.type = .data) (hlive : st.live ≠ []) :
    Move (¬ Prompt st (.loop currentTime c o)) (¬ Input.Sound (.loop currentTime c o))
      ⟨.waiting st.outgoing, slots st.receiveBuffer⟩ none
        (attemptSendLoop st frame currentTime c o).out
        (localEvents (.loop currentTime c o) (attemptSendLoop st frame currentTime c o))
        (attemptSendLoop st frame currentTime c o).state.view ∧
      (attemptSendLoop st frame currentTime c o).state.Valid := by
  cases currentTime with
  | none =>
    have hf : ¬ Input.Sound (.loop none c o) := fun h => by simp [Input.Sound] at h
    exact ⟨.giveUp (Or.inr hf) (Or.inl rfl), sendReturn_valid _ _ _ _⟩
  | some now =>
    by_cases htime : intervalGreaterThanValue st.sendBuffer.timestamp now ackTimeoutUsec = true
    · have hl : ¬ Prompt st (.loop (some now) c o) := by
        rintro ⟨hq, -⟩
        simp [htime] at hq
      by_cases hretries : st.sendBuffer.retriesRemaining = 0
      · rw [attemptSendLoop_expired st frame c o htime hretries]
        exact ⟨.giveUp (Or.inl hl) (Or.inl rfl), sendReturn_valid _ _ _ _⟩
      · rw [attemptSendLoop_retry st frame c o htime hretries]
        obtain ⟨hs, hval, ⟨hr, hview⟩ | ⟨-, hr, ho, hview⟩⟩ := attemptSend_move
          { st with
            sendBuffer := { st.sendBuffer with
              retriesRemaining := st.sendBuffer.retriesRemaining - 1 } } o
          (¬ Prompt st (.loop (some now) c o)) True htype (fun _ => hl) (fun _ => trivial)
        · refine ⟨?_, hval⟩
          simp only [localEvents, hr, hview]
          exact .resend hl hs
        · refine ⟨?_, hval⟩
          simp only [localEvents, hr, hview, ho]
          exact .giveUp (Or.inl hl) (hs.symm.imp (fun h => h.2) fun h => ⟨hl, h⟩)
    · rw [attemptSendLoop_early st frame c o htime]
      exact ⟨.tidy (cleaned_of_receiveBuffer rfl fun hq h => hq h.2), fun _ _ => ⟨htype, hlive⟩⟩

/-- **Every step of a process is a move**, and keeps the process valid. -/
theorem rmpStep_move {st : RmpState} {i : Input} {r : StepResult} (hv : st.Valid)
    (h : rmpStep st i = some r) :
    Move (¬ Prompt st i) (¬ i.Sound) st.view i.read r.out (localEvents i r) r.state.view ∧
      r.state.Valid := by
  cases i with
  | rmpListen len a c =>
    cases hcall : st.call <;> simp only [rmpStep, hcall, reduceCtorEq, Option.some.injEq] at h
    subst h
    rw [RmpState.view, RmpState.mode, hcall]
    exact ⟨.listen (cleaned_of_receiveBuffer rfl id), fun m h => by cases h⟩
  | rmpSendTo dest buffer newId o =>
    cases hcall : st.call <;> simp only [rmpStep, hcall, reduceCtorEq, Option.some.injEq] at h
    subst h
    rw [RmpState.view, RmpState.mode, hcall]
    obtain ⟨hs, hval, ⟨hr, hview⟩ | ⟨hf, hr, ho, hview⟩⟩ := attemptSend_move
      { st with
        sendBuffer := { st.sendBuffer with
          occupied := true, type := .data, id := newId, message := buffer
          peer := dest, retriesRemaining := numRetries } } o
      (¬ Prompt st (.rmpSendTo dest buffer newId o))
      (¬ Input.Sound (.rmpSendTo dest buffer newId o)) rfl (by simp [Prompt]) id
    · refine ⟨?_, hval⟩
      simp only [localEvents, rmpSendTo, hr, hview]
      exact .call hs
    · refine ⟨?_, hval⟩
      simp only [localEvents, rmpSendTo, hr, hview, ho]
      exact .callFailed hf hs
  | loop currentTime c o =>
    cases hcall : st.call <;> simp only [rmpStep, hcall, reduceCtorEq, Option.some.injEq] at h
    subst h
    rename_i frame
    have hmode : st.mode = .waiting st.outgoing := by rw [RmpState.mode, hcall]
    obtain ⟨htype, hlive⟩ := hv _ hmode
    rw [RmpState.view, hmode]
    exact attemptSendLoop_move st frame currentTime c o htype hlive
  | recvfrom r o =>
    cases hcall : st.call <;> simp only [rmpStep, hcall, reduceCtorEq, Option.some.injEq] at h
    · subst h
      rename_i len
      rw [RmpState.view, RmpState.mode, hcall]
      refine ⟨rmpListenReturn_move st len r o, fun m hm => ?_⟩
      rcases r with ⟨src, d⟩ | ⟨src, d, length⟩ | _ | _
      · obtain ⟨_, _, _, he, -⟩ := rmpListenReturn_datagram st len src d o
        rw [he] at hm
        cases hm
      · rw [rmpListenReturn_runt] at hm
        cases hm
      · cases hm
      · cases hm
    · subst h
      rename_i frame
      have hmode : st.mode = .waiting st.outgoing := by rw [RmpState.mode, hcall]
      obtain ⟨htype, hlive⟩ := hv _ hmode
      rw [RmpState.view, hmode]
      exact attemptSendReceive_move st frame r o htype hlive

end Dchat.RMP
