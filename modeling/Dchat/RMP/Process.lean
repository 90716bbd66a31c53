import Dchat.RMP.MessageBuffers

/-!
# One process of the RMP library

The functions of `RMP/rmp.c` over the state of one process. The process is single-threaded and
blocks in two places only: in `recvfrom` inside `RMP_listen` (`Call.listening`), and in the wait
loop of `attemptSend` (`Call.sending` at the top of the loop, `Call.polling` in `recvfrom`). A
function is cut at these points, and `rmpStep` runs a process from one of them to the next.

Everything the operating system decides is an input: clock readings, the outcome of `recvfrom`,
`sendto` and `setsockopt`, the contents of fresh heap and stack memory. `malloc` succeeds.
-/

namespace Dchat.RMP

open Structures

/-- The local variables of one call of `attemptSend` besides `recv_src_address`. -/
structure SendFrame where
  numBytesSent : ℤ
  recvType : MessageType
  recvId : MessageId
  deriving DecidableEq

/-- Where the process is. -/
inductive Call
  /-- Outside the library. -/
  | idle
  /-- In `recvfrom`, called by `RMP_listen` with a buffer of `len` bytes. -/
  | listening (len : ℕ)
  /-- At the top of the wait loop of `attemptSend`. -/
  | sending (frame : SendFrame)
  /-- In `recvfrom`, called by the wait loop of `attemptSend`. -/
  | polling (frame : SendFrame)
  deriving DecidableEq

/-- The state of a process: the static send buffer and receive map, the variables
`recv_src_address` of the calls that have not returned (innermost first), the number of the next
such variable, and where the process is. -/
structure RmpState where
  sendBuffer : MessageHoldingBuffer RmpAddress
  receiveBuffer : ReceiveBuffer
  live : List (Cell × RmpAddress)
  nextCell : Cell
  call : Call

/-- What the operating system gives one run of `clean_receive_buffer`: for the buffer of each key
the time read and whether its `sendto` succeeds, and what the stack holds where the variables of
calls that have returned used to be. -/
structure CleanInput where
  currentTime : ℤ → Timeval
  sendOk : ℤ → Bool
  stack : Cell → RmpAddress

/-- What the operating system gives the first part of `attemptSend`: whether `sendto` and
`setsockopt` succeed, the time read (`none` when `gettimeofday` fails), and what the local
variables hold before they are written. -/
structure SendInput where
  sendOk : Bool
  setsockoptOk : Bool
  timestamp : Option Timeval
  recvSrcAddress : RmpAddress
  recvType : MessageType
  recvId : MessageId

/-- What the operating system gives the part after `recvfrom`: the time read for a stored message,
whether `sendto` and the closing `setsockopt` succeed, and fresh heap memory. -/
structure ReceiveInput where
  timestamp : Timeval
  sendOk : Bool
  resetOk : Bool
  fresh : MessageHoldingBuffer Cell

/-- One step of a process: a library call, one more round of the wait loop, or `recvfrom`
returning. -/
inductive Input
  | rmpListen (len : ℕ) (recvSrcAddress : RmpAddress) (c : CleanInput)
  | rmpSendTo (destination : RmpAddress) (buffer : Bytes) (newId : MessageId) (o : SendInput)
  | loop (currentTime : Option Timeval) (c : CleanInput) (o : SendInput)
  | recvfrom (r : RecvOutcome) (o : ReceiveInput)

/-- A return of `RMP_sendTo` with its result, or of `RMP_listen` with its result, the source
address it passes back, the id and type of the datagram it read, the bytes of the caller's buffer
that the result covers, and whether it handed out the message of a receive buffer. -/
inductive Return
  | sendTo (result : ℤ)
  | listen (result : ℤ) (src : RmpAddress) (id : MessageId) (bytes : Bytes) (delivered : Bool)
  deriving DecidableEq

/-- The datagrams a step hands to the network, with their destinations. -/
abbrev Output := List (RmpAddress × Datagram)

/-- The result of a step. -/
structure StepResult where
  state : RmpState
  out : Output
  ret : Option Return

/-! ## Cleaning the receive map -/

/-- The address a cell holds: that of a call still running, or whatever the stack holds. -/
def RmpState.address (st : RmpState) (stack : Cell → RmpAddress) (c : Cell) : RmpAddress :=
  match st.live.find? fun p => p.1 = c with
  | some p => p.2
  | none => stack c

/-- `maintain_buffer_element`: the status, the buffer as it is left and the ACK sent again.
`peerAddress` is the address that `buffer->peer` points to. -/
def maintainBufferElement (currentTime : Timeval) (sendOk : Bool) (peerAddress : RmpAddress)
    (buffer : MessageHoldingBuffer Cell) : ℤ × MessageHoldingBuffer Cell × Output :=
  if intervalGreaterThanValue buffer.timestamp currentTime ackTimeoutUsec then
    if buffer.retriesRemaining = 0 ∨ buffer.occupied = false then (-1, buffer, [])
    else
      (0, { buffer with
              retriesRemaining := buffer.retriesRemaining - 1
              timestamp := currentTime },
        (sendRmpDatagram sendOk peerAddress .ack buffer.id []).2)
  else (0, buffer, [])

/-- `maintain_buffer_element` on the buffer of a key. -/
def RmpState.maintain (st : RmpState) (c : CleanInput) (key : ℤ)
    (buffer : MessageHoldingBuffer Cell) : ℤ × MessageHoldingBuffer Cell × Output :=
  maintainBufferElement (c.currentTime key) (c.sendOk key) (st.address c.stack buffer.peer) buffer

/-- `clean_receive_buffer`: the receive map as it is left, and the ACKs sent again. -/
def cleanReceiveBuffer (st : RmpState) (c : CleanInput) : ReceiveBuffer × Output :=
  (iterateOverSendBuffer st.receiveBuffer fun key buffer =>
      let (status, buffer', _) := st.maintain c key buffer
      (status, buffer'),
    st.receiveBuffer.pairs.flatMap fun (key, buffer) => (st.maintain c key buffer).2.2)

/-! ## Receiving and processing a datagram -/

/-- The part of a process that processing a datagram changes, the status returned, the contents of
the result buffer, the datagrams sent, and whether the result is the message of a receive buffer. -/
structure Processed where
  sendBuffer : MessageHoldingBuffer RmpAddress
  receiveBuffer : ReceiveBuffer
  status : ℤ
  resultBuffer : Bytes
  out : Output
  delivered : Bool

/-- The `switch` of `receive_and_process_message` on a datagram already read into a buffer of
`bufferSize` bytes; `src` is the source just written to the variable `cell`. -/
def processMessage (st : RmpState) (cell : Cell) (src : RmpAddress) (d : Datagram)
    (bufferSize : ℕ) (o : ReceiveInput) : Processed :=
  let numBytesReceived : ℤ := d.payload.length
  match d.type with
  | .data =>
    let (messageBuffer, m) := getReceiveBufferFor st.receiveBuffer src o.fresh
    let messageBuffer := { messageBuffer with
      occupied := true, type := d.type, id := d.id, message := d.payload
      timestamp := o.timestamp, peer := cell, retriesRemaining := numRetries }
    let m := (mapPut m (rmpAddressHash src) messageBuffer true).2
    let (status, out) := sendRmpDatagram o.sendOk src .ack d.id []
    if status = -1 then ⟨st.sendBuffer, m, -1, d.payload, out, false⟩
    else ⟨st.sendBuffer, m, numBytesReceived, d.payload, out, false⟩
  | .ack =>
    let (status, out) := sendRmpDatagram o.sendOk src .synAck d.id []
    if status = -1 then ⟨st.sendBuffer, st.receiveBuffer, -1, d.payload, out, false⟩
    else
      let sendBuffer :=
        if st.sendBuffer.occupied = true ∧ d.id = st.sendBuffer.id then
          { st.sendBuffer with occupied := false }
        else st.sendBuffer
      ⟨sendBuffer, st.receiveBuffer, numBytesReceived, d.payload, out, false⟩
  | .synAck =>
    let (messageBuffer, m) := getReceiveBufferFor st.receiveBuffer src o.fresh
    if messageBuffer.occupied = true ∧ d.id = messageBuffer.id then
      let copied := messageBuffer.message.take bufferSize
      let m := (mapPut m (rmpAddressHash src) { messageBuffer with occupied := false } true).2
      ⟨st.sendBuffer, m, messageBuffer.message.length, copied ++ d.payload.drop copied.length, [],
        true⟩
    else ⟨st.sendBuffer, m, numBytesReceived, d.payload, [], false⟩
  | .other _ => ⟨st.sendBuffer, st.receiveBuffer, numBytesReceived, d.payload, [], false⟩

/-- Write the variable `recv_src_address` of the innermost call. -/
def writeSrcAddress (src : RmpAddress) : List (Cell × RmpAddress) → List (Cell × RmpAddress)
  | [] => []
  | (cell, _) :: live => (cell, src) :: live

/-- The variable `recv_src_address` of the innermost call, with its number. -/
def RmpState.recvSrcAddress (st : RmpState) : Cell × RmpAddress := st.live.headD (0, ⟨0, 0⟩)

/-- `receive_and_process_message` from `recvfrom` on: the state after it, with the source address
written, the header read (after a datagram) and the rest as in `Processed`. -/
def receiveAndProcess (st : RmpState) (bufferSize : ℕ) (r : RecvOutcome) (o : ReceiveInput) :
    RmpState × Option (RmpAddress × Datagram) × Processed :=
  match receiveRmpDatagram bufferSize r with
  | (status, none) => (st, none, ⟨st.sendBuffer, st.receiveBuffer, status, [], [], false⟩)
  | (status, some (src, d)) =>
    let p := if status < 0 then ⟨st.sendBuffer, st.receiveBuffer, status, d.payload, [], false⟩
      else processMessage st st.recvSrcAddress.1 src d bufferSize o
    ({ st with
        sendBuffer := p.sendBuffer
        receiveBuffer := p.receiveBuffer
        live := writeSrcAddress src st.live }, some (src, d), p)

/-! ## `RMP_listen` -/

/-- `RMP_listen` up to `recvfrom`. -/
def rmpListen (st : RmpState) (len : ℕ) (recvSrcAddress : RmpAddress) (c : CleanInput) :
    StepResult :=
  let st := { st with live := [(st.nextCell, recvSrcAddress)], nextCell := st.nextCell + 1 }
  let (m, out) := cleanReceiveBuffer st c
  ⟨{ st with receiveBuffer := m, call := .listening len }, out, none⟩

/-- `RMP_listen` from `recvfrom` on. -/
def rmpListenReturn (st : RmpState) (len : ℕ) (r : RecvOutcome) (o : ReceiveInput) : StepResult :=
  let (st, header, p) := receiveAndProcess st len r o
  let idle := { st with live := [], call := .idle }
  match header with
  | none => ⟨idle, p.out, some (.listen p.status ⟨0, 0⟩ 0 [] false)⟩
  | some (src, d) =>
    if p.status < 0 then ⟨idle, p.out, some (.listen p.status src d.id [] false)⟩
    else if d.type = .synAck then
      ⟨idle, p.out,
        some (.listen p.status src d.id (p.resultBuffer.take p.status.toNat) p.delivered)⟩
    else ⟨idle, p.out, some (.listen 0 src d.id [] false)⟩

/-! ## `RMP_sendTo` -/

/-- Leave `attemptSend`, and `RMP_sendTo` with it, with a result. -/
def sendReturn (st : RmpState) (occupied : Bool) (out : Output) (result : ℤ) : StepResult :=
  ⟨{ st with
      sendBuffer := { st.sendBuffer with occupied := occupied }
      live := []
      call := .idle }, out, some (.sendTo result)⟩

/-- `attemptSend` up to its wait loop. -/
def attemptSend (st : RmpState) (o : SendInput) : StepResult :=
  let outgoingBuffer := st.sendBuffer
  let (numBytesSent, out) := sendRmpDatagram o.sendOk outgoingBuffer.peer outgoingBuffer.type
    outgoingBuffer.id outgoingBuffer.message
  if o.setsockoptOk = false then sendReturn st outgoingBuffer.occupied out (-1)
  else
    match o.timestamp with
    | none => sendReturn st false out (-1)
    | some t =>
      ⟨{ st with
          sendBuffer := { outgoingBuffer with timestamp := t }
          live := (st.nextCell, o.recvSrcAddress) :: st.live
          nextCell := st.nextCell + 1
          call := .sending ⟨numBytesSent, o.recvType, o.recvId⟩ }, out, none⟩

/-- `RMP_sendTo` up to the wait loop of `attemptSend`. -/
def rmpSendTo (st : RmpState) (destination : RmpAddress) (buffer : Bytes) (newId : MessageId)
    (o : SendInput) : StepResult :=
  attemptSend { st with
    sendBuffer := { st.sendBuffer with
      occupied := true, type := .data, id := newId, message := buffer
      peer := destination, retriesRemaining := numRetries } } o

/-- One round of the wait loop of `attemptSend` up to `recvfrom`: leave on a failing clock, retry
or give up when the timer has expired, and clean the receive map otherwise. -/
def attemptSendLoop (st : RmpState) (frame : SendFrame) (currentTime : Option Timeval)
    (c : CleanInput) (o : SendInput) : StepResult :=
  match currentTime with
  | none => sendReturn st false [] (-1)
  | some now =>
    if intervalGreaterThanValue st.sendBuffer.timestamp now ackTimeoutUsec then
      if st.sendBuffer.retriesRemaining = 0 then sendReturn st false [] rmpETimeout
      else
        attemptSend { st with
          sendBuffer := { st.sendBuffer with
            retriesRemaining := st.sendBuffer.retriesRemaining - 1 } } o
    else
      let (m, out) := cleanReceiveBuffer st c
      ⟨{ st with receiveBuffer := m, call := .polling frame }, out, none⟩

/-- The rest of a round of the wait loop. When `recvfrom` has timed out, `recv_src_address`,
`recv_type` and `recv_id` are what they were. -/
def attemptSendReceive (st : RmpState) (frame : SendFrame) (r : RecvOutcome) (o : ReceiveInput) :
    StepResult :=
  let (st, header, p) := receiveAndProcess st maxMessageSize r o
  let frame := match header with
    | none => frame
    | some (_, d) => { frame with recvType := d.type, recvId := d.id }
  if p.status = -1 then sendReturn st false p.out (-1)
  else if st.recvSrcAddress.2 ≠ st.sendBuffer.peer ∨ frame.recvType ≠ .ack ∨
      frame.recvId ≠ st.sendBuffer.id then
    ⟨{ st with call := .sending frame }, p.out, none⟩
  else sendReturn st false p.out (if o.resetOk then frame.numBytesSent else -1)

/-- **One step of a process.** -/
def rmpStep (st : RmpState) : Input → Option StepResult
  | .rmpListen len recvSrcAddress c =>
    match st.call with
    | .idle => some (rmpListen st len recvSrcAddress c)
    | _ => none
  | .rmpSendTo destination buffer newId o =>
    match st.call with
    | .idle => some (rmpSendTo st destination buffer newId o)
    | _ => none
  | .loop currentTime c o =>
    match st.call with
    | .sending frame => some (attemptSendLoop st frame currentTime c o)
    | _ => none
  | .recvfrom r o =>
    match st.call with
    | .listening len => some (rmpListenReturn st len r o)
    | .polling frame => some (attemptSendReceive st frame r o)
    | _ => none

/-- A process that has not called the library yet: both buffers are empty. `garbage` is the fresh
memory of the send buffer. -/
def RmpState.initial (garbage : MessageHoldingBuffer RmpAddress) : RmpState where
  sendBuffer := { garbage with occupied := false }
  receiveBuffer := mapNew
  live := []
  nextCell := 0
  call := .idle

end Dchat.RMP
