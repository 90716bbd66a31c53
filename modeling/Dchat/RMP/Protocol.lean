import Dchat.Foundations.Bytes
import Mathlib.Data.Int.Notation

/-!
# RMP datagrams and timers

The types of `RMP/rmp.h` and `RMP/protocol.h`, the two datagram primitives of `RMP/protocol.c`, and
the timer comparison of `RMP/rmp.c`. A datagram is the header fields and the payload; one that is
shorter than its header is a `RecvOutcome.runt`.
-/

namespace Dchat.RMP

/-- `MAX_MESSAGE_SIZE`. -/
def maxMessageSize : ℕ := 65000

/-- `ACK_TIMEOUT_USEC`. -/
def ackTimeoutUsec : ℤ := 20000

/-- `NUM_RETRIES`. -/
def numRetries : ℕ := 2

/-- `RMP_E_TIMEOUT`. -/
def rmpETimeout : ℤ := -2

/-- `rmp_address`: the IPv4 address and the port of a `struct sockaddr_in`, whose other bytes are
the same in every address of the program. -/
structure RmpAddress where
  sinAddr : BitVec 32
  sinPort : BitVec 16
  deriving DecidableEq

/-- `message_id`. -/
abbrev MessageId := ℤ

/-- `enum message_type`, with the values a datagram from the network may carry beyond the three
enumerators. -/
inductive MessageType
  | data
  | ack
  | synAck
  | other (value : ℕ)
  deriving DecidableEq

/-- A datagram: `struct header` and the payload after it. -/
structure Datagram where
  type : MessageType
  id : MessageId
  payload : Bytes
  deriving DecidableEq

/-- `send_rmp_datagram`: `ok` is whether `sendto` succeeds. The number of payload bytes sent, and
the datagram handed to the network with its destination. -/
def sendRmpDatagram (ok : Bool) (destination : RmpAddress) (type : MessageType) (id : MessageId)
    (payload : Bytes) : ℤ × List (RmpAddress × Datagram) :=
  if ok then (payload.length, [(destination, ⟨type, id, payload⟩)]) else (-1, [])

/-- What `recvfrom` reports. -/
inductive RecvOutcome
  | datagram (src : RmpAddress) (d : Datagram)
  /-- A datagram of `length` bytes, shorter than a header. What the buffer looks like as a datagram,
  `d`, is partly what `malloc` left there. -/
  | runt (src : RmpAddress) (d : Datagram) (length : Fin 16)
  | timeout
  | error
  deriving DecidableEq

/-- `receive_rmp_datagram`: the status, and after a datagram the source, the header and the bytes
placed in `payload`. `recvfrom` is given room for the header and `len` bytes, and drops the rest. -/
def receiveRmpDatagram (len : ℕ) : RecvOutcome → ℤ × Option (RmpAddress × Datagram)
  | .datagram src d =>
    let payload := d.payload.take len
    (payload.length, some (src, { d with payload := payload }))
  | .runt src d length => ((length : ℤ) - 16, some (src, d))
  | .timeout => (rmpETimeout, none)
  | .error => (-1, none)

/-- `struct timeval`. The difference of two clock readings fits a `time_t`, so that no subtraction
of seconds overflows. -/
structure Timeval where
  tvSec : ℤ
  tvUsec : ℤ
  deriving DecidableEq

/-- The macro `timersub`. -/
def timersub (a b : Timeval) : Timeval :=
  let sec := a.tvSec - b.tvSec
  let usec := a.tvUsec - b.tvUsec
  if usec < 0 then ⟨sec - 1, usec + 1000000⟩ else ⟨sec, usec⟩

/-- The macro `timercmp` with the operator `>`. -/
def timercmpGt (a b : Timeval) : Bool :=
  if a.tvSec = b.tvSec then a.tvUsec > b.tvUsec else a.tvSec > b.tvSec

/-- `interval_greater_than_value`. -/
def intervalGreaterThanValue (first second : Timeval) (comparison : ℤ) : Bool :=
  timercmpGt (timersub second first) ⟨0, comparison⟩

end Dchat.RMP
