import Dchat.RMP.Protocol
import Dchat.Structures.Map

/-!
# The message buffers

`RMP/message_buffers.c`: one buffer for the message being sent, and a map from (a hash of) peer
addresses to buffers of one message received from that peer.

The field `peer` of a receive buffer is a pointer to the variable `recv_src_address` of the call
that read the message; it is modelled by the number of that call's `Cell`. The send buffer's `peer`
points to the caller's destination, which does not change during the call.
-/

namespace Dchat.RMP

open Structures

/-- The variable `recv_src_address` of one call of `RMP_listen` or `attemptSend`, numbered in the
order of the calls. -/
abbrev Cell := ℕ

/-- `struct message_holding_buffer`, with pointers to addresses in `ρ`. The field
`message_length` is the length of `message`. -/
structure MessageHoldingBuffer (ρ : Type) where
  occupied : Bool
  type : MessageType
  id : MessageId
  message : Bytes
  timestamp : Timeval
  peer : ρ
  retriesRemaining : ℕ

/-- The receive buffers of a process. -/
abbrev ReceiveBuffer := Map (MessageHoldingBuffer Cell)

/-- `rmp_address_hash`. The first `memcpy` fills `output` with the IP address. The second one
copies the port to `(&output) + sizeof(unsigned long)`, which counts in units of `long long` and
so lies 64 bytes after the start of `output`: nothing of the port enters the hash. -/
def rmpAddressHash (address : RmpAddress) : ℤ := address.sinAddr.toNat

theorem rmpAddressHash_inj {a b : RmpAddress} :
    rmpAddressHash a = rmpAddressHash b ↔ a.sinAddr = b.sinAddr := by
  rw [rmpAddressHash, rmpAddressHash, Int.ofNat_inj, BitVec.toNat_inj]

/-- `get_receive_buffer_for`: the buffer of a peer and the map that holds it; a new buffer is
`fresh` memory with `occupied` cleared. -/
def getReceiveBufferFor (m : ReceiveBuffer) (srcAddress : RmpAddress)
    (fresh : MessageHoldingBuffer Cell) : MessageHoldingBuffer Cell × ReceiveBuffer :=
  let key := rmpAddressHash srcAddress
  match mapGet m key with
  | some messageBuffer => (messageBuffer, m)
  | none =>
    let messageBuffer := { fresh with occupied := false }
    (messageBuffer, (mapPut m key messageBuffer true).2)

/-- `iterate_over_send_buffer`: `targetFunction` is run on every buffer and returns a status and
the buffer as it leaves it; a buffer is removed when its status is not zero. -/
def iterateOverSendBuffer (m : ReceiveBuffer)
    (targetFunction : ℤ → MessageHoldingBuffer Cell → ℤ × MessageHoldingBuffer Cell) :
    ReceiveBuffer :=
  filterValues m fun key buffer =>
    let (status, buffer') := targetFunction key buffer
    if status ≠ 0 then none else some buffer'

end Dchat.RMP
