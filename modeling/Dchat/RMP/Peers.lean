import Dchat.RMP.Moves

/-!
# Two peers and the slots of a process

The receive map finds the buffer of a peer by `rmp_address_hash`, which is the IP address alone: all
ports of a host share a slot.

* `slots_receiveAndProcess`: a datagram changes at most the slot of its sender; `undisturbed_iff`:
  the message pending for another peer changes only if the two have the same IP address.
* `not_undisturbed_shared`: the DATA of one port overwrites what another port has sent.
-/

namespace Dchat.RMP

open Structures

/-- The message pending for a peer, as `get_receive_buffer_for` finds it: its id and its bytes, or
`none` if the buffer is not occupied. -/
def pendingFor (m : ReceiveBuffer) (peer : RmpAddress) (fresh : MessageHoldingBuffer Cell) :
    Option (MessageId × Bytes) :=
  pending (getReceiveBufferFor m peer fresh).1

/-- A datagram from `a`, received into a buffer of `n` bytes, leaves the message pending for `b`
unchanged. -/
def Undisturbed (st : RmpState) (n : ℕ) (a b : RmpAddress) (d : Datagram) (o : ReceiveInput) : Prop :=
  ∀ fresh, pendingFor (receiveAndProcess st n (.datagram a d) o).1.receiveBuffer b fresh =
    pendingFor st.receiveBuffer b fresh

/-- A datagram changes nothing in the slot of its sender. It is an ACK, a DATA that repeats the
pending message, or a SYN_ACK for another message than the pending one. -/
def Idempotent (st : RmpState) (n : ℕ) (a : RmpAddress) (d : Datagram) (o : ReceiveInput) : Prop :=
  match d.type with
  | .data => pendingFor st.receiveBuffer a o.fresh = some (d.id, d.payload.take n)
  | .synAck => ∀ bytes, pendingFor st.receiveBuffer a o.fresh ≠ some (d.id, bytes)
  | _ => True

theorem pendingFor_eq (m : ReceiveBuffer) (peer : RmpAddress) (fresh : MessageHoldingBuffer Cell) :
    pendingFor m peer fresh = slots m (rmpAddressHash peer) :=
  (getReceiveBufferFor_slots m peer fresh).1

section Processing

variable (st : RmpState) (n : ℕ) (a b : RmpAddress) (d : Datagram) (o : ReceiveInput)

theorem undisturbed_iff_slots :
    Undisturbed st n a b d o ↔
      slots (receiveAndProcess st n (.datagram a d) o).1.receiveBuffer (rmpAddressHash b) =
        slots st.receiveBuffer (rmpAddressHash b) := by
  unfold Undisturbed
  simp only [pendingFor_eq]
  exact ⟨fun h => h o.fresh, fun h _ => h⟩

/-- What a datagram does to the slots: at most that of its sender changes. -/
theorem slots_receiveAndProcess :
    ∃ v, slots (receiveAndProcess st n (.datagram a d) o).1.receiveBuffer =
        Function.update (slots st.receiveBuffer) (rmpAddressHash a) v ∧
      (v = slots st.receiveBuffer (rmpAddressHash a) ↔ Idempotent st n a d o) := by
  rw [receiveAndProcess_datagram]
  unfold Idempotent
  simp only [pendingFor_eq]
  cases ht : d.type with
  | data =>
    have hdata := processMessage_data st st.recvSrcAddress.1 a (received n d) n o ht
    exact ⟨some (d.id, d.payload.take n), hdata.1, eq_comm⟩
  | ack =>
    have hack := processMessage_ack st st.recvSrcAddress.1 a (received n d) n o ht
    refine ⟨_, ?_, iff_of_true rfl trivial⟩
    rw [hack.1, Function.update_eq_self]
  | synAck =>
    by_cases hheld : ∃ bytes, slots st.receiveBuffer (rmpAddressHash a) = some (d.id, bytes)
    · obtain ⟨bytes, hslot⟩ := hheld
      have hreleased := processMessage_synAck st st.recvSrcAddress.1 a (received n d) n o ht hslot
      refine ⟨none, hreleased.1, ?_⟩
      rw [hslot]
      exact iff_of_false (by simp) fun h => h bytes rfl
    · have hother := not_exists.1 hheld
      have hstale := processMessage_stale st st.recvSrcAddress.1 a (received n d) n o ht hother
      refine ⟨_, ?_, iff_of_true rfl hother⟩
      rw [hstale.1, Function.update_eq_self]
  | other value =>
    refine ⟨_, ?_, iff_of_true rfl trivial⟩
    simp only [processMessage, received, ht, Function.update_eq_self]

theorem undisturbed_of_slots :
    Undisturbed st n a b d o ↔ rmpAddressHash b ≠ rmpAddressHash a ∨ Idempotent st n a d o := by
  obtain ⟨v, hv, hsame⟩ := slots_receiveAndProcess st n a d o
  rw [undisturbed_iff_slots, hv, ← hsame]
  by_cases hkey : rmpAddressHash b = rmpAddressHash a
  · rw [hkey, Function.update_self]
    exact (or_iff_right (not_not.2 rfl)).symm
  · rw [Function.update_of_ne hkey]
    exact iff_of_true rfl (.inl hkey)

/-- **When two peers do not disturb each other**: if they have different IP addresses, or the
datagram changes nothing in the slot that they share. -/
theorem undisturbed_iff :
    Undisturbed st n a b d o ↔ a.sinAddr ≠ b.sinAddr ∨ Idempotent st n a d o := by
  rw [undisturbed_of_slots, Ne, rmpAddressHash_inj, eq_comm]

end Processing

/-- A process that has received the DATA `"b"` with id 1 from port 81 of the local host. -/
def holdingOne : RmpState :=
  let garbage : MessageHoldingBuffer RmpAddress := ⟨false, .data, 0, [], ⟨0, 0⟩, ⟨0, 0⟩, 0⟩
  (receiveAndProcess (RmpState.initial garbage) 16
    (.datagram ⟨0x0100007F#32, 81#16⟩ ⟨.data, 1, [98]⟩)
    ⟨⟨0, 0⟩, true, true, ⟨false, .data, 0, [], ⟨0, 0⟩, 0, 0⟩⟩).1

/-- The DATA of port 80 overwrites that of port 81. -/
theorem not_undisturbed_shared :
    ¬ ∀ (st : RmpState) (n : ℕ) (a b : RmpAddress) (d : Datagram) (o : ReceiveInput),
      a ≠ b → Undisturbed st n a b d o := by
  intro h
  have hall := h holdingOne 16 ⟨0x0100007F#32, 80#16⟩ ⟨0x0100007F#32, 81#16⟩ ⟨.data, 2, [97]⟩
    ⟨⟨0, 0⟩, true, true, ⟨false, .data, 0, [], ⟨0, 0⟩, 0, 0⟩⟩ (by decide)
  exact absurd (hall ⟨false, .data, 0, [], ⟨0, 0⟩, 0, 0⟩) (by decide)

end Dchat.RMP
