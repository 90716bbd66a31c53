import Dchat.Foundations.LittleEndian
import Dchat.RMP.Protocol

/-!
# Datagrams as bytes

`send_rmp_datagram` and `receive_rmp_datagram` of `RMP/protocol.c`, on the bytes that travel and
with the arithmetic of `size_t` and `int`. A header is 16 bytes: the type, four bytes of padding and
the id. The receiver never compares the number of bytes it received with the size of a header.

* `parse_headerBytes`: what was sent is received. `receive_refines`, `receive_refines_runt` and
  `send_refines`: datagrams are sent and received as in `RMP/Protocol.lean`.
* `parse_of_short`: one without a header is reported with the number of bytes that it lacks,
  negated, which is `RMP_E_TIMEOUT` for 14 bytes and `-1` for 15.
* `decodesRight_iff`: decoding is right exactly for the datagrams with a header, and for those of at
  most 13 bytes when there is no room for a payload.
-/

namespace Dchat.RMP.Wire

/-- The bytes of one UDP datagram, whose length is a field of 16 bits. -/
structure Packet where
  bytes : Bytes
  length_lt : bytes.length < 65536

/-- `sizeof(struct header)`. -/
def headerSize : BitVec 64 := 16

/-- The bytes of a `struct header`. -/
def headerBytes (type padding : BitVec 32) (id : BitVec 64) : Bytes :=
  littleEndian 4 type.toNat ++ littleEndian 4 padding.toNat ++ littleEndian 8 id.toNat

/-- A `size_t` returned as an `int`. -/
def intOfSize (n : BitVec 64) : ℤ := (n.setWidth 32).toInt

/-- `send_rmp_datagram`: `allocated` and `ok` are whether `malloc` and `sendto` succeed. The status
and the bytes sent. -/
def sendRmpDatagram (allocated ok : Bool) (type padding : BitVec 32) (id : BitVec 64)
    (payload : Bytes) : ℤ × Option Bytes :=
  if allocated ∧ ok then
    let sendBuffer := headerBytes type padding id ++ payload
    let numBytesSent := BitVec.ofNat 64 sendBuffer.length
    (intOfSize (numBytesSent - headerSize), some sendBuffer)
  else (-1, none)

/-- What `receive_rmp_datagram` stores besides the address: the header fields, and the bytes copied
to `payload`. -/
structure Stored where
  type : BitVec 32
  id : BitVec 64
  payload : Bytes
  deriving DecidableEq

/-- The part of `receive_rmp_datagram` after `recvfrom` has received a datagram. The bytes of
`receive_buffer` that `recvfrom` does not write hold what `malloc` left there, `fresh`. The number
of bytes received is the same as an `int` and as a `size_t`. -/
def parse (fresh : ℕ → UInt8) (len : BitVec 64) (packet : Packet) : ℤ × Stored :=
  let received := packet.bytes.take (len + headerSize).toNat
  let receiveBuffer := fun i => received[i]?.getD (fresh i)
  let payloadSize := BitVec.ofNat 64 received.length - headerSize
  let copySize := if len < payloadSize then len else payloadSize
  (intOfSize payloadSize,
    { type := BitVec.ofNat 32 (ofLittleEndian ((List.range' 0 4).map receiveBuffer))
      id := BitVec.ofNat 64 (ofLittleEndian ((List.range' 8 8).map receiveBuffer))
      payload := (List.range' 16 copySize.toNat).map receiveBuffer })

/-- What `recvfrom` reports. -/
inductive Recvfrom
  | packet (src : RmpAddress) (p : Packet)
  | timeout
  | error

/-- `receive_rmp_datagram`. -/
def receiveRmpDatagram (fresh : ℕ → UInt8) (len : BitVec 64) :
    Recvfrom → ℤ × Option (RmpAddress × Stored)
  | .packet src p => ((parse fresh len p).1, some (src, (parse fresh len p).2))
  | .timeout => (rmpETimeout, none)
  | .error => (-1, none)

/-! ## The arithmetic of the lengths -/

@[simp] theorem toNat_headerSize : headerSize.toNat = 16 := rfl

theorem toNat_sub_headerSize {n : ℕ} (h : n < 65536) :
    (BitVec.ofNat 64 n - headerSize).toNat =
      if 16 ≤ n then n - 16 else 18446744073709551600 + n := by
  rw [BitVec.toNat_sub, BitVec.toNat_ofNat, toNat_headerSize]
  split <;> omega

theorem toNat_add_headerSize (len : BitVec 64) :
    (len + headerSize).toNat = if len.toNat < 18446744073709551600 then len.toNat + 16
      else len.toNat - 18446744073709551600 := by
  have hlen := len.isLt
  rw [BitVec.toNat_add, toNat_headerSize]
  split <;> omega

/-- The length of the payload, negative for a datagram without a header. -/
theorem intOfSize_sub {n : ℕ} (h : n < 65536) :
    intOfSize (BitVec.ofNat 64 n - headerSize) = (n : ℤ) - 16 := by
  rw [intOfSize, BitVec.toInt_setWidth, toNat_sub_headerSize h]
  simp only [Int.bmod]
  split <;> split <;> omega

/-- The bytes of the buffer that were received. -/
theorem map_range'_getD {s : Bytes} {m k : ℕ} (h : m + k ≤ s.length) (fresh : ℕ → UInt8) :
    (List.range' m k).map (fun i => s[i]?.getD (fresh i)) = (s.drop m).take k := by
  apply List.ext_getElem
  · rw [List.length_map, List.length_range', List.length_take, List.length_drop]
    omega
  · intro i h₁ h₂
    have hi : m + i < s.length := by
      rw [List.length_map, List.length_range'] at h₁
      omega
    simp [hi]

/-- What `recvfrom` puts into the buffer. -/
theorem length_take_room (len : BitVec 64) (packet : Packet) :
    (packet.bytes.take (len + headerSize).toNat).length < 65536 :=
  Nat.lt_of_le_of_lt (List.length_take_le' ..) packet.length_lt

/-! ## Datagrams with a header -/

theorem length_headerBytes (type padding : BitVec 32) (id : BitVec 64) :
    (headerBytes type padding id).length = 16 := by
  simp [headerBytes]

theorem take_headerBytes (type padding : BitVec 32) (id : BitVec 64) (rest : Bytes) :
    (headerBytes type padding id ++ rest).take 4 = littleEndian 4 type.toNat := by
  rw [headerBytes, List.append_assoc, List.append_assoc]
  exact List.take_left' (length_littleEndian ..)

theorem drop_take_headerBytes (type padding : BitVec 32) (id : BitVec 64) (rest : Bytes) :
    ((headerBytes type padding id ++ rest).drop 8).take 8 = littleEndian 8 id.toNat := by
  rw [headerBytes, List.append_assoc, List.drop_left' (by simp)]
  exact List.take_left' (length_littleEndian ..)

theorem drop_headerBytes (type padding : BitVec 32) (id : BitVec 64) (rest : Bytes) :
    (headerBytes type padding id ++ rest).drop 16 = rest :=
  List.drop_left' (length_headerBytes ..)

/-- Every string of 16 bytes is a header. -/
theorem exists_headerBytes {s : Bytes} (h : s.length = 16) :
    ∃ type padding id, s = headerBytes type padding id := by
  have hparts : s = s.take 4 ++ (s.drop 4).take 4 ++ s.drop 8 := by
    rw [List.append_assoc, ← List.drop_drop (i := 4) (j := 4), List.take_append_drop,
      List.take_append_drop]
  refine ⟨BitVec.ofNat 32 (ofLittleEndian (s.take 4)),
    BitVec.ofNat 32 (ofLittleEndian ((s.drop 4).take 4)),
    BitVec.ofNat 64 (ofLittleEndian (s.drop 8)), ?_⟩
  have hread : ∀ (t : Bytes) (k : ℕ), t.length = k → ∀ w, Nat.pow 256 k = Nat.pow 2 w →
      littleEndian k (BitVec.ofNat w (ofLittleEndian t)).toNat = t := by
    rintro t _ rfl w hw
    rw [BitVec.toNat_ofNat, Nat.mod_eq_of_lt, littleEndian_ofLittleEndian]
    exact Nat.lt_of_lt_of_eq (ofLittleEndian_lt t) hw
  rw [headerBytes, hread _ 4 (by simp [h]) 32 (by decide), hread _ 4 (by simp [h]) 32 (by decide),
    hread _ 8 (by simp [h]) 64 (by decide)]
  exact hparts

/-- The header of a datagram that has one, and the payload that there is room for. -/
theorem parse_of_header (fresh : ℕ → UInt8) {len : BitVec 64} {packet : Packet}
    {received : Bytes} (hreceived : packet.bytes.take (len + headerSize).toNat = received)
    (hlen : received.length ≤ len.toNat + 16) (hheader : 16 ≤ received.length) :
    parse fresh len packet = ((received.length : ℤ) - 16,
      ⟨BitVec.ofNat 32 (ofLittleEndian (received.take 4)),
        BitVec.ofNat 64 (ofLittleEndian ((received.drop 8).take 8)), received.drop 16⟩) := by
  have hlength : received.length < 65536 := hreceived ▸ length_take_room len packet
  have hsize := toNat_sub_headerSize hlength
  rw [if_pos hheader] at hsize
  have hcopy : (if len < BitVec.ofNat 64 received.length - headerSize then len
      else BitVec.ofNat 64 received.length - headerSize).toNat = received.length - 16 := by
    rw [if_neg, hsize]
    rw [BitVec.lt_def, hsize]
    omega
  simp only [parse, hreceived, hcopy, intOfSize_sub hlength]
  rw [map_range'_getD (by omega), map_range'_getD (by omega), map_range'_getD (by omega),
    List.drop_zero, List.take_of_length_le (l := received.drop 16)]
  rw [List.length_drop]

/-- **What was sent is received**: the header, and as much of the payload as there is room for. -/
theorem parse_headerBytes (fresh : ℕ → UInt8) {len : BitVec 64}
    (hlen : len.toNat < 18446744073709551600) (type padding : BitVec 32) (id : BitVec 64)
    (payload : Bytes) {packet : Packet}
    (hpacket : packet.bytes = headerBytes type padding id ++ payload) :
    parse fresh len packet = (((min payload.length len.toNat : ℕ) : ℤ),
      ⟨type, id, payload.take len.toNat⟩) := by
  have hlength := packet.length_lt
  rw [hpacket, List.length_append, length_headerBytes] at hlength
  have hreceived : packet.bytes.take (len + headerSize).toNat =
      headerBytes type padding id ++ payload.take len.toNat := by
    rw [hpacket, toNat_add_headerSize, if_pos hlen, List.take_append, length_headerBytes,
      Nat.add_sub_cancel, List.take_of_length_le]
    rw [length_headerBytes]
    omega
  have hlen' : (headerBytes type padding id ++ payload.take len.toNat).length =
      16 + min payload.length len.toNat := by
    rw [List.length_append, length_headerBytes, List.length_take, Nat.min_comm]
  have htype : ofLittleEndian (littleEndian 4 type.toNat) = type.toNat :=
    ofLittleEndian_littleEndian type.isLt
  have hid : ofLittleEndian (littleEndian 8 id.toNat) = id.toNat :=
    ofLittleEndian_littleEndian id.isLt
  rw [parse_of_header fresh hreceived (by omega) (by omega), hlen']
  rw [take_headerBytes, drop_take_headerBytes, drop_headerBytes, htype, hid, BitVec.ofNat_toNat,
    BitVec.ofNat_toNat, BitVec.setWidth_eq, BitVec.setWidth_eq]
  exact Prod.ext (by omega) rfl

/-! ## The datagrams of `RMP/Protocol.lean` -/

/-- The enumerator of a value of `enum message_type`. -/
def messageType (type : BitVec 32) : MessageType :=
  if type = 0 then .data else if type = 1 then .ack else if type = 2 then .synAck
  else .other type.toNat

/-- The value of an enumerator. -/
def typeBits : MessageType → BitVec 32
  | .data => 0
  | .ack => 1
  | .synAck => 2
  | .other value => BitVec.ofNat 32 value

/-- What was stored, as a datagram. -/
def stored (s : Stored) : Datagram where
  type := messageType s.type
  id := s.id.toInt
  payload := s.payload

/-- The datagram that bytes with a header stand for. -/
def toDatagram (s : Bytes) : Datagram where
  type := messageType (BitVec.ofNat 32 (ofLittleEndian (s.take 4)))
  id := (BitVec.ofNat 64 (ofLittleEndian ((s.drop 8).take 8))).toInt
  payload := s.drop 16

/-- **`receiveRmpDatagram` is what the code does to a datagram with a header.** -/
theorem receive_refines (fresh : ℕ → UInt8) {len : BitVec 64}
    (hlen : len.toNat < 18446744073709551600) (src : RmpAddress) {packet : Packet}
    (hheader : 16 ≤ packet.bytes.length) :
    RMP.receiveRmpDatagram len.toNat (.datagram src (toDatagram packet.bytes)) =
      ((receiveRmpDatagram fresh len (.packet src packet)).1,
        (receiveRmpDatagram fresh len (.packet src packet)).2.map fun p => (p.1, stored p.2)) := by
  obtain ⟨type, padding, id, hbytes⟩ :=
    exists_headerBytes (s := packet.bytes.take 16) (by rw [List.length_take]; omega)
  have hpacket := List.take_append_drop 16 packet.bytes
  rw [hbytes] at hpacket
  have htype : ofLittleEndian (littleEndian 4 type.toNat) = type.toNat :=
    ofLittleEndian_littleEndian type.isLt
  have hid : ofLittleEndian (littleEndian 8 id.toNat) = id.toNat :=
    ofLittleEndian_littleEndian id.isLt
  simp only [receiveRmpDatagram, parse_headerBytes fresh hlen type padding id _ hpacket.symm,
    RMP.receiveRmpDatagram, toDatagram, stored, Option.map_some]
  rw [← hpacket, take_headerBytes, drop_take_headerBytes, drop_headerBytes, htype, hid]
  simp [Nat.min_comm]

/-- **`sendRmpDatagram` is what the code sends**, for an enumerator and an id of the range of
`long`. -/
theorem send_refines (ok : Bool) (destination : RmpAddress) {type : MessageType}
    (htype : messageType (typeBits type) = type) (padding : BitVec 32) (id : BitVec 64)
    {payload : Bytes} (hpayload : payload.length + 16 < 65536) :
    RMP.sendRmpDatagram ok destination type id.toInt payload =
      ((sendRmpDatagram true ok (typeBits type) padding id payload).1,
        (sendRmpDatagram true ok (typeBits type) padding id payload).2.toList.map fun s =>
          (destination, toDatagram s)) := by
  cases ok with
  | false => rfl
  | true =>
    have hlength : (headerBytes (typeBits type) padding id ++ payload).length =
        payload.length + 16 := by
      rw [List.length_append, length_headerBytes, Nat.add_comm]
    have hbits : ofLittleEndian (littleEndian 4 (typeBits type).toNat) = (typeBits type).toNat :=
      ofLittleEndian_littleEndian (typeBits type).isLt
    have hid : ofLittleEndian (littleEndian 8 id.toNat) = id.toNat :=
      ofLittleEndian_littleEndian id.isLt
    simp only [RMP.sendRmpDatagram, sendRmpDatagram, and_self, if_true, hlength,
      intOfSize_sub hpayload, toDatagram, Option.toList_some, List.map_cons, List.map_nil]
    rw [take_headerBytes, drop_take_headerBytes, drop_headerBytes, hbits, hid]
    simp [htype]

/-! ## Datagrams without a header -/

/-- **A datagram without a header, or no room for one:** the status is the number of bytes that the
header lacks, negated, and as many bytes are copied as the caller has room for, none of which was
received. -/
theorem parse_of_short (fresh : ℕ → UInt8) {len : BitVec 64} {packet : Packet} {received : Bytes}
    (hreceived : packet.bytes.take (len + headerSize).toNat = received)
    (hshort : received.length < 16) :
    (parse fresh len packet).1 = (received.length : ℤ) - 16 ∧
      ((parse fresh len packet).2.payload = [] ↔ len = 0) := by
  have hsize := toNat_sub_headerSize (n := received.length) (by omega)
  rw [if_neg (by omega)] at hsize
  refine ⟨?_, ?_⟩
  · simp only [parse, hreceived, intOfSize_sub (n := received.length) (by omega)]
  · simp only [parse, hreceived, List.map_eq_nil_iff, List.range'_eq_nil_iff]
    rw [← BitVec.toNat_inj]
    split
    · rfl
    · next hle =>
      rw [BitVec.lt_def, hsize] at hle
      rw [hsize]
      simp
      omega

/-- **A `runt` is what the code makes of a datagram without a header**, whatever it finds where the
rest of the header would be. -/
theorem receive_refines_runt (fresh : ℕ → UInt8) {len : BitVec 64}
    (hlen : len.toNat < 18446744073709551600) (src : RmpAddress) {packet : Packet}
    (hshort : packet.bytes.length < 16) :
    RMP.receiveRmpDatagram len.toNat
        (.runt src (stored (parse fresh len packet).2) ⟨packet.bytes.length, hshort⟩) =
      ((receiveRmpDatagram fresh len (.packet src packet)).1,
        (receiveRmpDatagram fresh len (.packet src packet)).2.map fun p => (p.1, stored p.2)) := by
  have hreceived : packet.bytes.take (len + headerSize).toNat = packet.bytes := by
    rw [toNat_add_headerSize, if_pos hlen]
    exact List.take_of_length_le (by omega)
  have hstatus := (parse_of_short fresh hreceived hshort).1
  simp only [receiveRmpDatagram, RMP.receiveRmpDatagram, hstatus, Option.map_some]

/-- What decoding a datagram ought to do: what was sent is received, and a datagram without a header
is rejected with a status that is none of those with a meaning, and nothing is copied. -/
def DecodesRight (fresh : ℕ → UInt8) (len : BitVec 64) (packet : Packet) : Prop :=
  (∀ type padding id payload,
      (sendRmpDatagram true true type padding id payload).2 = some packet.bytes →
      parse fresh len packet = (((min payload.length len.toNat : ℕ) : ℤ),
        ⟨type, id, payload.take (min payload.length len.toNat)⟩)) ∧
    (packet.bytes.length < 16 →
      (parse fresh len packet).1 ≠ rmpETimeout ∧ (parse fresh len packet).1 ≠ -1 ∧
        (parse fresh len packet).1 < 0 ∧ (parse fresh len packet).2.payload = [])

/-- **Decoding is right exactly** for a datagram that has a header and a length to which the
size of a header can be added, and, where there is no room for a payload, for a datagram of at
most 13 bytes. -/
theorem decodesRight_iff (fresh : ℕ → UInt8) (len : BitVec 64) (packet : Packet) :
    DecodesRight fresh len packet ↔
      (16 ≤ packet.bytes.length ∧ len.toNat < 18446744073709551600) ∨
        (packet.bytes.length ≤ 13 ∧ len = 0) := by
  constructor
  · rintro ⟨hsent, hrejected⟩
    rcases Nat.lt_or_ge packet.bytes.length 16 with hlength | hlength
    · obtain ⟨htimeout, herror, -, hpayload⟩ := hrejected hlength
      have hreceived : (packet.bytes.take (len + headerSize).toNat).length < 16 :=
        Nat.lt_of_le_of_lt (List.length_take_le' ..) hlength
      obtain ⟨hstatus, hcopied⟩ := parse_of_short fresh rfl hreceived
      obtain rfl := hcopied.1 hpayload
      have hroom : packet.bytes.take (0 + headerSize : BitVec 64).toNat = packet.bytes :=
        List.take_of_length_le (Nat.le_of_lt hlength)
      rw [hroom] at hstatus
      rw [rmpETimeout] at htimeout
      exact .inr ⟨by omega, rfl⟩
    · rcases Nat.lt_or_ge len.toNat 18446744073709551600 with hlen | hlen
      · exact .inl ⟨hlength, hlen⟩
      -- the room for the datagram wraps around to less than a header
      · obtain ⟨type, padding, id, hheader⟩ :=
          exists_headerBytes (s := packet.bytes.take 16) (by rw [List.length_take]; omega)
        have hbytes := List.take_append_drop 16 packet.bytes
        rw [hheader] at hbytes
        have hparse := hsent type padding id (packet.bytes.drop 16) (congrArg some hbytes)
        have hroom := toNat_add_headerSize len
        have hlt := len.isLt
        rw [if_neg (by omega)] at hroom
        have hreceived : (packet.bytes.take (len + headerSize).toNat).length < 16 := by
          rw [List.length_take]
          omega
        have hstatus := (parse_of_short fresh rfl hreceived).1
        rw [hparse] at hstatus
        dsimp only at hstatus
        omega
  · rintro (⟨hlength, hlen⟩ | ⟨hlength, rfl⟩)
    · refine ⟨?_, fun hshort => absurd hlength (by omega)⟩
      intro type padding id payload hsent
      have hbytes : headerBytes type padding id ++ payload = packet.bytes := Option.some.inj hsent
      rw [parse_headerBytes fresh hlen type padding id payload hbytes.symm]
      have htake : payload.take (min payload.length len.toNat) = payload.take len.toNat := by
        rw [Nat.min_comm]
        exact (List.take_eq_take_min ..).symm
      rw [htake]
    · have hroom : packet.bytes.take (0 + headerSize : BitVec 64).toNat = packet.bytes :=
        List.take_of_length_le (Nat.le_trans hlength (by decide))
      obtain ⟨hstatus, hcopied⟩ := parse_of_short fresh hroom (by omega)
      refine ⟨?_, fun _ => ⟨?_, ?_, ?_, hcopied.2 rfl⟩⟩
      · intro type padding id payload hsent
        have hbytes : headerBytes type padding id ++ payload = packet.bytes := Option.some.inj hsent
        rw [← hbytes, List.length_append, length_headerBytes] at hlength
        omega
      · rw [hstatus, rmpETimeout]
        omega
      · rw [hstatus]
        omega
      · rw [hstatus]
        omega

/-- A datagram of 14 bytes is taken for a timeout by `chat`'s receive call. -/
theorem decodesRight_fails : ¬ DecodesRight (fun _ => 0) 1024 ⟨List.replicate 14 0, by decide⟩ := by
  rintro ⟨-, hrejected⟩
  refine (hrejected (by decide)).1 ?_
  rw [(parse_of_short (fun _ => 0) rfl (by decide)).1]
  rfl

end Dchat.RMP.Wire
