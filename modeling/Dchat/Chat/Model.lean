import Dchat.Foundations.Stdio
import Dchat.RMP.Protocol

/-!
# The state of a chat node

The globals of `model.c` and `dchat.c`, the functions of `model.c` on them, and the calls that leave
the process: `RMP_getAddressFor`, `RMP_sendTo` and `printf`. The first two are an environment; what
was sent, with the results, and what was printed is recorded in the state. `malloc` is taken to
succeed. The clock that the event loop reads is in `Dchat.Chat.EventLoop`, and the memory of the
participants in `Dchat.Chat.ParticipantHeap`.

A `Participant` is a `Peer`, the texts that never change and the address of the `struct`, with the
flag `is_leader`. The pointer `leader` is the `Peer` it points to: nothing reads the flag through
it. No participant is ever freed while the pointer is in use.
-/

namespace Dchat.Chat

open CString Stdio RMP

/-! ## The constants of `dchat.h` -/

/-- `MAX_BUFFER_LEN`. -/
def maxBufferLen : ℕ := 1024

/-- `MAX_NICKNAME_LEN`. -/
def maxNicknameLen : ℕ := 20

/-- `MAX_IP_ADDRESS_LEN`. -/
def maxIpAddressLen : ℕ := 15

/-- `MAX_PORT_NUM_LEN`. -/
def maxPortNumLen : ℕ := 5

/-- `MESSAGE_ADD_ME`. -/
def messageAddMe : Bytes := str "ADD_ME"

/-- `MESSAGE_PARTICIPANT_UPDATE`. -/
def messageParticipantUpdate : Bytes := str "PARTICIPANT_UPDATE"

/-- `MESSAGE_JOIN_FAILURE`. -/
def messageJoinFailure : Bytes := str "JOIN_FAILURE"

/-- `MESSAGE_JOIN_NICKNAME_FAILURE`. -/
def messageJoinNicknameFailure : Bytes := str "JOIN_NICKNAME_FAILURE"

/-- `MESSAGE_LEADER_ID`. -/
def messageLeaderId : Bytes := str "LEADER_ID"

/-- `MESSAGE_BROADCAST`. -/
def messageBroadcast : Bytes := str "MESSAGE_BROADCAST"

/-- `MESSAGE_REQUEST`. -/
def messageRequest : Bytes := str "MESSAGE_REQUEST"

/-- `MESSAGE_START_ELECTION`. -/
def messageStartElection : Bytes := str "START_ELECTION"

/-- `MESSAGE_STOP_ELECTION`. -/
def messageStopElection : Bytes := str "ELECTION_STOP"

/-- `MESSAGE_ELECTION_VICTORY`. -/
def messageElectionVictory : Bytes := str "ELECTION_VICTORY"

/-- `MESSAGE_HEARTBEAT`. -/
def messageHeartbeat : Bytes := str "HEARTBEAT"

/-- `ENCRYPTION_KEY`. -/
def encryptionKey : Bytes := str "swordfish"

/-! ## Addresses as text -/

/-- `inet_ntoa`: the four bytes of the address as they lie in memory. -/
def inetNtoa (a : RmpAddress) : Bytes :=
  decimal (a.sinAddr.extractLsb' 0 8).toNat ++ 46 :: (decimal (a.sinAddr.extractLsb' 8 8).toNat ++
    46 :: (decimal (a.sinAddr.extractLsb' 16 8).toNat ++
      46 :: decimal (a.sinAddr.extractLsb' 24 8).toNat))

/-- `sprintf(port_num, "%d", RMP_getPortFrom(addr))`. -/
def portText (a : RmpAddress) : Bytes := decimal a.sinPort.toNat

/-- The bytes of dotted addresses, `[0-9.]`. -/
def isAddressByte (c : UInt8) : Bool := isDigit c || c == 46

/-- A dotted address that fits its field. -/
@[mk_iff]
structure IsIpAddress (s : Bytes) : Prop where
  ne_nil : s ≠ []
  length_le : s.length ≤ maxIpAddressLen
  bytes : ∀ c ∈ s, isAddressByte c = true

/-- A decimal port that fits its field. -/
@[mk_iff]
structure IsPortNum (s : Bytes) : Prop where
  ne_nil : s ≠ []
  length_le : s.length ≤ maxPortNumLen
  bytes : ∀ c ∈ s, isDigit c = true

instance : DecidablePred IsIpAddress := fun s =>
  decidable_of_iff (s ≠ [] ∧ s.length ≤ maxIpAddressLen ∧ s.all isAddressByte = true)
    (by rw [isIpAddress_iff, List.all_eq_true])

instance : DecidablePred IsPortNum := fun s =>
  decidable_of_iff (s ≠ [] ∧ s.length ≤ maxPortNumLen ∧ s.all isDigit = true)
    (by rw [isPortNum_iff, List.all_eq_true])

theorem isIpAddress_inetNtoa (a : RmpAddress) : IsIpAddress (inetNtoa a) := by
  have hlen : ∀ x : BitVec 8, (decimal x.toNat).length ≤ 3 := by
    intro x
    exact length_decimal_le (by decide) (Nat.lt_of_lt_of_le x.isLt (by decide))
  refine ⟨by simp [inetNtoa], ?_, ?_⟩
  · have h0 := hlen (a.sinAddr.extractLsb' 0 8)
    have h1 := hlen (a.sinAddr.extractLsb' 8 8)
    have h2 := hlen (a.sinAddr.extractLsb' 16 8)
    have h3 := hlen (a.sinAddr.extractLsb' 24 8)
    simp only [inetNtoa, List.length_append, List.length_cons, maxIpAddressLen]
    omega
  · intro c hc
    have hdig : ∀ n : ℕ, c ∈ decimal n → isAddressByte c = true := by
      intro n hn
      rw [isAddressByte, isDigit_of_mem_decimal hn, Bool.true_or]
    simp only [inetNtoa, List.mem_append, List.mem_cons] at hc
    obtain hc | rfl | hc | rfl | hc | rfl | hc := hc
    all_goals first | exact hdig _ hc | decide

theorem zero_not_mem_inetNtoa (a : RmpAddress) : 0 ∉ inetNtoa a := fun h =>
  absurd ((isIpAddress_inetNtoa a).bytes 0 h) (by decide)

theorem isPortNum_portText (a : RmpAddress) : IsPortNum (portText a) where
  ne_nil := decimal_ne_nil _
  length_le := length_decimal_le (by decide) (Nat.lt_of_lt_of_le a.sinPort.isLt (by decide))
  bytes _ hc := isDigit_of_mem_decimal hc

theorem zero_not_mem_portText (a : RmpAddress) : 0 ∉ portText a := fun h =>
  absurd ((isPortNum_portText a).bytes 0 h) (by decide)

/-! ## Participants and the globals -/

/-- What never changes in a `struct Participant`, and where it is: `ptr` is the result of the
`malloc` that made it. -/
structure Peer where
  ptr : ℕ
  nickname : Bytes
  ipAddress : Bytes
  portNum : Bytes
  deriving DecidableEq

/-- `struct Participant`. -/
structure Participant extends Peer where
  isLeader : Bool
  deriving DecidableEq

/-- A call of `RMP_sendTo`: the destination, the string, sent with its NUL, and the result. -/
structure Sent where
  dst : RmpAddress
  message : Bytes
  result : ℤ
  deriving DecidableEq

/-- The globals of `model.c` and `dchat.c`, the next address `malloc` returns, and what the process
has sent and printed. -/
structure Node where
  thisNickname : Bytes
  isLeader : Bool
  leader : Option Peer
  participants : List Participant
  numParticipants : ℤ
  nextPtr : ℕ
  clockNum : ℤ
  inElection : Bool
  startedElection : Bool
  sent : List Sent
  printed : List Bytes
  deriving DecidableEq

/-- `RMP_getAddressFor`, `none` for a negative result, and the result of the `k`-th `RMP_sendTo` of
the process. -/
structure Env where
  getAddressFor : Bytes → Bytes → Option RmpAddress
  sendTo : ℕ → RmpAddress → Bytes → ℤ

namespace Node

/-- `RMP_sendTo`, of a string with its NUL. -/
def rmpSendTo (env : Env) (s : Node) (dst : RmpAddress) (message : Bytes) : ℤ × Node :=
  let result := env.sendTo s.sent.length dst message
  (result, { s with sent := s.sent ++ [⟨dst, message, result⟩] })

/-- `printf` of a line. -/
def print (s : Node) (line : Bytes) : Node := { s with printed := s.printed ++ [line] }

/-! ## `model.c` -/

/-- `model_init`, in a process with the given nickname and role. -/
def modelInit (thisNickname : Bytes) (isLeader : Bool) : Node where
  thisNickname := thisNickname
  isLeader := isLeader
  leader := none
  participants := []
  numParticipants := 0
  nextPtr := 0
  clockNum := 0
  inElection := false
  startedElection := false
  sent := []
  printed := []

/-- `empty_list`. -/
def emptyList (s : Node) : Node := { s with participants := [], numParticipants := 0, leader := none }

/-- `insert_participant`. The texts are copied by `strncpy` into arrays of one byte more than the
maximum length: a longer text leaves its array without a NUL. -/
def insertParticipant (s : Node) (nickname ipAddress portNum : Bytes) (isLeader : Bool) :
    Except Fault Node :=
  let p : Participant := { ptr := s.nextPtr, nickname, ipAddress, portNum, isLeader }
  if maxNicknameLen < nickname.length ∨ maxIpAddressLen < ipAddress.length ∨
      maxPortNumLen < portNum.length then .error .unterminated
  else .ok { s with
    leader := if isLeader then some p.toPeer else s.leader
    participants := s.participants ++ [p]
    numParticipants := s.numParticipants + 1
    nextPtr := s.nextPtr + 1 }

/-- `contains_participant`. -/
def containsParticipant (s : Node) (nickname : Bytes) : Bool :=
  s.participants.any fun p => strcmp p.nickname nickname = 0

/-- The loop of `set_leader_by_addr` and `set_leader_by_nickname`: the flag is set at the
participants that pass the test and cleared at the others, and `leader` is left at the last one
that passes. -/
def setLeaderBy (test : Participant → Bool) (s : Node) : Node :=
  { s with
    leader := ((s.participants.filter test).getLast?.map Participant.toPeer).or s.leader
    participants := s.participants.map fun p => { p with isLeader := test p } }

/-- If a participant passes the test, the loop leaves `leader` at one that does. -/
theorem setLeaderBy_leader {test : Participant → Bool} {s : Node} {p : Participant}
    (hp : p ∈ s.participants) (htest : test p = true) :
    ∃ q ∈ s.participants, test q = true ∧ (s.setLeaderBy test).leader = some q.toPeer := by
  have hne : s.participants.filter test ≠ [] := List.ne_nil_of_mem (List.mem_filter.2 ⟨hp, htest⟩)
  obtain ⟨hq, htest'⟩ := List.mem_filter.1 (List.getLast_mem hne)
  refine ⟨_, hq, htest', ?_⟩
  rw [setLeaderBy, List.getLast?_eq_some_getLast hne]
  rfl

/-- `set_leader_by_addr`. -/
def setLeaderByAddr (s : Node) (ipAddress portNum : Bytes) : Node :=
  s.setLeaderBy fun p => strcmp ipAddress p.ipAddress = 0 ∧ strcmp portNum p.portNum = 0

/-- `set_leader_by_nickname`. -/
def setLeaderByNickname (s : Node) (nickname : Bytes) : Node :=
  s.setLeaderBy fun p => strcmp nickname p.nickname = 0

/-- `TAILQ_REMOVE` of the participant at an address. -/
def tailqRemove (s : Node) (ptr : ℕ) : Node :=
  { s with participants := s.participants.filter fun p => p.ptr ≠ ptr }

/-- `decr_num_participants`. -/
def decrNumParticipants (s : Node) : Node := { s with numParticipants := s.numParticipants - 1 }

end Node

end Dchat.Chat
