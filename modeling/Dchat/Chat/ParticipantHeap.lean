import Dchat.Chat.Join
import Dchat.Foundations.TailQueue

/-!
# The participants in memory

The program once more, with the participants where they are: each `struct Participant` is a piece of
memory, the list is the tail queue of `sys/queue.h` through their links, `leader` is a pointer, and
`free_participant` gives the memory back. The functions are those of `model.c`, `leader.c`,
`nonleader.c` and `dchat.c` that touch a participant or call a function that does. A `struct` and
its three texts are one piece of memory, as they are allocated and freed together, and `malloc` does
not return an address again, so that no use of freed memory goes unseen.

A loop over the list gets as many turns as there ever were participants, and one.
-/

namespace Dchat.Chat

open CString Stdio RMP Runs Encryption Queue

/-- The fields of a `struct Participant` but the links. -/
structure Record where
  nickname : Bytes
  ipAddress : Bytes
  portNum : Bytes
  isLeader : Bool
  deriving DecidableEq

/-- The participant whose fields lie at an address. -/
def Record.participant (r : Record) (a : Address) : Participant :=
  ⟨⟨a, r.nickname, r.ipAddress, r.portNum⟩, r.isLeader⟩

/-- The globals, with the participants in memory, the next address `malloc` returns, and what the
process has sent and printed. -/
structure HeapNode where
  thisNickname : Bytes
  isLeader : Bool
  leader : Option Address
  participantsHead : TailqHead Record
  numParticipants : ℤ
  nextPtr : ℕ
  clockNum : ℤ
  inElection : Bool
  startedElection : Bool
  sent : List Sent
  printed : List Bytes

namespace HeapNode

/-- `RMP_sendTo`, of a string with its NUL. -/
def rmpSendTo (env : Env) (h : HeapNode) (dst : RmpAddress) (message : Bytes) : ℤ × HeapNode :=
  let result := env.sendTo h.sent.length dst message
  (result, { h with sent := h.sent ++ [⟨dst, message, result⟩] })

/-- `printf` of a line. -/
def print (h : HeapNode) (line : Bytes) : HeapNode := { h with printed := h.printed ++ [line] }

/-- The fields that a pointer to a participant leads to. -/
def deref (h : HeapNode) : Option Address → Except Fault Participant
  | none => .error .nullPointer
  | some a => do
    let e ← h.participantsHead.deref (some a)
    .ok (e.payload.participant a)

/-- `TAILQ_FOREACH` over the participants. The state of the loop holds the queue. -/
def foreach {σ : Type} (h : HeapNode) (queue : σ → TailqHead Record)
    (body : Address → σ → Except Fault (ForInStep σ)) (s : σ) : Except Fault σ :=
  TailqHead.tailqForeach queue body (h.nextPtr + 1) h.participantsHead.lhFirst s

/-! ## `model.c` -/

/-- `model_init`, in a process with the given nickname and role. -/
def modelInit (thisNickname : Bytes) (isLeader : Bool) : HeapNode where
  thisNickname := thisNickname
  isLeader := isLeader
  leader := none
  participantsHead := .init
  numParticipants := 0
  nextPtr := 0
  clockNum := 0
  inElection := false
  startedElection := false
  sent := []
  printed := []

/-- `free_participant`. -/
def freeParticipant (h : HeapNode) (p : Address) : Except Fault HeapNode := do
  let q ← h.participantsHead.free (some p)
  .ok { h with participantsHead := q }

/-- `if (prev_p) free_participant(prev_p)`. -/
def freePrev (h : HeapNode) : Option Address → Except Fault HeapNode
  | none => .ok h
  | some p => h.freeParticipant p

/-- `TAILQ_REMOVE` of a participant. -/
def tailqRemove (h : HeapNode) (p : Address) : Except Fault HeapNode := do
  let q ← h.participantsHead.tailqRemove (some p)
  .ok { h with participantsHead := q }

/-- A turn of the loop of `empty_list`: the participant before is freed, now that the link in it has
been read. -/
def emptyTurn (currP : Address) : HeapNode × Option Address →
    Except Fault (ForInStep (HeapNode × Option Address))
  | (h, prevP) => do
    let h ← h.freePrev prevP
    let h ← h.tailqRemove currP
    .ok (.yield (h, some currP))

/-- `empty_list`. -/
def emptyList (h : HeapNode) : Except Fault HeapNode := do
  let (h, prevP) ← h.foreach (fun s => s.1.participantsHead) emptyTurn (h, none)
  let h ← h.freePrev prevP
  .ok { h with numParticipants := 0, leader := none }

/-- `insert_participant`. The texts are copied by `strncpy` into arrays of one byte more than the
maximum length: a longer text leaves its array without a NUL. -/
def insertParticipant (h : HeapNode) (nickname ipAddress portNum : Bytes) (isLeader : Bool) :
    Except Fault HeapNode :=
  if maxNicknameLen < nickname.length ∨ maxIpAddressLen < ipAddress.length ∨
      maxPortNumLen < portNum.length then .error .unterminated
  else do
    let p := h.nextPtr
    let q ← h.participantsHead.tailqInsertTail p ⟨nickname, ipAddress, portNum, isLeader⟩
    .ok { h with
      leader := if isLeader then some p else h.leader
      participantsHead := q
      numParticipants := h.numParticipants + 1
      nextPtr := h.nextPtr + 1 }

/-- `contains_participant`. -/
def containsParticipant (h : HeapNode) (nickname : Bytes) : Except Fault Bool :=
  h.foreach (fun _ => h.participantsHead)
    (fun currP _ => do
      let p ← h.deref (some currP)
      if strcmp p.nickname nickname = 0 then .ok (.done true) else .ok (.yield false))
    false

/-- A turn of the loop of `set_leader_by_addr` and `set_leader_by_nickname`. -/
def setLeaderTurn (test : Participant → Bool) (currP : Address) (h : HeapNode) :
    Except Fault (ForInStep HeapNode) := do
  let p ← h.deref (some currP)
  let q ← h.participantsHead.write currP fun r => { r with isLeader := test p }
  let leader := if test p then some currP else h.leader
  .ok (.yield { h with leader := leader, participantsHead := q })

/-- The loop of `set_leader_by_addr` and `set_leader_by_nickname`. -/
def setLeaderBy (test : Participant → Bool) (h : HeapNode) : Except Fault HeapNode :=
  h.foreach participantsHead (setLeaderTurn test) h

/-- `set_leader_by_addr`. -/
def setLeaderByAddr (h : HeapNode) (ipAddress portNum : Bytes) : Except Fault HeapNode :=
  h.setLeaderBy fun p => strcmp ipAddress p.ipAddress = 0 ∧ strcmp portNum p.portNum = 0

/-- `set_leader_by_nickname`. -/
def setLeaderByNickname (h : HeapNode) (nickname : Bytes) : Except Fault HeapNode :=
  h.setLeaderBy fun p => strcmp nickname p.nickname = 0

/-- `decr_num_participants`. -/
def decrNumParticipants (h : HeapNode) : HeapNode :=
  { h with numParticipants := h.numParticipants - 1 }

/-! ## `leader.c` -/

/-- A turn of the loop of `generate_participant_update`. -/
def writeTurn (h : HeapNode) (buffLen : ℕ) (currP : Address) (c : Cursor) :
    Except Fault (ForInStep Cursor) := do
  let p ← h.deref (some currP)
  if p.isLeader then .ok (.yield c)
  else do
    let c ← c.snprintf buffLen buffLen (entryText p.toPeer)
    .ok (.yield c)

/-- `generate_participant_update`, into a buffer of `buffLen` bytes. -/
def generateParticipantUpdate (h : HeapNode) (buffLen : ℕ) (joinLeaveMessage : Bytes) :
    Except Fault Bytes := do
  let leader ← h.deref h.leader
  let c ← Cursor.empty.snprintf buffLen buffLen
    (messageParticipantUpdate ++ str " @" ++ entryText leader.toPeer)
  let c ← h.foreach (fun _ => h.participantsHead) (h.writeTurn buffLen) c
  let c ← c.snprintf buffLen buffLen (str "= " ++ joinLeaveMessage)
  .ok c.text

/-- The globals and the locals of `leader_broadcast_message` in its loop: `remove_next`,
`need_update`, and `update_buff` with `update_buff_pos`. -/
structure Broadcasting where
  node : HeapNode
  removeNext : Bool
  departures : Departures

/-- `if (prev_p && remove_next) free_participant(prev_p)`. -/
def Broadcasting.freeRemoved (l : Broadcasting) (prevP : Option Address) : Except Fault HeapNode :=
  if l.removeNext then l.node.freePrev prevP else .ok l.node

/-- A turn of the loop of `leader_broadcast_message`. `prevP` is the value of `prev_p`. -/
def broadcastTurn (env : Env) (message : Bytes) (prevP : Option Address) (currP : Address)
    (l : Broadcasting) : Except Fault (ForInStep Broadcasting) := do
  let h ← l.freeRemoved prevP
  let p ← h.deref (some currP)
  if p.isLeader then .ok (.yield ⟨h, false, l.departures⟩)
  else
    match env.getAddressFor p.ipAddress p.portNum with
    | none => .error .exit
    | some addr =>
      let (status, h) := h.rmpSendTo env addr message
      if status < 0 then do
        let c ← l.departures.updateBuff.snprintf maxBufferLen
          (maxBufferLen - l.departures.updateBuff.pos) (p.nickname ++ str ", ")
        let h ← h.tailqRemove currP
        .ok (.yield ⟨h.decrNumParticipants, true, ⟨true, c⟩⟩)
      else .ok (.yield ⟨h, false, l.departures⟩)

/-- `leader_broadcast_message`, with a bound on the depth of its recursion. The loop never assigns
`prev_p`, which stays the null pointer it is initialised with. -/
def leaderBroadcastMessageFuel (env : Env) : ℕ → HeapNode → Bytes → Except Fault HeapNode
  | 0, _, _ => .error .diverges
  | fuel + 1, h, message => do
    let prevP := none
    let l ← h.foreach (fun l => l.node.participantsHead) (broadcastTurn env message prevP)
      ⟨h, false, ⟨false, .empty⟩⟩
    let h ← l.freeRemoved prevP
    if l.departures.needUpdate then
      if maxBufferLen ≤ l.departures.updateBuff.pos - 2 then .error .bufferOverflow
      else
        let names := l.departures.updateBuff.text.take (l.departures.updateBuff.pos - 2)
        let leave := snprintf 1024 (leaveMessage names)
        let updateCommand ← h.generateParticipantUpdate 1024 leave
        let h ← leaderBroadcastMessageFuel env fuel h updateCommand
        .ok (h.print leave)
    else .ok h

/-- `leader_broadcast_message`. Every call that recurses has removed a participant. -/
def leaderBroadcastMessage (env : Env) (h : HeapNode) (message : Bytes) : Except Fault HeapNode :=
  leaderBroadcastMessageFuel env (h.nextPtr + 1) h message

/-! ## `dchat.c` and `nonleader.c`: elections -/

/-- A turn of the loop of `nonleader_broadcast_message`. -/
def nonleaderTurn (env : Env) (message : Bytes) (currP : Address) (h : HeapNode) :
    Except Fault (ForInStep HeapNode) := do
  let p ← h.deref (some currP)
  if strcmp h.thisNickname p.nickname = 0 then .ok (.yield h)
  else
    match env.getAddressFor p.ipAddress p.portNum with
    | none => .error .exit
    | some addr => .ok (.yield (h.rmpSendTo env addr message).2)

/-- `nonleader_broadcast_message`. -/
def nonleaderBroadcastMessage (env : Env) (h : HeapNode) (message : Bytes) : Except Fault HeapNode :=
  h.foreach participantsHead (nonleaderTurn env message) h

/-- `start_election`. -/
def startElection (env : Env) (h : HeapNode) : Except Fault HeapNode := do
  let h ← h.nonleaderBroadcastMessage env messageStartElection
  .ok { h with inElection := true, startedElection := true }

/-- `stop_election`. -/
def stopElection (h : HeapNode) : HeapNode := { h with inElection := true, startedElection := false }

/-- A turn of the search of `respond_to_leader_election`: `participant_address`, and
`sender_nickname`. -/
def senderTurn (env : Env) (h : HeapNode) (recvAddr : RmpAddress) (currP : Address) :
    RmpAddress × Option Bytes → Except Fault (ForInStep (RmpAddress × Option Bytes))
  | (before, sender) => do
    let p ← h.deref (some currP)
    let addr := (env.getAddressFor p.ipAddress p.portNum).getD before
    if addr = recvAddr then .ok (.done (addr, some p.nickname)) else .ok (.yield (addr, sender))

/-- `respond_to_leader_election`. An unknown sender leaves a null pointer for `strcmp`. -/
def respondToLeaderElection (env : Env) (locals : Locals) (h : HeapNode) (recvAddr : RmpAddress) :
    Except Fault HeapNode := do
  let (_, sender) ← h.foreach (fun _ => h.participantsHead) (senderTurn env h recvAddr)
    (locals.address, none)
  match sender with
  | none => .error .nullPointer
  | some senderNickname =>
    if 0 < strcmp h.thisNickname senderNickname then
      startElection env (h.rmpSendTo env recvAddr messageStopElection).2
    else .ok { h with inElection := true, startedElection := false }

/-- `set_new_leader`. -/
def setNewLeader (h : HeapNode) (recvAddr : RmpAddress) : Except Fault HeapNode := do
  let h := { h with inElection := false, startedElection := false }
  let h ← h.setLeaderByAddr (inetNtoa recvAddr) (portText recvAddr)
  .ok { h with isLeader := false }

/-- `declare_victory`. -/
def declareVictory (env : Env) (h : HeapNode) : Except Fault HeapNode := do
  let h := { h with inElection := false, startedElection := false }
  let h ← h.setLeaderByNickname h.thisNickname
  let h := { h with isLeader := true }
  let h ← h.leaderBroadcastMessage env messageElectionVictory
  let victory := snprintf 1024 (victoryMessage h.thisNickname)
  let updateCommand ← h.generateParticipantUpdate maxBufferLen victory
  let h ← h.leaderBroadcastMessage env updateCommand
  let h := h.print victory
  .ok (if h.numParticipants = 1 then h.print (str "Waiting for others to join...") else h)

/-- `get_leader_addr`: if the address is refused the result stays as it was. -/
def getLeaderAddr (env : Env) (locals : Locals) (h : HeapNode) : Except Fault RmpAddress := do
  let leader ← h.deref h.leader
  .ok ((env.getAddressFor leader.ipAddress leader.portNum).getD locals.address)

/-- `send_heartbeat`. -/
def sendHeartbeat (env : Env) (locals : Locals) (h : HeapNode) : Except Fault HeapNode :=
  if h.isLeader then h.leaderBroadcastMessage env messageHeartbeat
  else do
    let leaderAddr ← h.getLeaderAddr env locals
    let (status, h) := h.rmpSendTo env leaderAddr messageHeartbeat
    if status = rmpETimeout then h.startElection env
    else if status < 0 then .error .exit
    else .ok h

/-! ## Receiving -/

/-- The loop of `process_participant_update` over the entries, from `currPos` on: the state and
`currPos` at its end. -/
def scanParticipants (joining : Bool) :
    ℕ → HeapNode → Bytes → Bool → Except Fault (HeapNode × Bytes)
  | 0, _, _, _ => .error .diverges
  | fuel + 1, h, currPos, isFirst =>
    if currPos = [] ∨ currPos.head? = some 61 then .ok (h, currPos)
    else do
      let r ← sscanf participantFormat currPos
      if r.ret = eof then .error .exit
      else if r.ret < 3 then .error .exit
      else
        let h ← h.insertParticipant (r.text 0 []) (r.text 1 []) (r.text 2 []) isFirst
        let line := r.text 0 [] ++ str " " ++ r.text 1 [] ++ str ":" ++ r.text 2 [] ++
          if isFirst then str " (Leader)" else []
        let h := if joining then h.print line else h
        scanParticipants joining fuel h
          (skipSpaces (currPos.drop (strcspn currPos (str " =")))) false

/-- `process_participant_update`. -/
def processParticipantUpdate (h : HeapNode) (command : Bytes) (joining : Bool) :
    Except Fault HeapNode := do
  let h ← h.emptyList
  match strchr command 64 with
  | none => .error .nullPointer
  | some found =>
    let currPos := skipSpaces found.tail
    let (h, currPos) ← scanParticipants joining (currPos.length + 1) h currPos true
    let h := if joining then h.print [] else h
    if currPos.head? = some 61 then
      .ok (if joining then h else h.print (skipSpaces currPos.tail))
    else .error .exit

/-- `incr_clock`: the value before, and the state after. -/
def incrClock (h : HeapNode) : Except Fault (ℤ × HeapNode) :=
  if h.clockNum = 2147483647 then .error .integerOverflow
  else .ok (h.clockNum, { h with clockNum := h.clockNum + 1 })

/-- `leader_receive_message`, the ADD_ME branch. -/
def leaderReceiveAddMe (env : Env) (h : HeapNode) (restCommand : Bytes) (recvAddr : RmpAddress) :
    Except Fault HeapNode := do
  let contains ← h.containsParticipant restCommand
  if contains then
    let (status, h) := h.rmpSendTo env recvAddr messageJoinNicknameFailure
    if status < 0 then .error .exit else .ok h
  else
    let portNum := portText recvAddr
    let ipAddress := inetNtoa recvAddr
    let h ← h.insertParticipant restCommand ipAddress portNum false
    let join := snprintf maxBufferLen (joinMessage restCommand ipAddress portNum)
    let update ← h.generateParticipantUpdate maxBufferLen join
    let h ← h.leaderBroadcastMessage env update
    .ok (h.print join)

/-- `leader_receive_message`, the MESSAGE_REQUEST branch. -/
def leaderReceiveRequest (env : Env) (locals : Locals) (h : HeapNode) (restCommand : Bytes) :
    Except Fault HeapNode := do
  let (senderNickname, payload) ← scanRequest locals restCommand
  let (clock, h) ← h.incrClock
  let h ← h.leaderBroadcastMessage env (snprintf 1024 (broadcastText clock senderNickname payload))
  .ok (h.print (senderNickname ++ str ":: " ++ decryptedText locals payload))

/-- `leader_receive_message`. -/
def leaderReceiveMessage (env : Env) (locals : Locals) (h : HeapNode) (buf : Bytes)
    (recvAddr : RmpAddress) : Except Fault HeapNode := do
  let (commandType, restCommand) ← scanCommand locals buf
  if strcmp messageAddMe commandType = 0 then h.leaderReceiveAddMe env restCommand recvAddr
  else if strcmp messageRequest commandType = 0 then h.leaderReceiveRequest env locals restCommand
  else if strcmp messageHeartbeat commandType = 0 then .ok h
  else if strcmp messageStartElection commandType = 0 then
    h.respondToLeaderElection env locals recvAddr
  else .ok (h.print (str "Unrecognized command: " ++ buf))

/-- `non_leader_receive_message`, the MESSAGE_BROADCAST branch. -/
def nonLeaderReceiveBroadcast (locals : Locals) (h : HeapNode) (restMessage : Bytes) :
    Except Fault HeapNode := do
  let (messageId, senderNickname, payload) ← scanBroadcast locals restMessage
  let h := { h with clockNum := messageId }
  .ok (h.print (senderNickname ++ str ":: " ++ decryptedText locals payload))

/-- `non_leader_receive_message`, the ADD_ME branch. -/
def nonLeaderReceiveAddMe (env : Env) (h : HeapNode) (recvAddr : RmpAddress) :
    Except Fault HeapNode :=
  if h.inElection then .ok (h.rmpSendTo env recvAddr messageJoinFailure).2
  else do
    let leader ← h.deref h.leader
    let request := snprintf (10 + maxIpAddressLen + 1 + maxPortNumLen + 1)
      (messageLeaderId ++ str " " ++ leader.ipAddress ++ str ":" ++ leader.portNum)
    let (status, h) := h.rmpSendTo env recvAddr request
    if status < 0 then .error .exit else .ok h

/-- `non_leader_receive_message`. -/
def nonLeaderReceiveMessage (env : Env) (locals : Locals) (h : HeapNode) (buf : Bytes)
    (recvAddr : RmpAddress) : Except Fault HeapNode := do
  let (messageType, restMessage) ← scanCommand locals buf
  if strcmp messageBroadcast messageType = 0 then h.nonLeaderReceiveBroadcast locals restMessage
  else if strcmp messageParticipantUpdate messageType = 0 then h.processParticipantUpdate buf false
  else if strcmp messageAddMe messageType = 0 then h.nonLeaderReceiveAddMe env recvAddr
  else if strcmp messageHeartbeat messageType = 0 then .ok h
  else if strcmp messageStartElection messageType = 0 then
    h.respondToLeaderElection env locals recvAddr
  else if strcmp messageStopElection messageType = 0 then .ok h.stopElection
  else if strcmp messageElectionVictory messageType = 0 then h.setNewLeader recvAddr
  else .error .exit

/-- `recv_stdin`: `buf` holds the bytes read, the last one replaced by a NUL. -/
def recvStdin (env : Env) (locals : Locals) (h : HeapNode) (buf : Bytes) : Except Fault HeapNode :=
  let written := (encrypt buf encryptionKey maxBufferLen).2
  let ciphertext := cString (written ++ locals.ciphertext.drop written.length)
  if h.isLeader then do
    let (clock, h) ← h.incrClock
    let h ← h.leaderBroadcastMessage env
      (snprintf maxBufferLen (broadcastText clock h.thisNickname ciphertext))
    .ok (h.print (h.thisNickname ++ str ":: " ++ cString buf))
  else do
    let leaderAddr ← h.getLeaderAddr env locals
    let (status, h) := h.rmpSendTo env leaderAddr
      (snprintf maxBufferLen (requestText h.thisNickname ciphertext))
    if status = rmpETimeout then h.startElection env
    else if status < 0 then .error .exit
    else .ok h

/-! ## The life of a process -/

/-- The reaction of `chat` to an event, where its conditions admit it. -/
def chatStep (env : Env) (locals : Locals) (h : HeapNode) : Event → Option (Except Fault HeapNode)
  | .stdin buf =>
    if 1 < buf.length then
      some (if h.numParticipants ≠ 1 then h.recvStdin env locals (buf.dropLast ++ [0]) else .ok h)
    else none
  | .receive buf recvAddr =>
    some (if h.isLeader then h.leaderReceiveMessage env locals buf recvAddr
      else h.nonLeaderReceiveMessage env locals buf recvAddr)
  | .heartbeat => if h.inElection then none else some (h.sendHeartbeat env locals)
  | .victory =>
    if h.isLeader = false ∧ h.inElection = true ∧ h.startedElection = true then
      some (h.declareVictory env)
    else none
  | .restart =>
    if h.isLeader = false ∧ h.inElection = true ∧ h.startedElection = false then
      some (h.startElection env)
    else none

/-- `start_chat`, on a socket of the given address. -/
def startChat (nickname ipAddress portNum : Bytes) : Except Fault HeapNode := do
  let h ← (modelInit nickname true).insertParticipant nickname ipAddress portNum true
  .ok ((h.print (startLine nickname ipAddress portNum)).print
    (str "Waiting for others to join..."))

/-- `exit_chat`. -/
def exitChat (h : HeapNode) : Except Fault HeapNode := do
  let h ← h.emptyList
  .ok (h.print (10 :: str "You left the chat."))

end HeapNode

/-- The locals of `join_chat` in its loop, with the globals. -/
structure HeapJoining where
  node : HeapNode
  addr : Bytes
  port : Bytes
  leaderHint : RmpAddress
  failedJoinAttempts : ℕ

/-- A process: in `join_chat`, or in `chat`. -/
inductive HeapProcess
  | joining (j : HeapJoining)
  | chatting (h : HeapNode)

namespace HeapJoining

/-- A round of the loop of `join_chat` up to `RMP_listen`. -/
def sendAddMe (env : Env) (j : HeapJoining) : Except Fault HeapJoining :=
  if j.failedJoinAttempts < 10 then
    let (status, h) := j.node.rmpSendTo env j.leaderHint (addMeCmd j.node.thisNickname)
    if status < 0 then .error .exit else .ok { j with node := h }
  else .error .exit

/-- `join_chat` up to the first `RMP_listen`, on a socket of the given address. -/
def joinChat (env : Env) (nickname ipAddress portNum addrPort : Bytes) : Except Fault HeapJoining :=
  let h := (HeapNode.modelInit nickname false).print (joinLine nickname addrPort ipAddress portNum)
  let colonPos := strcspn addrPort (str ":")
  if colonPos = addrPort.length then .error .exit
  -- the NUL at `addr[colon_pos]`
  else if maxIpAddressLen < colonPos then .error .bufferOverflow
  else
    let addr := addrPort.take colonPos
    let port := addrPort.drop (colonPos + 1)
    if maxPortNumLen < port.length then .error .unterminated
    else
      match env.getAddressFor addr port with
      | none => .error .exit
      | some leaderHint => sendAddMe env ⟨h, addr, port, leaderHint, 0⟩

/-- The rest of a round of the loop of `join_chat`. -/
def joinReceive (env : Env) (j : HeapJoining) (recvBuff : Bytes) : Except Fault HeapProcess := do
  let r ← sscanf joinFormat recvBuff
  let commandType := r.text 0 []
  let failed := { j with failedJoinAttempts := j.failedJoinAttempts + 1 }
  if r.ret = eof then .error .exit
  else if strcmp messageParticipantUpdate commandType = 0 then
    let h ← (j.node.print (str "Succeeded, current users:")).processParticipantUpdate recvBuff true
    .ok (.chatting h)
  else if strcmp messageJoinNicknameFailure commandType = 0 then .error .exit
  else if strcmp messageJoinFailure commandType = 0 then
    let j ← sendAddMe env failed
    .ok (.joining j)
  else if strcmp messageLeaderId commandType = 0 then
    let r ← sscanf leaderIdFormat recvBuff
    if r.ret = eof then .error .exit
    else
      let addr := r.text 1 j.addr
      let port := r.text 2 j.port
      match env.getAddressFor addr port with
      | none => .error .exit
      | some leaderHint =>
        let j ← sendAddMe env { failed with addr := addr, port := port, leaderHint := leaderHint }
        .ok (.joining j)
  else .error .exit

end HeapJoining

/-- The reaction of a process to an event. In `join_chat` it waits for a message only. -/
def heapProcessStep (env : Env) (locals : Locals) :
    HeapProcess → Event → Option (Except Fault HeapProcess)
  | .joining j, .receive buf _ => some (j.joinReceive env buf)
  | .joining _, _ => none
  | .chatting h, event => (h.chatStep env locals event).map fun r => r.map .chatting

/-- A reaction after which the process is still there. -/
def heapStep (p : HeapProcess) (o : Occurrence) : Option HeapProcess := do
  let result ← heapProcessStep o.env o.locals p o.event
  result.toOption

/-- The process has just come to `chat` as the founder of a chat, or to the loop of `join_chat`. -/
inductive HeapStarted : HeapProcess → Prop
  | founder {nickname ipAddress portNum : Bytes} {h : HeapNode}
      (hstart : HeapNode.startChat nickname ipAddress portNum = .ok h) : HeapStarted (.chatting h)
  | joiner {env : Env} {nickname ipAddress portNum addrPort : Bytes} {j : HeapJoining}
      (hjoin : HeapJoining.joinChat env nickname ipAddress portNum addrPort = .ok j) :
      HeapStarted (.joining j)

end Dchat.Chat
