import Dchat.Chat.Election
import Dchat.Encryption

/-!
# Receiving messages, and the event loop

`leader_receive_message` of `leader.c`, `non_leader_receive_message` of `nonleader.c`,
`recv_stdin` and the ADD_ME of `join_chat` in `dchat.c`, and the events that the loop of `chat`
reacts to.
-/

namespace Dchat.Chat

open CString Stdio RMP Encryption

/-! ## The source -/

/-- The string at the start of a memory area. -/
def cString (memory : Bytes) : Bytes := memory.takeWhile (· != 0)

/-- `decrypt` of a payload into `plaintext_buffer`, read as a string. -/
def decryptedText (locals : Locals) (payload : Bytes) : Bytes :=
  let written := (decrypt payload encryptionKey maxBufferLen).2
  cString (written ++ locals.plaintext.drop written.length)

/-- `incr_clock`: the value before, and the state after. -/
def incrClock (s : Node) : Except Fault (ℤ × Node) :=
  if s.clockNum = 2147483647 then .error .integerOverflow
  else .ok (s.clockNum, { s with clockNum := s.clockNum + 1 })

/-- `[^\n]`. -/
def isLineByte (c : UInt8) : Bool := c != 10

/-- `"%s %[^\n]"`: a command and the rest of its line. -/
def commandFormat : List Directive := [.str 20, .white, .set isLineByte (maxBufferLen + 1)]

/-- `"%[^ =]= %[^\n]"`: a nickname and a payload in a MESSAGE_REQUEST. -/
def requestFormat : List Directive :=
  [.set (fun c => !(str " =").contains c) maxNicknameLen, .lit 61, .white,
    .set isLineByte maxBufferLen]

/-- `"%d %[^= ]= %[^\n]"`: an id, a nickname and a payload in a MESSAGE_BROADCAST. -/
def broadcastFormat : List Directive :=
  [.int, .white, .set (fun c => !(str "= ").contains c) (maxNicknameLen + 1), .lit 61, .white,
    .set isLineByte (maxBufferLen + 1)]

/-- The first `sscanf` of a received message: the command and the rest. -/
def scanCommand (locals : Locals) (buf : Bytes) : Except Fault (Bytes × Bytes) := do
  let r ← sscanf commandFormat buf
  if r.ret = eof then .error .exit else .ok (r.text 0 [], r.text 1 locals.rest)

/-- The `sscanf` of a MESSAGE_REQUEST: the nickname of the sender and the payload. -/
def scanRequest (locals : Locals) (restCommand : Bytes) : Except Fault (Bytes × Bytes) := do
  let r ← sscanf requestFormat restCommand
  if r.ret = eof then .error .exit
  else .ok (r.text 0 locals.senderNickname, r.text 1 locals.payload)

/-- The `sscanf` of a MESSAGE_BROADCAST: the id, the nickname of the sender and the payload. -/
def scanBroadcast (locals : Locals) (restMessage : Bytes) : Except Fault (ℤ × Bytes × Bytes) := do
  let r ← sscanf broadcastFormat restMessage
  if r.ret = eof then .error .exit
  else .ok (r.int 0 locals.messageId, r.text 1 locals.senderNickname, r.text 2 locals.payload)

/-- `"%s %d %s= %s"`. -/
def broadcastText (id : ℤ) (nickname payload : Bytes) : Bytes :=
  messageBroadcast ++ str " " ++ decimalInt id ++ str " " ++ nickname ++ str "= " ++ payload

/-- `"%s %s= %s"`. -/
def requestText (nickname payload : Bytes) : Bytes :=
  messageRequest ++ str " " ++ nickname ++ str "= " ++ payload

/-- The ADD_ME command of `join_chat`, in an array of `sizeof(MESSAGE_ADD_ME) + 22` bytes. -/
def addMeCmd (nickname : Bytes) : Bytes := snprintf 29 (messageAddMe ++ str " " ++ nickname)

/-- `"NOTICE %s joined on %s:%s"`. -/
def joinMessage (nickname ipAddress portNum : Bytes) : Bytes :=
  str "NOTICE " ++ nickname ++ str " joined on " ++ ipAddress ++ str ":" ++ portNum

/-- `leader_receive_message`, the ADD_ME branch. -/
def leaderReceiveAddMe (env : Env) (s : Node) (restCommand : Bytes) (recvAddr : RmpAddress) :
    Except Fault Node :=
  if s.containsParticipant restCommand then
    let (status, s) := s.rmpSendTo env recvAddr messageJoinNicknameFailure
    if status < 0 then .error .exit else .ok s
  else do
    let portNum := portText recvAddr
    let ipAddress := inetNtoa recvAddr
    let s ← s.insertParticipant restCommand ipAddress portNum false
    let join := snprintf maxBufferLen (joinMessage restCommand ipAddress portNum)
    let update ← generateParticipantUpdate s maxBufferLen join
    let s ← leaderBroadcastMessage env s update
    .ok (s.print join)

/-- `leader_receive_message`, the MESSAGE_REQUEST branch. -/
def leaderReceiveRequest (env : Env) (locals : Locals) (s : Node) (restCommand : Bytes) :
    Except Fault Node := do
  let (senderNickname, payload) ← scanRequest locals restCommand
  let (clock, s) ← incrClock s
  let s ← leaderBroadcastMessage env s (snprintf 1024 (broadcastText clock senderNickname payload))
  .ok (s.print (senderNickname ++ str ":: " ++ decryptedText locals payload))

/-- `leader_receive_message`. -/
def leaderReceiveMessage (env : Env) (locals : Locals) (s : Node) (buf : Bytes)
    (recvAddr : RmpAddress) : Except Fault Node := do
  let (commandType, restCommand) ← scanCommand locals buf
  if strcmp messageAddMe commandType = 0 then leaderReceiveAddMe env s restCommand recvAddr
  else if strcmp messageRequest commandType = 0 then leaderReceiveRequest env locals s restCommand
  else if strcmp messageHeartbeat commandType = 0 then .ok s
  else if strcmp messageStartElection commandType = 0 then
    respondToLeaderElection env locals s recvAddr
  else .ok (s.print (str "Unrecognized command: " ++ buf))

/-- `non_leader_receive_message`, the MESSAGE_BROADCAST branch. -/
def nonLeaderReceiveBroadcast (locals : Locals) (s : Node) (restMessage : Bytes) :
    Except Fault Node := do
  let (messageId, senderNickname, payload) ← scanBroadcast locals restMessage
  let s := { s with clockNum := messageId }
  .ok (s.print (senderNickname ++ str ":: " ++ decryptedText locals payload))

/-- `non_leader_receive_message`, the ADD_ME branch. -/
def nonLeaderReceiveAddMe (env : Env) (s : Node) (recvAddr : RmpAddress) : Except Fault Node :=
  if s.inElection then .ok (s.rmpSendTo env recvAddr messageJoinFailure).2
  else
    match s.leader with
    | none => .error .nullPointer
    | some leader =>
      let request := snprintf (10 + maxIpAddressLen + 1 + maxPortNumLen + 1)
        (messageLeaderId ++ str " " ++ leader.ipAddress ++ str ":" ++ leader.portNum)
      let (status, s) := s.rmpSendTo env recvAddr request
      if status < 0 then .error .exit else .ok s

/-- `non_leader_receive_message`. -/
def nonLeaderReceiveMessage (env : Env) (locals : Locals) (s : Node) (buf : Bytes)
    (recvAddr : RmpAddress) : Except Fault Node := do
  let (messageType, restMessage) ← scanCommand locals buf
  if strcmp messageBroadcast messageType = 0 then nonLeaderReceiveBroadcast locals s restMessage
  else if strcmp messageParticipantUpdate messageType = 0 then processParticipantUpdate s buf false
  else if strcmp messageAddMe messageType = 0 then nonLeaderReceiveAddMe env s recvAddr
  else if strcmp messageHeartbeat messageType = 0 then .ok s
  else if strcmp messageStartElection messageType = 0 then
    respondToLeaderElection env locals s recvAddr
  else if strcmp messageStopElection messageType = 0 then .ok (stopElection s)
  else if strcmp messageElectionVictory messageType = 0 then .ok (setNewLeader s recvAddr)
  else .error .exit

/-- `recv_stdin`: `buf` holds the bytes read, the last one replaced by a NUL. -/
def recvStdin (env : Env) (locals : Locals) (s : Node) (buf : Bytes) : Except Fault Node :=
  let written := (encrypt buf encryptionKey maxBufferLen).2
  let ciphertext := cString (written ++ locals.ciphertext.drop written.length)
  if s.isLeader then do
    let (clock, s) ← incrClock s
    let s ← leaderBroadcastMessage env s
      (snprintf maxBufferLen (broadcastText clock s.thisNickname ciphertext))
    .ok (s.print (s.thisNickname ++ str ":: " ++ cString buf))
  else do
    let leaderAddr ← getLeaderAddr env locals s
    let (status, s) := s.rmpSendTo env leaderAddr
      (snprintf maxBufferLen (requestText s.thisNickname ciphertext))
    if status = rmpETimeout then startElection env s
    else if status < 0 then .error .exit
    else .ok s

/-- What the loop of `chat` reacts to: a line from standard input, a message, and the three
timers. -/
inductive Event
  | stdin (buf : Bytes)
  | receive (buf : Bytes) (recvAddr : RmpAddress)
  | heartbeat
  | victory
  | restart
  deriving DecidableEq

/-- The reaction of `chat` to an event, where its conditions admit it. A line is passed on if it has
more than one byte and the node is not alone. -/
def chatStep (env : Env) (locals : Locals) (s : Node) : Event → Option (Except Fault Node)
  | .stdin buf =>
    if 1 < buf.length then
      some (if s.numParticipants ≠ 1 then recvStdin env locals s (buf.dropLast ++ [0]) else .ok s)
    else none
  | .receive buf recvAddr =>
    some (if s.isLeader then leaderReceiveMessage env locals s buf recvAddr
      else nonLeaderReceiveMessage env locals s buf recvAddr)
  | .heartbeat => if s.inElection then none else some (sendHeartbeat env locals s)
  | .victory =>
    if s.isLeader = false ∧ s.inElection = true ∧ s.startedElection = true then
      some (declareVictory env s)
    else none
  | .restart =>
    if s.isLeader = false ∧ s.inElection = true ∧ s.startedElection = false then
      some (startElection env s)
    else none

/-! ## Scanning a command -/

/-- The first word of a message. -/
def commandWord (buf : Bytes) : Bytes := (buf.dropWhile isSpace).takeWhile fun c => !isSpace c

/-- What is read of its first line behind the word and white space. -/
def commandRest (buf : Bytes) : Bytes :=
  (((buf.dropWhile isSpace).dropWhile fun c => !isSpace c).dropWhile isSpace).takeWhile isLineByte

section Scanning

variable {locals : Locals}

/-- The command is the first word. -/
theorem scanCommand_word {word rest : Bytes} (hne : word ≠ [])
    (hw : (word.all fun c => !isSpace c) = true) (hlen : word.length < 20)
    (hr : Stops (fun c => !isSpace c) rest) {r : Bytes × Bytes}
    (h : scanCommand locals (word ++ rest) = .ok r) : r.1 = word := by
  unfold scanCommand at h
  rw [commandFormat, sscanf_str hne hw hlen hr] at h
  cases hrest : sscanf [.white, .set isLineByte (maxBufferLen + 1)] rest with
  | error e =>
    rw [hrest] at h
    cases h
  | ok r' =>
    rw [hrest] at h
    obtain ⟨r'', hr'', h⟩ := Fault.bind_eq_ok.1 h
    obtain rfl := Except.ok.inj hr''
    split at h
    · cases h
    · obtain rfl := Except.ok.inj h
      rfl

/-- A command and an argument that begins with no white space: the argument is read up to the end
of the line. -/
theorem scanCommand_argument {word arg : Bytes} (hne : word ≠ [])
    (hw : (word.all fun c => !isSpace c) = true) (hlen : word.length < 20)
    (harg : arg.takeWhile isLineByte ≠ []) (hspace : Stops isSpace arg)
    (hfit : arg.length < maxBufferLen + 1) :
    scanCommand locals (word ++ 32 :: arg) = .ok (word, arg.takeWhile isLineByte) := by
  have hwhite : sscanf [.white, .set isLineByte (maxBufferLen + 1)] (32 :: arg) =
      .ok ⟨[.text (arg.takeWhile isLineByte)], false⟩ := by
    have hblank : sscanf [.white, .set isLineByte (maxBufferLen + 1)] ([32] ++ arg) = _ :=
      sscanf_white (by decide) hspace
    have hpre : arg.takeWhile isLineByte <+: arg := List.takeWhile_prefix _
    have hle := hpre.length_le
    rw [List.singleton_append] at hblank
    rw [hblank, sscanf_cons_set, if_neg (by rintro rfl; exact harg rfl), if_neg harg,
      if_neg (by omega)]
    rfl
  unfold scanCommand
  rw [commandFormat, sscanf_str hne hw hlen ((stops_cons ..).2 (by decide)), hwhite]
  rfl

end Scanning

/-! ## Letting a node in -/

/-- A nickname that is in use is refused; with a new one the node is inserted and announced. -/
theorem leaderReceiveAddMe_eq_ok {env : Env} {s s' : Node} {restCommand : Bytes}
    {recvAddr : RmpAddress} (h : leaderReceiveAddMe env s restCommand recvAddr = .ok s') :
    (s.containsParticipant restCommand = true ∧
        s' = (s.rmpSendTo env recvAddr messageJoinNicknameFailure).2) ∨
      (s.containsParticipant restCommand = false ∧ ∃ s₁ update s₂,
        s.insertParticipant restCommand (inetNtoa recvAddr) (portText recvAddr) false = .ok s₁ ∧
        generateParticipantUpdate s₁ maxBufferLen (snprintf maxBufferLen
          (joinMessage restCommand (inetNtoa recvAddr) (portText recvAddr))) = .ok update ∧
        leaderBroadcastMessage env s₁ update = .ok s₂ ∧
        s' = s₂.print (snprintf maxBufferLen
          (joinMessage restCommand (inetNtoa recvAddr) (portText recvAddr)))) := by
  unfold leaderReceiveAddMe at h
  split at h
  · next hold =>
    dsimp only at h
    split at h
    · cases h
    · exact .inl ⟨hold, (Except.ok.inj h).symm⟩
  · next hnew =>
    obtain ⟨s₁, hinsert, h⟩ := Fault.bind_eq_ok.1 h
    obtain ⟨update, hgen, h⟩ := Fault.bind_eq_ok.1 h
    obtain ⟨s₂, hbroadcast, h⟩ := Fault.bind_eq_ok.1 h
    exact .inr ⟨eq_false_of_ne_true hnew, s₁, update, s₂, hinsert, hgen, hbroadcast,
      (Except.ok.inj h).symm⟩

/-! ## The messages of elections -/

section Dispatch

variable {env : Env} {locals : Locals} {s s' : Node} {src : RmpAddress}

theorem chatStep_receive_leader {buf : Bytes} (hl : s.isLeader = true) :
    chatStep env locals s (.receive buf src) =
      some (leaderReceiveMessage env locals s buf src) := by
  rw [chatStep, if_pos hl]

theorem chatStep_receive_nonLeader {buf : Bytes} (hl : s.isLeader = false) :
    chatStep env locals s (.receive buf src) =
      some (nonLeaderReceiveMessage env locals s buf src) := by
  rw [chatStep, if_neg (by simp [hl])]

theorem nonLeaderReceive_startElection :
    nonLeaderReceiveMessage env locals s messageStartElection src =
      respondToLeaderElection env locals s src := rfl

theorem nonLeaderReceive_stopElection :
    nonLeaderReceiveMessage env locals s messageStopElection src = .ok (stopElection s) := rfl

theorem nonLeaderReceive_electionVictory :
    nonLeaderReceiveMessage env locals s messageElectionVictory src = .ok (setNewLeader s src) := rfl

theorem nonLeaderReceive_heartbeat :
    nonLeaderReceiveMessage env locals s messageHeartbeat src = .ok s := rfl

theorem leaderReceive_heartbeat :
    leaderReceiveMessage env locals s messageHeartbeat src = .ok s := rfl

theorem nonLeaderReceive_updateText {leader : Peer} {ps : List Participant} {notice : Bytes}
    (h : nonLeaderReceiveMessage env locals s (updateText leader ps notice) src = .ok s') :
    processParticipantUpdate s (updateText leader ps notice) false = .ok s' := by
  obtain ⟨⟨messageType, rest⟩, hscan, h⟩ := Fault.bind_eq_ok.1 h
  have hword : updateText leader ps notice =
      messageParticipantUpdate ++ 32 :: 64 :: (entryText leader ++
        (((others ps).map fun p => entryText p.toPeer).flatten ++ 61 :: 32 :: notice)) := by
    rw [updateText_eq, show str "PARTICIPANT_UPDATE " = messageParticipantUpdate ++ [32] by decide,
      List.append_assoc, List.singleton_append]
  obtain rfl : messageType = messageParticipantUpdate := by
    rw [hword] at hscan
    exact scanCommand_word (by decide) (by decide) (by decide) ((stops_cons ..).2 (by decide)) hscan
  dsimp only at h
  rw [if_neg (by decide), if_pos (by decide)] at h
  exact h

end Dispatch

end Dchat.Chat
