import Dchat.Chat.Receive

/-!
# What had been sent at a stop

A function that stops returns no state, and the messages that it had sent are lost with it. Here
the functions that send are read once more with a `Stop` in place of a fault: the fault, and the
messages of the process up to it.

* `Traced.leaderReceiveMessage` and `Traced.nonLeaderReceiveMessage`, with the functions they call.
* `Traced.fault_leaderReceiveMessage` and `Traced.fault_nonLeaderReceiveMessage`: without the
  messages they are the functions of the source.
* `Traced.prefix_sent_leaderBroadcastMessage` and `Traced.leaderBroadcastMessage_of_none`: the first
  message of a broadcast, and the broadcasts that send none.
-/

namespace Dchat.Chat

open CString Stdio RMP

/-- What stops a function, and what the process had sent by then. -/
structure Stop where
  fault : Fault
  sent : List Sent
  deriving DecidableEq

namespace Stop

variable {α β : Type}

@[simp] theorem ok_bind (a : α) (f : α → Except Stop β) : (Except.ok a >>= f) = f a := rfl

@[simp] theorem error_bind (e : Stop) (f : α → Except Stop β) :
    (Except.error e >>= f) = .error e := rfl

/-- The fault of a sequence. -/
theorem fault_bind {x : Except Stop α} {x₀ : Except Fault α} {f : α → Except Stop β}
    {f₀ : α → Except Fault β} (hx : x.mapError fault = x₀) (hf : ∀ a, (f a).mapError fault = f₀ a) :
    (x >>= f).mapError fault = (x₀ >>= f₀) := by
  subst hx
  cases x with
  | error e => rfl
  | ok a => exact hf a

/-- A call that returns. -/
theorem eq_ok {x : Except Stop α} {a : α} (h : x.mapError fault = .ok a) : x = .ok a := by
  cases x with
  | error e => cases h
  | ok b => exact congrArg Except.ok (Except.ok.inj h)

end Stop

/-- A computation that sends nothing. -/
def Node.silent {α : Type} (s : Node) (x : Except Fault α) : Except Stop α :=
  x.mapError fun fault => ⟨fault, s.sent⟩

@[simp] theorem Node.silent_ok {α : Type} (s : Node) (a : α) : s.silent (.ok a) = .ok a := rfl

@[simp] theorem Node.silent_error {α : Type} (s : Node) (fault : Fault) :
    s.silent (.error fault : Except Fault α) = .error ⟨fault, s.sent⟩ := rfl

theorem Stop.fault_silent {α : Type} (s : Node) (x : Except Fault α) :
    (s.silent x).mapError fault = x := by
  cases x <;> rfl

namespace Traced

/-! ## The source, with the messages sent -/

/-- The loop of `leader_broadcast_message`. -/
def broadcastLoop (env : Env) (message : Bytes) :
    List Participant → Departures → Node → Except Stop (Departures × Node)
  | [], d, s => .ok (d, s)
  | p :: ps, d, s =>
    if p.isLeader then broadcastLoop env message ps d s
    else
      match env.getAddressFor p.ipAddress p.portNum with
      | none => .error ⟨.exit, s.sent⟩
      | some addr =>
        let (status, s) := s.rmpSendTo env addr message
        if status < 0 then do
          let c ← s.silent (d.updateBuff.snprintf maxBufferLen (maxBufferLen - d.updateBuff.pos)
            (p.nickname ++ str ", "))
          broadcastLoop env message ps ⟨true, c⟩ (s.tailqRemove p.ptr).decrNumParticipants
        else broadcastLoop env message ps d s

/-- `leader_broadcast_message`, with a bound on the depth of its recursion. -/
def leaderBroadcastMessageFuel (env : Env) : ℕ → Node → Bytes → Except Stop Node
  | 0, s, _ => .error ⟨.diverges, s.sent⟩
  | fuel + 1, s, message => do
    let (d, s) ← broadcastLoop env message s.participants ⟨false, .empty⟩ s
    if d.needUpdate then
      if maxBufferLen ≤ d.updateBuff.pos - 2 then .error ⟨.bufferOverflow, s.sent⟩
      else
        let names := d.updateBuff.text.take (d.updateBuff.pos - 2)
        let leave := snprintf 1024 (leaveMessage names)
        let updateCommand ← s.silent (generateParticipantUpdate s 1024 leave)
        let s ← leaderBroadcastMessageFuel env fuel s updateCommand
        .ok (s.print leave)
    else .ok s

/-- `leader_broadcast_message`. -/
def leaderBroadcastMessage (env : Env) (s : Node) (message : Bytes) : Except Stop Node :=
  leaderBroadcastMessageFuel env (s.participants.length + 1) s message

/-- The loop of `nonleader_broadcast_message`. -/
def nonleaderLoop (env : Env) (message : Bytes) : List Participant → Node → Except Stop Node
  | [], s => .ok s
  | p :: ps, s =>
    if strcmp s.thisNickname p.nickname = 0 then nonleaderLoop env message ps s
    else
      match env.getAddressFor p.ipAddress p.portNum with
      | none => .error ⟨.exit, s.sent⟩
      | some addr => nonleaderLoop env message ps (s.rmpSendTo env addr message).2

/-- `start_election`. -/
def startElection (env : Env) (s : Node) : Except Stop Node := do
  let s ← nonleaderLoop env messageStartElection s.participants s
  .ok { s with inElection := true, startedElection := true }

/-- `respond_to_leader_election`. -/
def respondToLeaderElection (env : Env) (locals : Locals) (s : Node) (recvAddr : RmpAddress) :
    Except Stop Node :=
  match findSender env recvAddr locals.address s.participants with
  | none => .error ⟨.nullPointer, s.sent⟩
  | some senderNickname =>
    if 0 < strcmp s.thisNickname senderNickname then
      startElection env (s.rmpSendTo env recvAddr messageStopElection).2
    else .ok { s with inElection := true, startedElection := false }

/-- `leader_receive_message`, the ADD_ME branch. -/
def leaderReceiveAddMe (env : Env) (s : Node) (restCommand : Bytes) (recvAddr : RmpAddress) :
    Except Stop Node :=
  if s.containsParticipant restCommand then
    let (status, s) := s.rmpSendTo env recvAddr messageJoinNicknameFailure
    if status < 0 then .error ⟨.exit, s.sent⟩ else .ok s
  else do
    let portNum := portText recvAddr
    let ipAddress := inetNtoa recvAddr
    let s ← s.silent (s.insertParticipant restCommand ipAddress portNum false)
    let join := snprintf maxBufferLen (joinMessage restCommand ipAddress portNum)
    let update ← s.silent (generateParticipantUpdate s maxBufferLen join)
    let s ← leaderBroadcastMessage env s update
    .ok (s.print join)

/-- `leader_receive_message`, the MESSAGE_REQUEST branch. -/
def leaderReceiveRequest (env : Env) (locals : Locals) (s : Node) (restCommand : Bytes) :
    Except Stop Node := do
  let (senderNickname, payload) ← s.silent (scanRequest locals restCommand)
  let (clock, s) ← s.silent (incrClock s)
  let s ← leaderBroadcastMessage env s (snprintf 1024 (broadcastText clock senderNickname payload))
  .ok (s.print (senderNickname ++ str ":: " ++ decryptedText locals payload))

/-- `leader_receive_message`. -/
def leaderReceiveMessage (env : Env) (locals : Locals) (s : Node) (buf : Bytes)
    (recvAddr : RmpAddress) : Except Stop Node := do
  let (commandType, restCommand) ← s.silent (scanCommand locals buf)
  if strcmp messageAddMe commandType = 0 then leaderReceiveAddMe env s restCommand recvAddr
  else if strcmp messageRequest commandType = 0 then leaderReceiveRequest env locals s restCommand
  else if strcmp messageHeartbeat commandType = 0 then .ok s
  else if strcmp messageStartElection commandType = 0 then
    respondToLeaderElection env locals s recvAddr
  else .ok (s.print (str "Unrecognized command: " ++ buf))

/-- `non_leader_receive_message`, the ADD_ME branch. -/
def nonLeaderReceiveAddMe (env : Env) (s : Node) (recvAddr : RmpAddress) : Except Stop Node :=
  if s.inElection then .ok (s.rmpSendTo env recvAddr messageJoinFailure).2
  else
    match s.leader with
    | none => .error ⟨.nullPointer, s.sent⟩
    | some leader =>
      let request := snprintf (10 + maxIpAddressLen + 1 + maxPortNumLen + 1)
        (messageLeaderId ++ str " " ++ leader.ipAddress ++ str ":" ++ leader.portNum)
      let (status, s) := s.rmpSendTo env recvAddr request
      if status < 0 then .error ⟨.exit, s.sent⟩ else .ok s

/-- `non_leader_receive_message`. -/
def nonLeaderReceiveMessage (env : Env) (locals : Locals) (s : Node) (buf : Bytes)
    (recvAddr : RmpAddress) : Except Stop Node := do
  let (messageType, restMessage) ← s.silent (scanCommand locals buf)
  if strcmp messageBroadcast messageType = 0 then
    s.silent (nonLeaderReceiveBroadcast locals s restMessage)
  else if strcmp messageParticipantUpdate messageType = 0 then
    s.silent (processParticipantUpdate s buf false)
  else if strcmp messageAddMe messageType = 0 then nonLeaderReceiveAddMe env s recvAddr
  else if strcmp messageHeartbeat messageType = 0 then .ok s
  else if strcmp messageStartElection messageType = 0 then
    respondToLeaderElection env locals s recvAddr
  else if strcmp messageStopElection messageType = 0 then .ok (stopElection s)
  else if strcmp messageElectionVictory messageType = 0 then .ok (setNewLeader s recvAddr)
  else .error ⟨.exit, s.sent⟩

/-! ## Without the messages -/

section Fault

variable (env : Env) (locals : Locals)

theorem fault_broadcastLoop (message : Bytes) (ps : List Participant) (d : Departures) (s : Node) :
    (broadcastLoop env message ps d s).mapError Stop.fault =
      Chat.broadcastLoop env message ps d s := by
  induction ps generalizing d s with
  | nil => rfl
  | cons p ps ih =>
    rw [broadcastLoop, Chat.broadcastLoop]
    split
    · exact ih d s
    · cases env.getAddressFor p.ipAddress p.portNum with
      | none => rfl
      | some addr =>
        dsimp only
        split
        · exact Stop.fault_bind (Stop.fault_silent _ _) fun c => ih _ _
        · exact ih d _

theorem fault_leaderBroadcastMessageFuel (fuel : ℕ) (s : Node) (message : Bytes) :
    (leaderBroadcastMessageFuel env fuel s message).mapError Stop.fault =
      Chat.leaderBroadcastMessageFuel env fuel s message := by
  induction fuel generalizing s message with
  | zero => rfl
  | succ fuel ih =>
    refine Stop.fault_bind (fault_broadcastLoop env message _ _ s) ?_
    rintro ⟨d, s⟩
    dsimp only
    split
    · split
      · rfl
      · refine Stop.fault_bind (Stop.fault_silent _ _) fun updateCommand => ?_
        exact Stop.fault_bind (ih s updateCommand) fun s => rfl
    · rfl

theorem fault_leaderBroadcastMessage (s : Node) (message : Bytes) :
    (leaderBroadcastMessage env s message).mapError Stop.fault =
      Chat.leaderBroadcastMessage env s message :=
  fault_leaderBroadcastMessageFuel env _ s message

theorem fault_nonleaderLoop (message : Bytes) (ps : List Participant) (s : Node) :
    (nonleaderLoop env message ps s).mapError Stop.fault =
      Chat.nonleaderLoop env message ps s := by
  induction ps generalizing s with
  | nil => rfl
  | cons p ps ih =>
    rw [nonleaderLoop, Chat.nonleaderLoop]
    split
    · exact ih s
    · cases env.getAddressFor p.ipAddress p.portNum with
      | none => rfl
      | some addr => exact ih _

theorem fault_respondToLeaderElection (s : Node) (recvAddr : RmpAddress) :
    (respondToLeaderElection env locals s recvAddr).mapError Stop.fault =
      Chat.respondToLeaderElection env locals s recvAddr := by
  rw [respondToLeaderElection, Chat.respondToLeaderElection]
  cases findSender env recvAddr locals.address s.participants with
  | none => rfl
  | some senderNickname =>
    dsimp only
    split
    · exact Stop.fault_bind (fault_nonleaderLoop env _ _ _) fun s => rfl
    · rfl

theorem fault_leaderReceiveAddMe (s : Node) (restCommand : Bytes) (recvAddr : RmpAddress) :
    (leaderReceiveAddMe env s restCommand recvAddr).mapError Stop.fault =
      Chat.leaderReceiveAddMe env s restCommand recvAddr := by
  rw [leaderReceiveAddMe, Chat.leaderReceiveAddMe]
  split
  · dsimp only
    split <;> rfl
  · refine Stop.fault_bind (Stop.fault_silent _ _) fun s => ?_
    refine Stop.fault_bind (Stop.fault_silent _ _) fun update => ?_
    exact Stop.fault_bind (fault_leaderBroadcastMessage env s update) fun s => rfl

theorem fault_leaderReceiveRequest (s : Node) (restCommand : Bytes) :
    (leaderReceiveRequest env locals s restCommand).mapError Stop.fault =
      Chat.leaderReceiveRequest env locals s restCommand := by
  refine Stop.fault_bind (Stop.fault_silent _ _) ?_
  rintro ⟨senderNickname, payload⟩
  refine Stop.fault_bind (Stop.fault_silent _ _) ?_
  rintro ⟨clock, s⟩
  exact Stop.fault_bind (fault_leaderBroadcastMessage env s _) fun s => rfl

/-- **A leader that receives a message.** -/
theorem fault_leaderReceiveMessage (s : Node) (buf : Bytes) (recvAddr : RmpAddress) :
    (leaderReceiveMessage env locals s buf recvAddr).mapError Stop.fault =
      Chat.leaderReceiveMessage env locals s buf recvAddr := by
  refine Stop.fault_bind (Stop.fault_silent _ _) ?_
  rintro ⟨commandType, restCommand⟩
  dsimp only
  split
  · exact fault_leaderReceiveAddMe env s restCommand recvAddr
  split
  · exact fault_leaderReceiveRequest env locals s restCommand
  split
  · rfl
  split
  · exact fault_respondToLeaderElection env locals s recvAddr
  · rfl

theorem fault_nonLeaderReceiveAddMe (s : Node) (recvAddr : RmpAddress) :
    (nonLeaderReceiveAddMe env s recvAddr).mapError Stop.fault =
      Chat.nonLeaderReceiveAddMe env s recvAddr := by
  rw [nonLeaderReceiveAddMe, Chat.nonLeaderReceiveAddMe]
  split
  · rfl
  · cases s.leader with
    | none => rfl
    | some leader =>
      dsimp only
      split <;> rfl

/-- **A node that is not the leader.** -/
theorem fault_nonLeaderReceiveMessage (s : Node) (buf : Bytes) (recvAddr : RmpAddress) :
    (nonLeaderReceiveMessage env locals s buf recvAddr).mapError Stop.fault =
      Chat.nonLeaderReceiveMessage env locals s buf recvAddr := by
  refine Stop.fault_bind (Stop.fault_silent _ _) ?_
  rintro ⟨messageType, restMessage⟩
  dsimp only
  split
  · exact Stop.fault_silent _ _
  split
  · exact Stop.fault_silent _ _
  split
  · exact fault_nonLeaderReceiveAddMe env s recvAddr
  split
  · rfl
  split
  · exact fault_respondToLeaderElection env locals s recvAddr
  split
  · rfl
  split
  · rfl
  · rfl

end Fault

/-! ## What has been sent -/

/-- What the process has sent when a call returns or stops. -/
def sentBy {α : Type} (node : α → Node) : Except Stop α → List Sent
  | .ok a => (node a).sent
  | .error e => e.sent

section Sent

variable {α β : Type} {env : Env} {message : Bytes} {s : Node} {log : List Sent} {node : α → Node}
  {node' : β → Node} {addr : RmpAddress}

theorem prefix_sentBy_bind {x : Except Stop α} {f : α → Except Stop β} (hx : log <+: sentBy node x)
    (hf : ∀ a, (node a).sent <+: sentBy node' (f a)) : log <+: sentBy node' (x >>= f) := by
  cases x with
  | error e => exact hx
  | ok a => exact hx.trans (hf a)

theorem prefix_silent_bind {x : Except Fault α} {f : α → Except Stop β}
    (hf : ∀ a, s.sent <+: sentBy node' (f a)) : s.sent <+: sentBy node' (s.silent x >>= f) := by
  cases x with
  | error e => exact List.prefix_rfl
  | ok a => exact hf a

/-- Where a leader's broadcast sends first, if it sends at all. -/
def firstDestination (env : Env) (ps : List Participant) : Option RmpAddress :=
  (ps.find? fun p => !p.isLeader).bind fun p => env.getAddressFor p.ipAddress p.portNum

theorem firstDestination_cons (p : Participant) (ps : List Participant) :
    firstDestination env (p :: ps) = if p.isLeader then firstDestination env ps
      else env.getAddressFor p.ipAddress p.portNum := by
  unfold firstDestination
  rw [List.find?_cons]
  cases p.isLeader <;> rfl

/-- **One pass** keeps what was sent, and what it sends comes behind. -/
theorem prefix_sent_broadcastLoop (ps : List Participant) (d : Departures) (s : Node) :
    s.sent <+: sentBy Prod.snd (broadcastLoop env message ps d s) ∧
      ∀ addr, firstDestination env ps = some addr →
        (s.rmpSendTo env addr message).2.sent <+:
          sentBy Prod.snd (broadcastLoop env message ps d s) := by
  induction ps generalizing d s with
  | nil => exact ⟨List.prefix_rfl, fun addr h => by cases h⟩
  | cons p ps ih =>
    rw [broadcastLoop, firstDestination_cons]
    split
    · exact ih d s
    cases env.getAddressFor p.ipAddress p.portNum with
    | none => exact ⟨List.prefix_rfl, fun addr h => by cases h⟩
    | some addr =>
      dsimp only
      have hsend : s.sent <+: (s.rmpSendTo env addr message).2.sent := List.prefix_append _ _
      split
      · have hrest : ∀ c, (s.rmpSendTo env addr message).2.sent <+: sentBy Prod.snd
            (broadcastLoop env message ps ⟨true, c⟩
              ((s.rmpSendTo env addr message).2.tailqRemove p.ptr).decrNumParticipants) :=
          fun c => (ih ⟨true, c⟩
            ((s.rmpSendTo env addr message).2.tailqRemove p.ptr).decrNumParticipants).1
        refine ⟨hsend.trans (prefix_silent_bind hrest), fun addr' h => ?_⟩
        obtain rfl := Option.some.inj h
        exact prefix_silent_bind hrest
      · refine ⟨hsend.trans (ih d _).1, fun addr' h => ?_⟩
        obtain rfl := Option.some.inj h
        exact (ih d _).1

/-- The passes after the first one keep what was sent. -/
theorem prefix_sent_pass {fuel : ℕ}
    (ih : ∀ s message, s.sent <+: sentBy id (leaderBroadcastMessageFuel env fuel s message))
    (h : log <+: sentBy Prod.snd (broadcastLoop env message s.participants ⟨false, .empty⟩ s)) :
    log <+: sentBy id (leaderBroadcastMessageFuel env (fuel + 1) s message) := by
  refine prefix_sentBy_bind h ?_
  rintro ⟨d, s⟩
  dsimp only
  split
  · split
    · exact List.prefix_rfl
    · exact prefix_silent_bind fun update =>
        prefix_sentBy_bind (ih s update) fun s => List.prefix_rfl
  · exact List.prefix_rfl

theorem prefix_sent_leaderBroadcastMessageFuel (fuel : ℕ) (s : Node) (message : Bytes) :
    s.sent <+: sentBy id (leaderBroadcastMessageFuel env fuel s message) := by
  induction fuel generalizing s message with
  | zero => exact List.prefix_rfl
  | succ fuel ih => exact prefix_sent_pass ih (prefix_sent_broadcastLoop _ _ s).1

/-- **A broadcast** begins with the message itself. -/
theorem prefix_sent_leaderBroadcastMessage (h : firstDestination env s.participants = some addr) :
    (s.rmpSendTo env addr message).2.sent <+: sentBy id (leaderBroadcastMessage env s message) :=
  prefix_sent_pass (prefix_sent_leaderBroadcastMessageFuel _)
    ((prefix_sent_broadcastLoop _ _ s).2 addr h)

/-- **A broadcast that sends nothing** returns if there is no one to send to. -/
theorem leaderBroadcastMessage_of_none (h : firstDestination env s.participants = none)
    (message : Bytes) : leaderBroadcastMessage env s message =
      if others s.participants = [] then .ok s else .error ⟨.exit, s.sent⟩ := by
  have hloop : ∀ ps d, firstDestination env ps = none → broadcastLoop env message ps d s =
      if others ps = [] then .ok (d, s) else .error ⟨.exit, s.sent⟩ := by
    intro ps d hps
    induction ps with
    | nil => rfl
    | cons p ps ih =>
      rw [firstDestination_cons] at hps
      rw [broadcastLoop, others_cons]
      split
      · next hp =>
        rw [if_pos hp] at hps
        exact ih hps
      · next hp =>
        rw [if_neg hp] at hps
        rw [hps, if_neg (List.cons_ne_nil _ _)]
  rw [leaderBroadcastMessage, leaderBroadcastMessageFuel, hloop _ _ h]
  split <;> rfl

theorem prefix_sent_nonleaderLoop (ps : List Participant) (s : Node) :
    s.sent <+: sentBy id (nonleaderLoop env message ps s) := by
  induction ps generalizing s with
  | nil => exact List.prefix_rfl
  | cons p ps ih =>
    rw [nonleaderLoop]
    split
    · exact ih s
    cases env.getAddressFor p.ipAddress p.portNum with
    | none => exact List.prefix_rfl
    | some addr => exact (List.prefix_append _ _).trans (ih (s.rmpSendTo env addr message).2)

theorem prefix_sent_startElection (s : Node) : s.sent <+: sentBy id (startElection env s) :=
  prefix_sentBy_bind (prefix_sent_nonleaderLoop _ s) fun _ => List.prefix_rfl

end Sent

end Traced

end Dchat.Chat
