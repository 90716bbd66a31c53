import Dchat.Chat.Leader

/-!
# Elections

The part of `dchat.c` that looks after the leader: heartbeats, the start and the stop of an
election, and the two ways to take over a new leader; with `nonleader_broadcast_message` of
`nonleader.c`.

`NonleaderSent` is what a best-effort broadcast does, and `startElection_ok`,
`respondToLeaderElection_ok` and `declareVictory_ok` say what the functions that elections are made
of do when they return.
-/

namespace Dchat.Chat

open CString Stdio RMP

/-- What the local variables of the functions below, and of those that receive messages, hold
before they are written: the arrays for the rest of a command, for its sender and its payload, the
memory of the two text buffers, the number of a message, and an address. -/
structure Locals where
  rest : Bytes
  senderNickname : Bytes
  payload : Bytes
  plaintext : Bytes
  ciphertext : Bytes
  messageId : ℤ
  address : RmpAddress

/-! ## The source -/

/-- The loop of `nonleader_broadcast_message`. -/
def nonleaderLoop (env : Env) (message : Bytes) : List Participant → Node → Except Fault Node
  | [], s => .ok s
  | p :: ps, s =>
    if strcmp s.thisNickname p.nickname = 0 then nonleaderLoop env message ps s
    else
      match env.getAddressFor p.ipAddress p.portNum with
      | none => .error .exit
      | some addr => nonleaderLoop env message ps (s.rmpSendTo env addr message).2

/-- `nonleader_broadcast_message`. -/
def nonleaderBroadcastMessage (env : Env) (s : Node) (message : Bytes) : Except Fault Node :=
  nonleaderLoop env message s.participants s

/-- `start_election`. -/
def startElection (env : Env) (s : Node) : Except Fault Node := do
  let s ← nonleaderBroadcastMessage env s messageStartElection
  .ok { s with inElection := true, startedElection := true }

/-- `stop_election`. -/
def stopElection (s : Node) : Node := { s with inElection := true, startedElection := false }

/-- The search of `respond_to_leader_election` for the nickname of an address. A participant whose
address is refused is compared by the address left from the one before. -/
def findSender (env : Env) (recvAddr : RmpAddress) : RmpAddress → List Participant → Option Bytes
  | _, [] => none
  | before, p :: ps =>
    let addr := (env.getAddressFor p.ipAddress p.portNum).getD before
    if addr = recvAddr then some p.nickname else findSender env recvAddr addr ps

/-- `respond_to_leader_election`. An unknown sender leaves a null pointer for `strcmp`. -/
def respondToLeaderElection (env : Env) (locals : Locals) (s : Node) (recvAddr : RmpAddress) :
    Except Fault Node :=
  match findSender env recvAddr locals.address s.participants with
  | none => .error .nullPointer
  | some senderNickname =>
    if 0 < strcmp s.thisNickname senderNickname then
      startElection env (s.rmpSendTo env recvAddr messageStopElection).2
    else .ok { s with inElection := true, startedElection := false }

/-- `set_new_leader`. -/
def setNewLeader (s : Node) (recvAddr : RmpAddress) : Node :=
  let s := { s with inElection := false, startedElection := false }
  { s.setLeaderByAddr (inetNtoa recvAddr) (portText recvAddr) with isLeader := false }

/-- The notice of `declare_victory`. -/
def victoryMessage (nickname : Bytes) : Bytes := str "NOTICE " ++ nickname ++ str " is the new leader"

/-- `declare_victory`. -/
def declareVictory (env : Env) (s : Node) : Except Fault Node := do
  let s := { s with inElection := false, startedElection := false }
  let s := { s.setLeaderByNickname s.thisNickname with isLeader := true }
  let s ← leaderBroadcastMessage env s messageElectionVictory
  let victory := snprintf 1024 (victoryMessage s.thisNickname)
  let updateCommand ← generateParticipantUpdate s maxBufferLen victory
  let s ← leaderBroadcastMessage env s updateCommand
  let s := s.print victory
  .ok (if s.numParticipants = 1 then s.print (str "Waiting for others to join...") else s)

/-- `get_leader_addr`: if the address is refused the result stays as it was. -/
def getLeaderAddr (env : Env) (locals : Locals) (s : Node) : Except Fault RmpAddress :=
  match s.leader with
  | none => .error .nullPointer
  | some leader => .ok ((env.getAddressFor leader.ipAddress leader.portNum).getD locals.address)

/-- `send_heartbeat`. -/
def sendHeartbeat (env : Env) (locals : Locals) (s : Node) : Except Fault Node :=
  if s.isLeader then leaderBroadcastMessage env s messageHeartbeat
  else do
    let leaderAddr ← getLeaderAddr env locals s
    let (status, s) := s.rmpSendTo env leaderAddr messageHeartbeat
    if status = rmpETimeout then startElection env s
    else if status < 0 then .error .exit
    else .ok s

/-! ## What they do when they return -/

/-- `log` is what a broadcast of `message` to all participants but the node itself sends. -/
structure NonleaderSent (env : Env) (s : Node) (message : Bytes) (ps : List Participant)
    (log : List Sent) : Prop where
  entries : ∀ e ∈ log, e.message = message ∧ (∃ k, e.result = env.sendTo k e.dst message) ∧
    ∃ p ∈ ps, strcmp s.thisNickname p.nickname ≠ 0 ∧
      env.getAddressFor p.ipAddress p.portNum = some e.dst
  reached : ∀ p ∈ ps, strcmp s.thisNickname p.nickname ≠ 0 →
    ∃ e ∈ log, env.getAddressFor p.ipAddress p.portNum = some e.dst

theorem nonleaderLoop_ok {env : Env} {message : Bytes} {ps : List Participant} {s s' : Node}
    (h : nonleaderLoop env message ps s = .ok s') :
    ∃ log, s' = { s with sent := s.sent ++ log } ∧ NonleaderSent env s message ps log := by
  induction ps generalizing s with
  | nil =>
    obtain rfl := Except.ok.inj h
    exact ⟨[], by simp, by simp, by simp⟩
  | cons p ps ih =>
    unfold nonleaderLoop at h
    split at h
    · next hown =>
      obtain ⟨log, rfl, hlog⟩ := ih h
      refine ⟨log, rfl, fun e he => ?_, fun q hq hne => ?_⟩
      · obtain ⟨hm, hk, q, hq, hrest⟩ := hlog.entries e he
        exact ⟨hm, hk, q, .tail _ hq, hrest⟩
      · obtain rfl | hq := List.mem_cons.1 hq
        · exact absurd hown hne
        · exact hlog.reached q hq hne
    · next hown =>
      split at h
      · cases h
      next addr haddr =>
      obtain ⟨log, rfl, hlog⟩ := ih h
      refine ⟨⟨addr, message, env.sendTo s.sent.length addr message⟩ :: log, ?_, ?_, ?_⟩
      · simp [Node.rmpSendTo]
      · intro e he
        obtain rfl | he := List.mem_cons.1 he
        · exact ⟨rfl, ⟨_, rfl⟩, p, by simp, hown, haddr⟩
        · obtain ⟨hm, hk, q, hq, hrest⟩ := hlog.entries e he
          exact ⟨hm, hk, q, .tail _ hq, hrest⟩
      · intro q hq hne
        obtain rfl | hq := List.mem_cons.1 hq
        · exact ⟨_, List.mem_cons_self, haddr⟩
        · obtain ⟨e, he, ha⟩ := hlog.reached q hq hne
          exact ⟨e, .tail _ he, ha⟩

/-- **Starting an election**: a START_ELECTION to everyone else, and both flags. -/
theorem startElection_ok {env : Env} {s s' : Node} (h : startElection env s = .ok s') :
    ∃ log, s' = { s with sent := s.sent ++ log, inElection := true, startedElection := true } ∧
      NonleaderSent env s messageStartElection s.participants log := by
  obtain ⟨s₁, hloop, h⟩ := Fault.bind_eq_ok.1 h
  obtain ⟨log, rfl, hlog⟩ := nonleaderLoop_ok hloop
  obtain rfl := Except.ok.inj h
  exact ⟨log, rfl, hlog⟩

/-- **A heartbeat to the leader**: an election if it times out. -/
theorem sendHeartbeat_nonLeader {env : Env} {locals : Locals} {s : Node} {addr : RmpAddress}
    (hl : s.isLeader = false) (haddr : getLeaderAddr env locals s = .ok addr) :
    sendHeartbeat env locals s =
      if env.sendTo s.sent.length addr messageHeartbeat = rmpETimeout then
        startElection env (s.rmpSendTo env addr messageHeartbeat).2
      else if env.sendTo s.sent.length addr messageHeartbeat < 0 then .error .exit
      else .ok (s.rmpSendTo env addr messageHeartbeat).2 := by
  unfold sendHeartbeat
  rw [if_neg (by simp [hl]), haddr, Fault.ok_bind]
  rfl

/-- The nickname found belongs to a participant with the address. -/
theorem findSender_eq_some {env : Env} {recvAddr before : RmpAddress} {ps : List Participant}
    {nickname : Bytes} (hps : ∀ p ∈ ps, (env.getAddressFor p.ipAddress p.portNum).isSome)
    (h : findSender env recvAddr before ps = some nickname) :
    ∃ p ∈ ps, env.getAddressFor p.ipAddress p.portNum = some recvAddr ∧ p.nickname = nickname := by
  induction ps generalizing before with
  | nil => cases h
  | cons p ps ih =>
    obtain ⟨addr, haddr⟩ := Option.isSome_iff_exists.1 (hps p (by simp))
    unfold findSender at h
    rw [haddr] at h
    dsimp only [Option.getD_some] at h
    split at h
    · next heq => exact ⟨p, by simp, heq ▸ haddr, Option.some.inj h⟩
    · obtain ⟨q, hq, hrest⟩ := ih (fun q hq => hps q (.tail _ hq)) h
      exact ⟨q, .tail _ hq, hrest⟩

/-- A node responds with a STOP_ELECTION and an election of its own, or with silence. -/
theorem respondToLeaderElection_eq_ok {env : Env} {locals : Locals} {s s' : Node}
    {recvAddr : RmpAddress} (h : respondToLeaderElection env locals s recvAddr = .ok s') :
    ∃ nickname, findSender env recvAddr locals.address s.participants = some nickname ∧
      (0 < strcmp s.thisNickname nickname ∧
          startElection env (s.rmpSendTo env recvAddr messageStopElection).2 = .ok s' ∨
        ¬ 0 < strcmp s.thisNickname nickname ∧
          s' = { s with inElection := true, startedElection := false }) := by
  unfold respondToLeaderElection at h
  split at h
  · cases h
  next nickname hfind =>
  refine ⟨nickname, hfind, ?_⟩
  split at h
  · next hpos => exact .inl ⟨hpos, h⟩
  · next hpos => exact .inr ⟨hpos, (Except.ok.inj h).symm⟩

/-- **Answering a START_ELECTION**: a sender of lower rank is stopped and a new election is
started; the election of any other sender is heeded. -/
theorem respondToLeaderElection_ok {env : Env} {locals : Locals} {s s' : Node}
    {recvAddr : RmpAddress}
    (hps : ∀ p ∈ s.participants, (env.getAddressFor p.ipAddress p.portNum).isSome)
    (h : respondToLeaderElection env locals s recvAddr = .ok s') :
    ∃ p ∈ s.participants, env.getAddressFor p.ipAddress p.portNum = some recvAddr ∧
      (0 < strcmp s.thisNickname p.nickname ∧
        (∃ log stop, stop.dst = recvAddr ∧ stop.message = messageStopElection ∧
          (∃ k, stop.result = env.sendTo k recvAddr messageStopElection) ∧
          s' = { s with
            sent := s.sent ++ stop :: log, inElection := true, startedElection := true } ∧
          NonleaderSent env s messageStartElection s.participants log) ∨
      ¬ 0 < strcmp s.thisNickname p.nickname ∧
        s' = { s with inElection := true, startedElection := false }) := by
  obtain ⟨nickname, hfind, ⟨hpos, h⟩ | ⟨hpos, rfl⟩⟩ := respondToLeaderElection_eq_ok h
  · obtain ⟨p, hp, haddr, rfl⟩ := findSender_eq_some hps hfind
    obtain ⟨log, rfl, hlog⟩ := startElection_ok h
    refine ⟨p, hp, haddr, .inl ⟨hpos, log, ⟨recvAddr, messageStopElection,
      env.sendTo s.sent.length recvAddr messageStopElection⟩, rfl, rfl, ⟨_, rfl⟩, ?_, ?_⟩⟩
    · simp [Node.rmpSendTo]
    · exact ⟨hlog.entries, hlog.reached⟩
  · obtain ⟨p, hp, haddr, rfl⟩ := findSender_eq_some hps hfind
    exact ⟨p, hp, haddr, .inr ⟨hpos, rfl⟩⟩

/-- The state in which `declare_victory` broadcasts. -/
def Node.victorious (s : Node) : Node :=
  { s.setLeaderByNickname s.thisNickname with
    isLeader := true, inElection := false, startedElection := false }

/-- The two broadcasts of a victory. -/
theorem declareVictory_broadcasts {env : Env} {s s' : Node} (h : declareVictory env s = .ok s') :
    ∃ s₁ s₂ notice update lines,
      leaderBroadcastMessage env s.victorious messageElectionVictory = .ok s₁ ∧
      generateParticipantUpdate s₁ maxBufferLen notice = .ok update ∧
      leaderBroadcastMessage env s₁ update = .ok s₂ ∧ s' = { s₂ with printed := lines } := by
  obtain ⟨s₁, hvictory, h⟩ := Fault.bind_eq_ok.1 h
  obtain ⟨update, hgen, h⟩ := Fault.bind_eq_ok.1 h
  obtain ⟨s₂, hupdate, h⟩ := Fault.bind_eq_ok.1 h
  refine ⟨s₁, s₂, _, update, s'.printed, hvictory, hgen, hupdate, ?_⟩
  obtain rfl := Except.ok.inj h
  split
  · rfl
  · rfl

/-- **Declaring victory**: the node takes the role, sends an ELECTION_VICTORY to everyone but itself
and then PARTICIPANT_UPDATEs. -/
theorem declareVictory_ok {env : Env} {s s' : Node} {leader : Peer}
    (hleader : s.victorious.leader = some leader) (h : declareVictory env s = .ok s') :
    ∃ first updates s₁ lines,
      LeaderSent env s.victorious messageElectionVictory leader first updates s₁ ∧
      s' = { s₁ with printed := lines } := by
  obtain ⟨s₁, s₂, notice, update, lines, hvictory, hgen, hupdate, rfl⟩ :=
    declareVictory_broadcasts h
  obtain ⟨first, updates, h₁⟩ := leaderSent_of_ok hleader hvictory
  have hleader₁ : s₁.leader = some leader := h₁.same.leader.trans hleader
  rw [eq_updateText hleader₁ (by decide) hgen] at hupdate
  obtain ⟨first', updates', h₂⟩ := leaderSent_of_ok hleader₁ hupdate
  exact ⟨_, _, s₂, lines, h₁.update h₂, rfl⟩

end Dchat.Chat
