import Dchat.Chat.Trap

/-!
# The loop of `chat`

The main loop with its clock: `select`, `read`, `RMP_listen`, and the three timers, whose times are
compared with `TIME_DIFF`. The functions that read the clock are written out with it; everything
else is what it was in the reactions to single events.

* `chatIteration` is one iteration, on what the environment gives in it, a `Poll`.
* `Timed.Handles` says what an iteration does in terms of events: at most four, in a fixed order.
* `event_of_iteration` and `fault_of_iteration`: a run of the loop is a run of events, to its end.
-/

namespace Dchat.Chat

open CString Stdio RMP Runs Encryption

/-! ## The clock -/

/-- `struct timespec`. -/
structure Timespec where
  tvSec : ℤ
  tvNsec : ℤ
  deriving DecidableEq

/-- `TIME_DIFF`, in milliseconds. The division rounds towards zero. -/
def timeDiff (x y : Timespec) : ℤ :=
  (x.tvSec - y.tvSec) * 1000 + (x.tvNsec - y.tvNsec).tdiv 1000000

/-- `HEARTBEAT_INTERVAL`. -/
def heartbeatInterval : ℤ := 3000

/-- `VICTORY_WAIT_MILLIS`. -/
def victoryWaitMillis : ℤ := 3000

/-- `RESTART_WAIT_MILLIS`. -/
def restartWaitMillis : ℤ := 6000

/-- What has been done about an election or a heartbeat, for statements about runs only. The numbers
are those of the readings of the clock: for a START_ELECTION that is sent or heeded the one that is
stored, for a timer the one that it has been compared with. -/
inductive Mark
  | started (k : ℕ)
  | heeded (k : ℕ)
  | stopped
  | followed
  | beat (n : ℕ)
  | won (n : ℕ)
  | expired (n : ℕ)
  deriving DecidableEq

/-- The globals, `last_election_start`, the `last_heartbeat` of `chat`, the number of times that the
clock has been read, and the marks. -/
structure Timed where
  node : Node
  lastElectionStart : Timespec
  lastHeartbeat : Timespec
  readings : ℕ
  marks : List Mark
  deriving DecidableEq

namespace Timed

-- `clock k` is what the reading number `k` of `CLOCK_MONOTONIC` gives
variable (clock : ℕ → Timespec)

/-- The node is replaced. -/
def withNode (t : Timed) (s : Node) : Timed := { t with node := s }

/-- A mark is made. -/
def mark (t : Timed) (m : Mark) : Timed := { t with marks := t.marks ++ [m] }

/-- A function that does not read the clock. -/
def run (t : Timed) (result : Except Fault Node) : Except Fault Timed := do
  let s ← result
  .ok (t.withNode s)

/-- `clock_gettime` into `last_election_start`. -/
def stamp (t : Timed) (m : ℕ → Mark) : Timed :=
  { t.mark (m t.readings) with
    lastElectionStart := clock t.readings
    readings := t.readings + 1 }

/-- `start_election`. -/
def startElection (env : Env) (t : Timed) : Except Fault Timed := do
  let s ← nonleaderBroadcastMessage env t.node messageStartElection
  .ok ((t.withNode { s with inElection := true, startedElection := true }).stamp clock .started)

/-- `stop_election`. -/
def stopElection (t : Timed) : Timed :=
  (t.withNode { t.node with inElection := true, startedElection := false }).mark .stopped

/-- `respond_to_leader_election`. -/
def respondToLeaderElection (env : Env) (locals : Locals) (t : Timed) (recvAddr : RmpAddress) :
    Except Fault Timed :=
  match findSender env recvAddr locals.address t.node.participants with
  | none => .error .nullPointer
  | some senderNickname =>
    if 0 < strcmp t.node.thisNickname senderNickname then
      (t.withNode (t.node.rmpSendTo env recvAddr messageStopElection).2).startElection clock env
    else
      .ok ((t.withNode { t.node with inElection := true, startedElection := false }).stamp clock
        .heeded)

/-- `set_new_leader`. -/
def setNewLeader (t : Timed) (recvAddr : RmpAddress) : Timed :=
  (t.withNode (Chat.setNewLeader t.node recvAddr)).mark .followed

/-- A message to the leader, at the end of `recv_stdin` and of `send_heartbeat`. -/
def askLeader (env : Env) (locals : Locals) (t : Timed) (message : Bytes) : Except Fault Timed := do
  let leaderAddr ← getLeaderAddr env locals t.node
  let (status, s) := t.node.rmpSendTo env leaderAddr message
  if status = rmpETimeout then (t.withNode s).startElection clock env
  else if status < 0 then .error .exit
  else .ok (t.withNode s)

/-- `recv_stdin`. -/
def recvStdin (env : Env) (locals : Locals) (t : Timed) (buf : Bytes) : Except Fault Timed :=
  let written := (encrypt buf encryptionKey maxBufferLen).2
  let ciphertext := cString (written ++ locals.ciphertext.drop written.length)
  if t.node.isLeader then t.run do
    let (clock, s) ← incrClock t.node
    let s ← leaderBroadcastMessage env s
      (snprintf maxBufferLen (broadcastText clock s.thisNickname ciphertext))
    .ok (s.print (s.thisNickname ++ str ":: " ++ cString buf))
  else
    t.askLeader clock env locals (snprintf maxBufferLen (requestText t.node.thisNickname ciphertext))

/-- `send_heartbeat`. -/
def sendHeartbeat (env : Env) (locals : Locals) (t : Timed) : Except Fault Timed :=
  if t.node.isLeader then t.run (leaderBroadcastMessage env t.node messageHeartbeat)
  else t.askLeader clock env locals messageHeartbeat

/-- `leader_receive_message`. -/
def leaderReceiveMessage (env : Env) (locals : Locals) (t : Timed) (buf : Bytes)
    (recvAddr : RmpAddress) : Except Fault Timed := do
  let (commandType, restCommand) ← scanCommand locals buf
  if strcmp messageAddMe commandType = 0 then
    t.run (leaderReceiveAddMe env t.node restCommand recvAddr)
  else if strcmp messageRequest commandType = 0 then
    t.run (leaderReceiveRequest env locals t.node restCommand)
  else if strcmp messageHeartbeat commandType = 0 then .ok t
  else if strcmp messageStartElection commandType = 0 then
    t.respondToLeaderElection clock env locals recvAddr
  else .ok (t.withNode (t.node.print (str "Unrecognized command: " ++ buf)))

/-- `non_leader_receive_message`. -/
def nonLeaderReceiveMessage (env : Env) (locals : Locals) (t : Timed) (buf : Bytes)
    (recvAddr : RmpAddress) : Except Fault Timed := do
  let (messageType, restMessage) ← scanCommand locals buf
  if strcmp messageBroadcast messageType = 0 then
    t.run (nonLeaderReceiveBroadcast locals t.node restMessage)
  else if strcmp messageParticipantUpdate messageType = 0 then
    t.run (processParticipantUpdate t.node buf false)
  else if strcmp messageAddMe messageType = 0 then t.run (nonLeaderReceiveAddMe env t.node recvAddr)
  else if strcmp messageHeartbeat messageType = 0 then .ok t
  else if strcmp messageStartElection messageType = 0 then
    t.respondToLeaderElection clock env locals recvAddr
  else if strcmp messageStopElection messageType = 0 then .ok t.stopElection
  else if strcmp messageElectionVictory messageType = 0 then .ok (t.setNewLeader recvAddr)
  else .error .exit

end Timed

/-! ## The loop -/

/-- What the environment gives in an iteration: whether `select` returns, what is read from standard
input and what `RMP_listen` receives if they are ready, `none` being -1, what the calls of RMP
return, and what the local variables of the functions for the two inputs and for the timers hold. -/
structure Poll where
  selected : Bool
  stdin : Option (Option Bytes)
  socket : Option (Option (Bytes × RmpAddress))
  env : Env
  stdinLocals : Locals
  socketLocals : Locals
  timerLocals : Locals

namespace Timed

/-- `chat` before its loop. `last_election_start` is a global that nothing has written. -/
def enter (clock : ℕ → Timespec) (s : Node) : Timed where
  node := s
  lastElectionStart := ⟨0, 0⟩
  lastHeartbeat := clock 0
  readings := 1
  marks := []

variable (clock : ℕ → Timespec)

/-- The part of an iteration for standard input; `none` at its end. -/
def fromStdin (poll : Poll) (t : Timed) : Except Fault (Option Timed) :=
  match poll.stdin with
  | none => .ok (some t)
  | some none => .ok (some t)
  | some (some buf) =>
    if 1 < buf.length then
      if t.node.numParticipants ≠ 1 then
        (t.recvStdin clock poll.env poll.stdinLocals (buf.dropLast ++ [0])).map some
      else .ok (some t)
    else if buf.length = 0 then .ok none
    else .ok (some t)

/-- The part of an iteration for a message. -/
def receive (poll : Poll) (t : Timed) (buf : Bytes) (recvAddr : RmpAddress) : Except Fault Timed :=
  if t.node.isLeader then t.leaderReceiveMessage clock poll.env poll.socketLocals buf recvAddr
  else t.nonLeaderReceiveMessage clock poll.env poll.socketLocals buf recvAddr

/-- The timer for heartbeats, at the reading number `n` of the clock. -/
def heartbeatTimer (poll : Poll) (n : ℕ) (t : Timed) : Except Fault Timed :=
  if t.node.inElection = false ∧ heartbeatInterval ≤ timeDiff (clock n) t.lastHeartbeat then do
    let t ← (t.mark (.beat n)).sendHeartbeat clock poll.env poll.timerLocals
    .ok { t with lastHeartbeat := clock n }
  else .ok t

/-- The timers for elections, at the reading number `n` of the clock. -/
def electionTimers (poll : Poll) (n : ℕ) (t : Timed) : Except Fault Timed :=
  if t.node.isLeader = false then
    if t.node.inElection = true ∧ t.node.startedElection = true ∧
        victoryWaitMillis ≤ timeDiff (clock n) t.lastElectionStart then
      (t.mark (.won n)).run (declareVictory poll.env t.node)
    else if t.node.inElection = true ∧ t.node.startedElection = false ∧
        restartWaitMillis ≤ timeDiff (clock n) t.lastElectionStart then
      (t.mark (.expired n)).startElection clock poll.env
    else .ok t
  else .ok t

/-- The end of an iteration, from the reading of the clock into `curr_time`. -/
def timers (poll : Poll) (t : Timed) : Except Fault Timed := do
  let n := t.readings
  let t ← ({ t with readings := n + 1 } : Timed).heartbeatTimer clock poll n
  t.electionTimers clock poll n

end Timed

/-- **An iteration of the loop of `chat`**; `none` if the loop is left. An empty message leads back
to the top of the loop. -/
def chatIteration (clock : ℕ → Timespec) (t : Timed) (poll : Poll) : Except Fault (Option Timed) :=
  if poll.selected = false then .error .exit
  else do
    let read ← t.fromStdin clock poll
    match read with
    | none => .ok none
    | some t =>
      match poll.socket with
      | some none => .error .exit
      | some (some ([], _)) => .ok (some t)
      | some (some (bytes, recvAddr)) => do
        let t ← t.receive clock poll (cString (bytes.dropLast ++ [0])) recvAddr
        (t.timers clock poll).map some
      | none => (t.timers clock poll).map some

/-- An iteration after which the loop goes on. -/
def loopStep (clock : ℕ → Timespec) (t : Timed) (poll : Poll) : Option Timed :=
  (chatIteration clock t poll).toOption.join

/-! ## Without the clock -/

namespace Timed

section Forgetting

variable {clock : ℕ → Timespec} {env : Env} {locals : Locals} {t t' : Timed} {poll : Poll}

theorem map_run (t : Timed) (result : Except Fault Node) : (t.run result).map node = result := by
  cases result <;> rfl

theorem map_startElection (clock : ℕ → Timespec) (env : Env) (t : Timed) :
    (t.startElection clock env).map node = Chat.startElection env t.node := by
  unfold startElection Chat.startElection
  cases nonleaderBroadcastMessage env t.node messageStartElection <;> rfl

theorem map_respondToLeaderElection (clock : ℕ → Timespec) (env : Env) (locals : Locals) (t : Timed)
    (recvAddr : RmpAddress) :
    (t.respondToLeaderElection clock env locals recvAddr).map node =
      Chat.respondToLeaderElection env locals t.node recvAddr := by
  unfold respondToLeaderElection Chat.respondToLeaderElection
  cases findSender env recvAddr locals.address t.node.participants with
  | none => rfl
  | some senderNickname =>
    dsimp only
    split
    · exact map_startElection clock env _
    · rfl

/-- The end of `recv_stdin` and of `send_heartbeat`. -/
theorem map_askLeader (clock : ℕ → Timespec) (env : Env) (locals : Locals) (t : Timed)
    (message : Bytes) :
    (t.askLeader clock env locals message).map node = (do
      let leaderAddr ← getLeaderAddr env locals t.node
      let (status, s) := t.node.rmpSendTo env leaderAddr message
      if status = rmpETimeout then Chat.startElection env s
      else if status < 0 then .error .exit
      else .ok s) := by
  unfold askLeader
  cases getLeaderAddr env locals t.node with
  | error e => rfl
  | ok leaderAddr =>
    simp only [Fault.ok_bind]
    split
    · exact map_startElection clock env _
    · split
      · rfl
      · rfl

theorem map_recvStdin (clock : ℕ → Timespec) (env : Env) (locals : Locals) (t : Timed) (buf : Bytes) :
    (t.recvStdin clock env locals buf).map node = Chat.recvStdin env locals t.node buf := by
  unfold recvStdin Chat.recvStdin
  dsimp only
  split
  · exact map_run t _
  · exact map_askLeader clock env locals t _

theorem map_sendHeartbeat (clock : ℕ → Timespec) (env : Env) (locals : Locals) (t : Timed) :
    (t.sendHeartbeat clock env locals).map node = Chat.sendHeartbeat env locals t.node := by
  unfold sendHeartbeat Chat.sendHeartbeat
  split
  · exact map_run t _
  · exact map_askLeader clock env locals t _

theorem map_leaderReceiveMessage (clock : ℕ → Timespec) (env : Env) (locals : Locals) (t : Timed)
    (buf : Bytes) (recvAddr : RmpAddress) :
    (t.leaderReceiveMessage clock env locals buf recvAddr).map node =
      Chat.leaderReceiveMessage env locals t.node buf recvAddr := by
  unfold leaderReceiveMessage Chat.leaderReceiveMessage
  cases scanCommand locals buf with
  | error e => rfl
  | ok words =>
    simp only [Fault.ok_bind]
    split
    · exact map_run t _
    split
    · exact map_run t _
    split
    · rfl
    split
    · exact map_respondToLeaderElection clock env locals t recvAddr
    · rfl

theorem map_nonLeaderReceiveMessage (clock : ℕ → Timespec) (env : Env) (locals : Locals) (t : Timed)
    (buf : Bytes) (recvAddr : RmpAddress) :
    (t.nonLeaderReceiveMessage clock env locals buf recvAddr).map node =
      Chat.nonLeaderReceiveMessage env locals t.node buf recvAddr := by
  unfold nonLeaderReceiveMessage Chat.nonLeaderReceiveMessage
  cases scanCommand locals buf with
  | error e => rfl
  | ok words =>
    simp only [Fault.ok_bind]
    split
    · exact map_run t _
    split
    · exact map_run t _
    split
    · exact map_run t _
    split
    · rfl
    split
    · exact map_respondToLeaderElection clock env locals t recvAddr
    split
    · rfl
    split
    · rfl
    · rfl

end Forgetting

end Timed

/-! ## Events -/

/-- A line from standard input. -/
def Event.IsStdin (event : Event) : Prop := ∃ buf, event = .stdin buf

/-- A message. -/
def Event.IsReceive (event : Event) : Prop := ∃ buf src, event = .receive buf src

/-- A timer for elections. -/
def Event.IsElection (event : Event) : Prop := event = .victory ∨ event = .restart

/-- The result of a part of an iteration: nothing has happened, or an event of a kind. -/
def Reacted (kind : Event → Prop) (env : Env) (locals : Locals) (s : Node)
    (result : Except Fault Node) : Prop :=
  result = .ok s ∨ ∃ event, kind event ∧ chatStep env locals s event = some result

section Events

variable {clock : ℕ → Timespec} {t t' : Timed} {poll : Poll} {n : ℕ} {e : Fault}

theorem reacted_fromStdin (result : Except Fault Timed)
    (h : t.fromStdin clock poll = result.map some) :
    Reacted Event.IsStdin poll.env poll.stdinLocals t.node (result.map Timed.node) := by
  have hsome : ∀ {x y : Except Fault Timed}, x.map some = y.map some → x = y := by
    intro x y hxy
    cases x <;> cases y <;> simp_all [Except.map]
  have hnothing : (Except.ok (some t) : Except Fault (Option Timed)) = result.map some →
      Reacted Event.IsStdin poll.env poll.stdinLocals t.node (result.map Timed.node) := by
    intro heq
    obtain rfl := hsome (x := .ok t) heq
    exact .inl rfl
  unfold Timed.fromStdin at h
  split at h
  · exact hnothing h
  · exact hnothing h
  next buf _ =>
  split at h
  · next hlong =>
    split at h
    · next hmany =>
      obtain rfl := hsome h
      refine .inr ⟨.stdin buf, ⟨buf, rfl⟩, ?_⟩
      rw [chatStep, if_pos hlong, if_pos hmany, Timed.map_recvStdin]
    · exact hnothing h
  split at h
  · cases result <;> cases h
  · exact hnothing h

theorem reacted_receive (clock : ℕ → Timespec) (poll : Poll) (t : Timed) (buf : Bytes)
    (recvAddr : RmpAddress) :
    Reacted Event.IsReceive poll.env poll.socketLocals t.node
      ((t.receive clock poll buf recvAddr).map Timed.node) := by
  refine .inr ⟨.receive buf recvAddr, ⟨buf, recvAddr, rfl⟩, ?_⟩
  rw [chatStep, Timed.receive]
  split
  · rw [Timed.map_leaderReceiveMessage]
  · rw [Timed.map_nonLeaderReceiveMessage]

theorem reacted_heartbeatTimer (clock : ℕ → Timespec) (poll : Poll) (n : ℕ) (t : Timed) :
    Reacted (· = .heartbeat) poll.env poll.timerLocals t.node
      ((t.heartbeatTimer clock poll n).map Timed.node) := by
  unfold Timed.heartbeatTimer
  split
  · next hdue =>
    refine .inr ⟨.heartbeat, rfl, ?_⟩
    have hmap := Timed.map_sendHeartbeat clock poll.env poll.timerLocals (t.mark (.beat n))
    rw [chatStep, if_neg (by rw [hdue.1]; decide)]
    have hnode : (t.mark (.beat n)).node = t.node := rfl
    rw [← hnode, ← hmap]
    cases (t.mark (.beat n)).sendHeartbeat clock poll.env poll.timerLocals <;> rfl
  · exact .inl rfl

theorem reacted_electionTimers (clock : ℕ → Timespec) (poll : Poll) (n : ℕ) (t : Timed) :
    Reacted Event.IsElection poll.env poll.timerLocals t.node
      ((t.electionTimers clock poll n).map Timed.node) := by
  unfold Timed.electionTimers
  split
  · next hl =>
    split
    · next hdue =>
      refine .inr ⟨.victory, .inl rfl, ?_⟩
      rw [chatStep, if_pos ⟨hl, hdue.1, hdue.2.1⟩, Timed.map_run]
    split
    · next hdue =>
      refine .inr ⟨.restart, .inr rfl, ?_⟩
      rw [chatStep, if_pos ⟨hl, hdue.1, hdue.2.1⟩, Timed.map_startElection]
      rfl
    · exact .inl rfl
  · exact .inl rfl

theorem loopStep_eq_some :
    loopStep clock t poll = some t' ↔ chatIteration clock t poll = .ok (some t') := by
  rw [loopStep, Option.join_eq_some_iff, Fault.toOption_eq_some]

/-- The timers come one after the other. -/
theorem timers_eq_ok (h : t.timers clock poll = .ok t') : ∃ t₁,
    ({ t with readings := t.readings + 1 } : Timed).heartbeatTimer clock poll t.readings = .ok t₁ ∧
      t₁.electionTimers clock poll t.readings = .ok t' :=
  Fault.bind_eq_ok.1 h

/-- **An iteration that goes on**: standard input, a message, and the timers unless it is empty. -/
theorem chatIteration_eq_ok (h : chatIteration clock t poll = .ok (some t')) :
    ∃ t₁, t.fromStdin clock poll = .ok (some t₁) ∧
      ((∃ recvAddr, poll.socket = some (some ([], recvAddr)) ∧ t' = t₁) ∨
        ∃ t₂, (poll.socket = none ∧ t₂ = t₁ ∨ ∃ bytes recvAddr,
          poll.socket = some (some (bytes, recvAddr)) ∧
            t₁.receive clock poll (cString (bytes.dropLast ++ [0])) recvAddr = .ok t₂) ∧
          t₂.timers clock poll = .ok t') := by
  have hsome : ∀ {x : Except Fault Timed}, x.map some = .ok (some t') → x = .ok t' := by
    intro x hx
    cases x with
    | error e => cases hx
    | ok t₁ => exact congrArg _ (Option.some.inj (Except.ok.inj hx))
  unfold chatIteration at h
  split at h
  · cases h
  obtain ⟨read, hread, h⟩ := Fault.bind_eq_ok.1 h
  cases read with
  | none => cases h
  | some t₁ =>
    refine ⟨t₁, hread, ?_⟩
    dsimp only at h
    split at h
    · cases h
    · next recvAddr hsocket =>
      exact .inl ⟨recvAddr, hsocket, (Option.some.inj (Except.ok.inj h)).symm⟩
    · next bytes recvAddr _ hsocket =>
      obtain ⟨t₂, hreceive, h⟩ := Fault.bind_eq_ok.1 h
      exact .inr ⟨t₂, .inr ⟨bytes, recvAddr, hsocket, hreceive⟩, hsome h⟩
    · next hsocket => exact .inr ⟨t₁, .inl ⟨hsocket, rfl⟩, hsome h⟩

/-- **What an iteration does** in terms of events: a line, a message, a heartbeat and a timer for
elections, in this order, and at most one of each. -/
theorem reacted_of_iteration (h : chatIteration clock t poll = .ok (some t')) :
    ∃ s₁ s₂ s₃, Reacted Event.IsStdin poll.env poll.stdinLocals t.node (.ok s₁) ∧
      Reacted Event.IsReceive poll.env poll.socketLocals s₁ (.ok s₂) ∧
      Reacted (· = .heartbeat) poll.env poll.timerLocals s₂ (.ok s₃) ∧
      Reacted Event.IsElection poll.env poll.timerLocals s₃ (.ok t'.node) := by
  obtain ⟨t₁, hread, ⟨_, -, rfl⟩ | ⟨t₂, hreceive, htimers⟩⟩ := chatIteration_eq_ok h
  · exact ⟨_, _, _, reacted_fromStdin (.ok t') hread, .inl rfl, .inl rfl, .inl rfl⟩
  · obtain ⟨t₃, hbeat, helection⟩ := timers_eq_ok htimers
    refine ⟨t₁.node, t₂.node, t₃.node, reacted_fromStdin (.ok t₁) hread, ?_, ?_, ?_⟩
    · obtain ⟨-, rfl⟩ | ⟨bytes, recvAddr, -, hreceive⟩ := hreceive
      · exact .inl rfl
      · have hreacted := reacted_receive clock poll t₁ (cString (bytes.dropLast ++ [0])) recvAddr
        rwa [hreceive] at hreacted
    · have hreacted := reacted_heartbeatTimer clock poll t₂.readings
        { t₂ with readings := t₂.readings + 1 }
      rwa [hbeat] at hreacted
    · have hreacted := reacted_electionTimers clock poll t₂.readings t₃
      rwa [helection] at hreacted

end Events

/-! ## Runs -/

/-- A node that comes to `chat`: that of the founder, or of a process that has been let in. -/
inductive Enters (ok : Process → Occurrence → Prop) : Node → Prop
  | founder {nickname ipAddress portNum : Bytes} {s : Node}
    (h : startChat nickname ipAddress portNum = .ok s) : Enters ok s
  | joiner {j : Joining} {o : Occurrence} {s : Node} (hj : Reach soloStep ok Started (.joining j))
    (hok : ok (.joining j) o) (h : soloStep (.joining j) o = some (.chatting s)) : Enters ok s

/-- The start of `chat`. -/
def Entering (ok : Process → Occurrence → Prop) (clock : ℕ → Timespec) (t : Timed) : Prop :=
  ∃ s, Enters ok s ∧ t = Timed.enter clock s

/-- What a poll gives is allowed in every reaction. -/
def Poll.Allowed (ok : Process → Occurrence → Prop) (poll : Poll) : Prop :=
  ∀ p o, o.env = poll.env → ok p o

section Runs

variable {ok : Process → Occurrence → Prop} {clock : ℕ → Timespec} {t t' : Timed} {poll : Poll}
  {kind : Event → Prop} {locals : Locals} {s s' : Node} {e : Fault}

theorem Enters.reach (h : Enters ok s) : Reach soloStep ok Started (.chatting s) := by
  cases h with
  | founder h => exact .start (.founder h)
  | joiner hj hok h => exact hj.next hok h

theorem Reacted.reach (hr : Reacted kind poll.env locals s (.ok s')) (hpoll : poll.Allowed ok)
    (h : Reach soloStep ok Started (.chatting s)) : Reach soloStep ok Started (.chatting s') := by
  obtain heq | ⟨event, -, hran⟩ := hr
  · exact Except.ok.inj heq ▸ h
  · have hstep : soloStep (.chatting s) ⟨poll.env, locals, event⟩ = some (.chatting s') :=
      soloStep_of_chatStep hran
    exact h.next (hpoll (.chatting s) ⟨poll.env, locals, event⟩ rfl) hstep

/-- A fault in a part of an iteration is one in the reaction to an event. -/
theorem Reacted.fault (hr : Reacted kind poll.env locals s (.error e)) :
    ∃ event, chatStep poll.env locals s event = some (.error e) := by
  obtain heq | ⟨event, -, hran⟩ := hr
  · cases heq
  · exact ⟨event, hran⟩

/-- **An iteration is a run of events.** -/
theorem reach_of_iteration (hpoll : poll.Allowed ok)
    (h : Reach soloStep ok Started (.chatting t.node))
    (hran : chatIteration clock t poll = .ok (some t')) :
    Reach soloStep ok Started (.chatting t'.node) := by
  obtain ⟨s₁, s₂, s₃, h₁, h₂, h₃, h₄⟩ := reacted_of_iteration hran
  exact h₄.reach hpoll (h₃.reach hpoll (h₂.reach hpoll (h₁.reach hpoll h)))

/-- **An iteration that stops** does so at `exit`, or in the reaction to an event. -/
theorem fault_of_iteration (hpoll : poll.Allowed ok)
    (h : Reach soloStep ok Started (.chatting t.node)) (hran : chatIteration clock t poll = .error e) :
    e = .exit ∨ ∃ s locals event, Reach soloStep ok Started (.chatting s) ∧
      chatStep poll.env locals s event = some (.error e) := by
  have hmap : ∀ {x : Except Fault Timed} {f : Timed → Option Timed},
      x.map f = .error e → x = .error e := by
    intro x f hx
    cases x with
    | error e' => exact congrArg _ (Except.error.inj hx)
    | ok t₁ => cases hx
  have htimers : ∀ t₁ : Timed, Reach soloStep ok Started (.chatting t₁.node) →
      t₁.timers clock poll = .error e → ∃ s locals event, Reach soloStep ok Started (.chatting s) ∧
        chatStep poll.env locals s event = some (.error e) := by
    intro t₁ h₁ hstop
    have hbeat := reacted_heartbeatTimer clock poll t₁.readings { t₁ with readings := t₁.readings + 1 }
    unfold Timed.timers at hstop
    dsimp only at hstop
    cases hx : ({ t₁ with readings := t₁.readings + 1 } : Timed).heartbeatTimer clock poll
      t₁.readings with
    | error e' =>
      rw [hx] at hstop hbeat
      obtain rfl := Except.error.inj hstop
      obtain ⟨event, hevent⟩ := hbeat.fault
      exact ⟨_, _, event, h₁, hevent⟩
    | ok t₂ =>
      rw [hx] at hstop hbeat
      have helection := reacted_electionTimers clock poll t₁.readings t₂
      rw [show t₂.electionTimers clock poll t₁.readings = .error e from hstop] at helection
      obtain ⟨event, hevent⟩ := helection.fault
      exact ⟨_, _, event, hbeat.reach hpoll h₁, hevent⟩
  unfold chatIteration at hran
  split at hran
  · exact .inl (Except.error.inj hran).symm
  cases hread : t.fromStdin clock poll with
  | error e' =>
    rw [hread] at hran
    obtain rfl := Except.error.inj hran
    obtain ⟨event, hevent⟩ := (reacted_fromStdin (.error e') hread).fault
    exact .inr ⟨_, _, event, h, hevent⟩
  | ok read =>
    rw [hread] at hran
    cases read with
    | none => cases hran
    | some t₁ =>
      have h₁ := (reacted_fromStdin (.ok t₁) hread).reach hpoll h
      simp only [Fault.ok_bind] at hran
      split at hran
      · exact .inl (Except.error.inj hran).symm
      · cases hran
      · next bytes recvAddr _ _ =>
        have hreacted := reacted_receive clock poll t₁ (cString (bytes.dropLast ++ [0])) recvAddr
        cases hx : t₁.receive clock poll (cString (bytes.dropLast ++ [0])) recvAddr with
        | error e' =>
          rw [hx] at hran hreacted
          obtain rfl := Except.error.inj hran
          obtain ⟨event, hevent⟩ := hreacted.fault
          exact .inr ⟨_, _, event, h₁, hevent⟩
        | ok t₂ =>
          rw [hx] at hran hreacted
          exact .inr (htimers t₂ (hreacted.reach hpoll h₁) (hmap hran))
      · exact .inr (htimers t₁ h₁ (hmap hran))

/-- **The loop of `chat` is a run of events.** Every node that it comes to is one that the
reactions to events lead to, under the same conditions on the environment, and it does not stop in
any other way. -/
theorem event_of_iteration
    (h : Reach (loopStep clock) (fun _ poll => poll.Allowed ok) (Entering ok clock) t) :
    Reach soloStep ok Started (.chatting t.node) ∧
      ∀ poll e, poll.Allowed ok → chatIteration clock t poll = .error e →
        e = .exit ∨ ∃ s locals event, Reach soloStep ok Started (.chatting s) ∧
          chatStep poll.env locals s event = some (.error e) := by
  have hreach : Reach soloStep ok Started (.chatting t.node) := by
    refine h.invariant (I := fun t => Reach soloStep ok Started (.chatting t.node)) ?_ ?_
    · rintro t ⟨s, hs, rfl⟩
      exact hs.reach
    · intro t poll t' hI hpoll hs
      exact reach_of_iteration hpoll hI (loopStep_eq_some.1 hs)
  exact ⟨hreach, fun poll e hpoll hran => fault_of_iteration hpoll hreach hran⟩

/-- What the loop comes to after a list of iterations of a process that has been let in. -/
theorem exists_loop_of_exec (ok : Process → Occurrence → Prop) {allowed : Poll → Prop}
    {j : Joining} {o : Occurrence} {polls : List Poll}
    {β : Type} {f : Timed → β} {b : β} (hj : Started (.joining j)) (hok : ok (.joining j) o)
    (hallowed : ∀ poll ∈ polls, allowed poll)
    (h : (((soloStep (.joining j) o).bind Process.node?).bind fun s =>
      exec (loopStep clock) (fun _ _ => True) (Timed.enter clock s) polls).map f = some b) :
    ∃ t, Reach (loopStep clock) (fun _ poll => allowed poll) (Entering ok clock) t ∧ f t = b := by
  obtain ⟨t, ht, hb⟩ := Option.map_eq_some_iff.1 h
  obtain ⟨s, hs, hrun⟩ := Option.bind_eq_some_iff.1 ht
  obtain ⟨p, hp, hnode⟩ := Option.bind_eq_some_iff.1 hs
  obtain rfl := Process.eq_chatting hnode
  have hstart : Entering ok clock (Timed.enter clock s) := ⟨s, .joiner (.start hj) hok hp, rfl⟩
  exact ⟨t, reach_exec_of (fun _ poll hmem _ => hallowed poll hmem) (.start hstart) hrun, hb⟩

end Runs

/-! ## A run -/

/-- A clock that is read every four seconds. -/
def fourSeconds (k : ℕ) : Timespec := ⟨4 * k, 0⟩

/-- Addresses of the local host are resolved, and nobody answers. -/
def silentEnv : Env where
  getAddressFor := loopbackAddress
  sendTo _ _ _ := rmpETimeout

/-- There is no input. -/
def quietPoll (env : Env) : Poll := ⟨true, none, none, env, .blank, .blank, .blank⟩

/-- `b` is let in by `a`. -/
def admission : Occurrence :=
  ⟨calmEnv, .blank,
    .receive (str "PARTICIPANT_UPDATE @a:127.0.0.1:80 b:127.0.0.1:81 = NOTICE") (localHost 80)⟩

/-- `a` answers the first heartbeat of `b` and nothing after that. -/
def bereavement : List Poll := [quietPoll calmEnv, quietPoll silentEnv, quietPoll silentEnv]

/-- `b` comes to lead. -/
theorem event_of_iteration_bereavement : ∃ t : Timed, t.node.isLeader = true ∧
    Reach soloStep (fun _ o => o.env.getAddressFor = loopbackAddress) Started (.chatting t.node) ∧
      ∀ poll e, poll.Allowed (fun _ o => o.env.getAddressFor = loopbackAddress) →
        chatIteration fourSeconds t poll = .error e →
        e = .exit ∨ ∃ s locals event,
          Reach soloStep (fun _ o => o.env.getAddressFor = loopbackAddress) Started (.chatting s) ∧
          chatStep poll.env locals s event = some (.error e) := by
  have hrun : ((joinChat calmEnv (str "b") (str "127.0.0.1") (str "81")
      (str "127.0.0.1:80")).toOption.bind fun j =>
        (((soloStep (.joining j) admission).bind Process.node?).bind fun s =>
          exec (loopStep fourSeconds) (fun _ _ => True) (Timed.enter fourSeconds s)
            bereavement).map fun t => t.node.isLeader) = some true := by decide
  obtain ⟨j, hj, hrun⟩ := Option.bind_eq_some_iff.1 hrun
  have hstarted : Started (.joining j) := .joiner (Fault.toOption_eq_some.1 hj)
  have hallowed : ∀ poll ∈ bereavement,
      poll.Allowed (fun _ o => o.env.getAddressFor = loopbackAddress) := by
    intro poll hpoll p o ho
    rw [ho]
    simp only [bereavement, List.mem_cons, List.not_mem_nil, or_false] at hpoll
    obtain rfl | rfl | rfl := hpoll <;> rfl
  obtain ⟨t, hreach, hleads⟩ :=
    exists_loop_of_exec (fun _ o => o.env.getAddressFor = loopbackAddress) hstarted rfl hallowed hrun
  exact ⟨t, hleads, event_of_iteration hreach⟩

end Dchat.Chat
