import Dchat.Chat.Receive
import Dchat.Foundations.Runs

/-!
# A process from its start

`start_chat` and `join_chat` of `dchat.c`, and the life of a process: it founds a chat, or it asks
to be let into one and waits for the answer, and then it reacts to the events of `chat`.

`processStep` is the reaction to one event. `Occurrence` is an event with what the environment does
in it, and `soloStep` lets a single process run through any sequence of them.
-/

namespace Dchat.Chat

open CString Stdio RMP Runs

/-! ## The source -/

/-- `"%s started a new chat, listening on %s:%s"`. -/
def startLine (nickname ipAddress portNum : Bytes) : Bytes :=
  nickname ++ str " started a new chat, listening on " ++ ipAddress ++ str ":" ++ portNum

/-- `start_chat`, on a socket of the given address. -/
def startChat (nickname ipAddress portNum : Bytes) : Except Fault Node := do
  let s ← (Node.modelInit nickname true).insertParticipant nickname ipAddress portNum true
  .ok ((s.print (startLine nickname ipAddress portNum)).print
    (str "Waiting for others to join..."))

/-- The locals of `join_chat` in its loop: the texts and the address of the process it asks, and the
attempts that have failed. -/
structure Joining where
  node : Node
  addr : Bytes
  port : Bytes
  leaderHint : RmpAddress
  failedJoinAttempts : ℕ
  deriving DecidableEq

/-- `"%s joining a new chat on %s, listening on %s:%s"`. -/
def joinLine (nickname addrPort ipAddress portNum : Bytes) : Bytes :=
  nickname ++ str " joining a new chat on " ++ addrPort ++ str ", listening on " ++ ipAddress ++
    str ":" ++ portNum

/-- A round of the loop of `join_chat` up to `RMP_listen`. -/
def sendAddMe (env : Env) (j : Joining) : Except Fault Joining :=
  if j.failedJoinAttempts < 10 then
    let (status, s) := j.node.rmpSendTo env j.leaderHint (addMeCmd j.node.thisNickname)
    if status < 0 then .error .exit else .ok { j with node := s }
  else .error .exit

/-- `join_chat` up to the first `RMP_listen`, on a socket of the given address. -/
def joinChat (env : Env) (nickname ipAddress portNum addrPort : Bytes) : Except Fault Joining :=
  let s := (Node.modelInit nickname false).print (joinLine nickname addrPort ipAddress portNum)
  let colonPos := strcspn addrPort (str ":")
  if colonPos = addrPort.length then .error .exit
  -- the NUL at `addr[colon_pos]`
  else if maxIpAddressLen < colonPos then .error .bufferOverflow
  else
    let addr := addrPort.take colonPos
    let port := addrPort.drop (colonPos + 1)
    if maxPortNumLen < port.length then .error .unterminated
    else
      match env.getAddressFor addr port with
      | none => .error .exit
      | some leaderHint => sendAddMe env ⟨s, addr, port, leaderHint, 0⟩

/-- A process: in `join_chat`, or in `chat`. -/
inductive Process
  | joining (j : Joining)
  | chatting (s : Node)
  deriving DecidableEq

/-- The node of a process in `chat`. -/
def Process.node? : Process → Option Node
  | .joining _ => none
  | .chatting s => some s

theorem Process.eq_chatting {p : Process} {s : Node} (h : p.node? = some s) : p = .chatting s := by
  cases p with
  | joining j => cases h
  | chatting s' => exact congrArg _ (Option.some.inj h)

/-- `"%s %[0-9.]:%[0-9]"`. -/
def leaderIdFormat : List Directive :=
  [.str 20, .white, .set isAddressByte (maxIpAddressLen + 1), .lit 58, .set isDigit 6]

/-- `"%s "`. -/
def joinFormat : List Directive := [.str 20, .white]

/-- The rest of a round of the loop of `join_chat`. -/
def joinReceive (env : Env) (j : Joining) (recvBuff : Bytes) : Except Fault Process := do
  let r ← sscanf joinFormat recvBuff
  let commandType := r.text 0 []
  let failed := { j with failedJoinAttempts := j.failedJoinAttempts + 1 }
  if r.ret = eof then .error .exit
  else if strcmp messageParticipantUpdate commandType = 0 then
    let s ← processParticipantUpdate (j.node.print (str "Succeeded, current users:")) recvBuff true
    .ok (.chatting s)
  else if strcmp messageJoinNicknameFailure commandType = 0 then .error .exit
  else if strcmp messageJoinFailure commandType = 0 then
    let j ← sendAddMe env failed
    .ok (.joining j)
  else if strcmp messageLeaderId commandType = 0 then
    let r ← sscanf leaderIdFormat recvBuff
    if r.ret = eof then .error .exit
    else
      let addr := r.text 1 j.addr
      let port := r.text 2 j.port
      match env.getAddressFor addr port with
      | none => .error .exit
      | some leaderHint =>
        let j ← sendAddMe env { failed with addr := addr, port := port, leaderHint := leaderHint }
        .ok (.joining j)
  else .error .exit

/-- The reaction of a process to an event. In `join_chat` it waits for a message only. -/
def processStep (env : Env) (locals : Locals) : Process → Event → Option (Except Fault Process)
  | .joining j, .receive buf _ => some (joinReceive env j buf)
  | .joining _, _ => none
  | .chatting s, event => (chatStep env locals s event).map fun r => r.map .chatting

/-! ## Runs of one process -/

/-- An event, with the environment and the locals of the reaction to it. -/
structure Occurrence where
  env : Env
  locals : Locals
  event : Event

/-- A reaction after which the process is still there. -/
def soloStep (p : Process) (o : Occurrence) : Option Process := do
  let result ← processStep o.env o.locals p o.event
  result.toOption

/-- The process has just come to `chat` as the founder of a chat, or to the loop of `join_chat`. -/
inductive Started : Process → Prop
  | founder {nickname ipAddress portNum : Bytes} {s : Node}
      (h : startChat nickname ipAddress portNum = .ok s) : Started (.chatting s)
  | joiner {env : Env} {nickname ipAddress portNum addrPort : Bytes} {j : Joining}
      (h : joinChat env nickname ipAddress portNum addrPort = .ok j) : Started (.joining j)

/-- A message to a joining process whose command is `command`. -/
def JoinReads (buf command : Bytes) : Prop :=
  ∃ r, sscanf joinFormat buf = .ok r ∧ strcmp command (r.text 0 []) = 0

section Steps

variable {o : Occurrence} {s : Node} {j : Joining} {p : Process}

theorem soloStep_chatting (h : soloStep (.chatting s) o = some p) :
    ∃ s', chatStep o.env o.locals s o.event = some (.ok s') ∧ p = .chatting s' := by
  obtain ⟨result, hran, hok⟩ := Option.bind_eq_some_iff.1 h
  obtain ⟨r, hr, rfl⟩ := Option.map_eq_some_iff.1 hran
  have hok := Fault.toOption_eq_some.1 hok
  cases r with
  | error e => cases hok
  | ok s' =>
    obtain rfl := Except.ok.inj hok
    exact ⟨s', hr, rfl⟩

theorem soloStep_of_chatStep {s' : Node} (h : chatStep o.env o.locals s o.event = some (.ok s')) :
    soloStep (.chatting s) o = some (.chatting s') := by
  rw [soloStep, processStep, h]
  rfl

theorem soloStep_joining (h : soloStep (.joining j) o = some p) :
    ∃ buf src, o.event = .receive buf src ∧ joinReceive o.env j buf = .ok p := by
  obtain ⟨result, hran, hok⟩ := Option.bind_eq_some_iff.1 h
  have hok := Fault.toOption_eq_some.1 hok
  cases hevent : o.event with
  | receive buf src =>
    rw [hevent] at hran
    obtain rfl := Option.some.inj hran
    exact ⟨buf, src, rfl, hok⟩
  | stdin buf => rw [hevent] at hran; cases hran
  | heartbeat => rw [hevent] at hran; cases hran
  | victory => rw [hevent] at hran; cases hran
  | restart => rw [hevent] at hran; cases hran

theorem sendAddMe_ok {env : Env} {j' : Joining} (h : sendAddMe env j = .ok j') :
    ∃ e : Sent, j' = { j with node := { j.node with sent := j.node.sent ++ [e] } } ∧
      e.dst = j.leaderHint ∧ e.message = addMeCmd j.node.thisNickname ∧
      e.result = env.sendTo j.node.sent.length e.dst e.message := by
  unfold sendAddMe at h
  dsimp only at h
  split at h
  · split at h
    · cases h
    · exact ⟨_, (Except.ok.inj h).symm, rfl, rfl, rfl⟩
  · cases h

/-- **What a joining process does**: it asks again, or it has been let in by a
PARTICIPANT_UPDATE. -/
theorem joinReceive_ok {env : Env} {buf : Bytes} (h : joinReceive env j buf = .ok p) :
    (∃ j₁ j', p = .joining j' ∧ j₁.node = j.node ∧ sendAddMe env j₁ = .ok j') ∨
    ∃ s', JoinReads buf messageParticipantUpdate ∧ p = .chatting s' ∧
      processParticipantUpdate (j.node.print (str "Succeeded, current users:")) buf true = .ok s' := by
  have hasked : ∀ j₁ : Joining, j₁.node = j.node →
      (sendAddMe env j₁ >>= fun j' => Except.ok (Process.joining j')) = .ok p →
      ∃ j₁ j', p = .joining j' ∧ j₁.node = j.node ∧ sendAddMe env j₁ = .ok j' := by
    intro j₁ hnode hsend
    obtain ⟨j', hj', hp⟩ := Fault.bind_eq_ok.1 hsend
    exact ⟨j₁, j', (Except.ok.inj hp).symm, hnode, hj'⟩
  obtain ⟨r, hr, h⟩ := Fault.bind_eq_ok.1 h
  dsimp only at h
  split at h
  · cases h
  split at h
  · next hword =>
    obtain ⟨s', hupdate, h⟩ := Fault.bind_eq_ok.1 h
    exact .inr ⟨s', ⟨r, hr, hword⟩, (Except.ok.inj h).symm, hupdate⟩
  split at h
  · cases h
  split at h
  · exact .inl (hasked _ (by rfl) h)
  split at h
  · obtain ⟨r', -, h⟩ := Fault.bind_eq_ok.1 h
    split at h
    · cases h
    split at h
    · cases h
    · exact .inl (hasked _ (by rfl) h)
  · cases h

/-- What a node looks like after a list of events from its start. -/
theorem exists_reach_of_exec {ok : Process → Occurrence → Prop} [∀ p o, Decidable (ok p o)]
    {p : Process} (hp : Started p) {os : List Occurrence} {β : Type} {f : Node → β} {b : β}
    (h : ((exec soloStep ok p os).bind Process.node?).map f = some b) :
    ∃ s, Reach soloStep ok Started (.chatting s) ∧ f s = b := by
  obtain ⟨s, hs, hb⟩ := Option.map_eq_some_iff.1 h
  obtain ⟨p', hp', hnode⟩ := Option.bind_eq_some_iff.1 hs
  obtain rfl := Process.eq_chatting hnode
  exact ⟨s, reach_exec os (.start hp) hp', hb⟩

end Steps

end Dchat.Chat
