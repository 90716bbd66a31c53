import Dchat.Chat.Receive

/-!
# What an event of `chat` does

`Reaction` lists everything that a round of the loop of `chat` can do to a node, with what has been
read and the conditions that have been checked on the way, and `reaction_of_chatStep` says that it
is complete. An invariant of a node is proved by cases on the reaction.
-/

namespace Dchat.Chat

open CString Stdio RMP

/-- What a non-leader answers to an ADD_ME. -/
def Referral (s : Node) (message : Bytes) : Prop :=
  message = messageJoinFailure ∨ ∃ leader : Peer, s.leader = some leader ∧
    message = snprintf (10 + maxIpAddressLen + 1 + maxPortNumLen + 1)
      (messageLeaderId ++ str " " ++ leader.ipAddress ++ str ":" ++ leader.portNum)

/-- What a non-leader sends to the leader. -/
def Enquiry (message : Bytes) : Prop :=
  message = messageHeartbeat ∨
    ∃ nickname payload, message = snprintf maxBufferLen (requestText nickname payload)

/-- What makes a non-leader send to the leader: a line, and its own heartbeat. -/
def Event.AsksLeader (event : Event) : Prop := event = .heartbeat ∨ ∃ buf, event = .stdin buf

/-- A message whose command is `command`, with the rest of its line. -/
def Reads (locals : Locals) (buf command rest : Bytes) : Prop :=
  ∃ word, scanCommand locals buf = .ok (word, rest) ∧ strcmp command word = 0

/-- What makes a leader number a message: a line, and a request. -/
def Event.asksNumber (locals : Locals) : Event → Bool
  | .stdin _ => true
  | .receive buf _ => (scanCommand locals buf).toOption.any fun p => strcmp messageRequest p.1 = 0
  | .heartbeat | .victory | .restart => false

/-- **The reactions of a node** to an event after which it is still there. -/
inductive Reaction (env : Env) (locals : Locals) (s : Node) : Event → Node → Prop
  /-- Nothing, or lines printed. -/
  | silent {event : Event} (lines : List Bytes) :
    Reaction env locals s event { s with printed := s.printed ++ lines }
  /-- The leader broadcasts a MESSAGE_BROADCAST, of its own or on request. -/
  | numbered {event : Event} {nickname payload line : Bytes} {s₁ : Node} (hl : s.isLeader = true)
    (hasks : event.asksNumber locals = true) (hclock : s.clockNum ≠ 2147483647)
    (h : leaderBroadcastMessage env { s with clockNum := s.clockNum + 1 }
      (snprintf 1024 (broadcastText s.clockNum nickname payload)) = .ok s₁) :
    Reaction env locals s event (s₁.print line)
  /-- The leader refuses a nickname that it has already. -/
  | refused {buf rest : Bytes} {src : RmpAddress} (hl : s.isLeader = true)
    (hreads : Reads locals buf messageAddMe rest) (hold : s.containsParticipant rest = true) :
    Reaction env locals s (.receive buf src) (s.rmpSendTo env src messageJoinNicknameFailure).2
  /-- The leader lets in a participant. -/
  | admitted {buf rest update : Bytes} {src : RmpAddress} {s₁ s₂ : Node}
    (hl : s.isLeader = true) (hreads : Reads locals buf messageAddMe rest)
    (hnew : s.containsParticipant rest = false)
    (hinsert : s.insertParticipant rest (inetNtoa src) (portText src) false = .ok s₁)
    (hgen : generateParticipantUpdate s₁ maxBufferLen (snprintf maxBufferLen
      (joinMessage rest (inetNtoa src) (portText src))) = .ok update)
    (h : leaderBroadcastMessage env s₁ update = .ok s₂) :
    Reaction env locals s (.receive buf src) (s₂.print (snprintf maxBufferLen
      (joinMessage rest (inetNtoa src) (portText src))))
  /-- A node responds to an election. -/
  | responded {buf rest : Bytes} {src : RmpAddress} {s' : Node}
    (hreads : Reads locals buf messageStartElection rest)
    (h : respondToLeaderElection env locals s src = .ok s') :
    Reaction env locals s (.receive buf src) s'
  /-- A non-leader receives a MESSAGE_BROADCAST. -/
  | heard {buf rest nickname payload line : Bytes} {src : RmpAddress} {id : ℤ}
    (hl : s.isLeader = false) (hreads : Reads locals buf messageBroadcast rest)
    (hscan : scanBroadcast locals rest = .ok (id, nickname, payload)) :
    Reaction env locals s (.receive buf src) (({ s with clockNum := id } : Node).print line)
  /-- A non-leader takes over a list. -/
  | updated {buf rest : Bytes} {src : RmpAddress} {s' : Node} (hl : s.isLeader = false)
    (hreads : Reads locals buf messageParticipantUpdate rest)
    (h : processParticipantUpdate s buf false = .ok s') :
    Reaction env locals s (.receive buf src) s'
  /-- A non-leader answers an ADD_ME. -/
  | referred {buf rest message : Bytes} {src : RmpAddress} (hl : s.isLeader = false)
    (hreads : Reads locals buf messageAddMe rest) (hmessage : Referral s message) :
    Reaction env locals s (.receive buf src) (s.rmpSendTo env src message).2
  /-- A non-leader is told to stop an election. -/
  | stopped {buf rest : Bytes} {src : RmpAddress} (hl : s.isLeader = false)
    (hreads : Reads locals buf messageStopElection rest) :
    Reaction env locals s (.receive buf src) (stopElection s)
  /-- A non-leader follows a new leader. -/
  | followed {buf rest : Bytes} {src : RmpAddress} (hl : s.isLeader = false)
    (hreads : Reads locals buf messageElectionVictory rest) :
    Reaction env locals s (.receive buf src) (setNewLeader s src)
  /-- A non-leader sends to the leader. -/
  | asked {event : Event} {dst : RmpAddress} {message : Bytes} (hl : s.isLeader = false)
    (hmessage : Enquiry message) : Reaction env locals s event (s.rmpSendTo env dst message).2
  /-- A non-leader takes the leader for crashed. -/
  | suspected {event : Event} {dst : RmpAddress} {message : Bytes} {s' : Node}
    (hl : s.isLeader = false) (hasks : event.AsksLeader)
    (hdst : getLeaderAddr env locals s = .ok dst) (hmessage : Enquiry message)
    (htimeout : (s.rmpSendTo env dst message).1 = rmpETimeout)
    (h : startElection env (s.rmpSendTo env dst message).2 = .ok s') :
    Reaction env locals s event s'
  /-- The leader sends its heartbeats. -/
  | beaten {s' : Node} (hl : s.isLeader = true) (hidle : s.inElection = false)
    (h : leaderBroadcastMessage env s messageHeartbeat = .ok s') :
    Reaction env locals s .heartbeat s'
  /-- An election is over. -/
  | declared {s' : Node} (hl : s.isLeader = false) (hin : s.inElection = true)
    (hstarted : s.startedElection = true) (h : declareVictory env s = .ok s') :
    Reaction env locals s .victory s'
  /-- An election is started again. -/
  | restarted {s' : Node} (hl : s.isLeader = false) (hin : s.inElection = true)
    (h : startElection env s = .ok s') : Reaction env locals s .restart s'

section Inversion

variable {env : Env} {locals : Locals} {s s' : Node}

theorem incrClock_ok {clock : ℤ} (h : incrClock s = .ok (clock, s')) :
    s.clockNum ≠ 2147483647 ∧ clock = s.clockNum ∧ s' = { s with clockNum := s.clockNum + 1 } := by
  unfold incrClock at h
  split at h
  · cases h
  · next hclock =>
    obtain ⟨rfl, rfl⟩ := Prod.mk.inj (Except.ok.inj h)
    exact ⟨hclock, rfl, rfl⟩

theorem reaction_silent (env : Env) (locals : Locals) (s : Node) (event : Event) :
    Reaction env locals s event s := by
  have hsilent : Reaction env locals s event { s with printed := s.printed ++ [] } := .silent []
  rw [List.append_nil] at hsilent
  exact hsilent

theorem reaction_of_leaderReceive {buf : Bytes} {src : RmpAddress} (hl : s.isLeader = true)
    (h : leaderReceiveMessage env locals s buf src = .ok s') :
    Reaction env locals s (.receive buf src) s' := by
  obtain ⟨⟨word, rest⟩, hscan, h⟩ := Fault.bind_eq_ok.1 h
  dsimp only at h
  split at h
  · next hword =>
    have hreads : Reads locals buf messageAddMe rest := ⟨word, hscan, hword⟩
    obtain ⟨hold, rfl⟩ | ⟨hnew, s₁, update, s₂, hinsert, hgen, hbroadcast, rfl⟩ :=
      leaderReceiveAddMe_eq_ok h
    · exact .refused hl hreads hold
    · exact .admitted hl hreads hnew hinsert hgen hbroadcast
  split at h
  · next hword =>
    obtain ⟨⟨nickname, payload⟩, -, h⟩ := Fault.bind_eq_ok.1 h
    obtain ⟨⟨clock, s₁⟩, hclock, h⟩ := Fault.bind_eq_ok.1 h
    obtain ⟨hne, rfl, rfl⟩ := incrClock_ok hclock
    obtain ⟨s₂, hbroadcast, hend⟩ := Fault.bind_eq_ok.1 h
    have hasks : (Event.receive buf src).asksNumber locals = true := by
      rw [Event.asksNumber, hscan]
      exact decide_eq_true hword
    exact Except.ok.inj hend ▸ .numbered hl hasks hne hbroadcast
  split at h
  · exact Except.ok.inj h ▸ reaction_silent env locals s _
  split at h
  · next hword => exact .responded ⟨word, hscan, hword⟩ h
  · exact Except.ok.inj h ▸ .silent [_]

theorem reaction_of_nonLeaderReceive {buf : Bytes} {src : RmpAddress} (hl : s.isLeader = false)
    (h : nonLeaderReceiveMessage env locals s buf src = .ok s') :
    Reaction env locals s (.receive buf src) s' := by
  obtain ⟨⟨word, rest⟩, hscan, h⟩ := Fault.bind_eq_ok.1 h
  dsimp only at h
  split at h
  · next hword =>
    obtain ⟨⟨id, nickname, payload⟩, hbroadcast, h⟩ := Fault.bind_eq_ok.1 h
    exact Except.ok.inj h ▸ .heard hl ⟨word, hscan, hword⟩ hbroadcast
  split at h
  · next hword => exact .updated hl ⟨word, hscan, hword⟩ h
  split at h
  · next hword =>
    have hreads : Reads locals buf messageAddMe rest := ⟨word, hscan, hword⟩
    unfold nonLeaderReceiveAddMe at h
    split at h
    · exact Except.ok.inj h ▸ .referred hl hreads (.inl rfl)
    split at h
    · cases h
    next leader hleader =>
    dsimp only at h
    split at h
    · cases h
    · exact Except.ok.inj h ▸ .referred hl hreads (.inr ⟨leader, hleader, rfl⟩)
  split at h
  · exact Except.ok.inj h ▸ reaction_silent env locals s _
  split at h
  · next hword => exact .responded ⟨word, hscan, hword⟩ h
  split at h
  · next hword => exact Except.ok.inj h ▸ .stopped hl ⟨word, hscan, hword⟩
  split at h
  · next hword => exact Except.ok.inj h ▸ .followed hl ⟨word, hscan, hword⟩
  · cases h

/-- A non-leader sends to the leader, and starts an election on a timeout. -/
theorem reaction_of_enquiry {event : Event} {dst : RmpAddress} {message : Bytes}
    (hl : s.isLeader = false) (hasks : event.AsksLeader)
    (hdst : getLeaderAddr env locals s = .ok dst) (hmessage : Enquiry message)
    (h : (if (s.rmpSendTo env dst message).1 = rmpETimeout then
        startElection env (s.rmpSendTo env dst message).2
      else if (s.rmpSendTo env dst message).1 < 0 then .error .exit
      else .ok (s.rmpSendTo env dst message).2) = .ok s') :
    Reaction env locals s event s' := by
  split at h
  · next htimeout => exact .suspected hl hasks hdst hmessage htimeout h
  split at h
  · cases h
  · exact Except.ok.inj h ▸ .asked hl hmessage

theorem reaction_of_recvStdin {line buf : Bytes} (h : recvStdin env locals s buf = .ok s') :
    Reaction env locals s (.stdin line) s' := by
  unfold recvStdin at h
  dsimp only at h
  split at h
  · next hl =>
    obtain ⟨⟨clock, s₁⟩, hclock, h⟩ := Fault.bind_eq_ok.1 h
    obtain ⟨hne, rfl, rfl⟩ := incrClock_ok hclock
    obtain ⟨s₂, hbroadcast, hend⟩ := Fault.bind_eq_ok.1 h
    exact Except.ok.inj hend ▸ .numbered hl rfl hne hbroadcast
  · next hl =>
    obtain ⟨dst, hdst, h⟩ := Fault.bind_eq_ok.1 h
    exact reaction_of_enquiry (eq_false_of_ne_true hl) (.inr ⟨line, rfl⟩) hdst (.inr ⟨_, _, rfl⟩) h

theorem reaction_of_sendHeartbeat (hidle : s.inElection = false)
    (h : sendHeartbeat env locals s = .ok s') : Reaction env locals s .heartbeat s' := by
  unfold sendHeartbeat at h
  split at h
  · next hl => exact .beaten hl hidle h
  · next hl =>
    obtain ⟨dst, hdst, h⟩ := Fault.bind_eq_ok.1 h
    exact reaction_of_enquiry (eq_false_of_ne_true hl) (.inl rfl) hdst (.inl rfl) h

/-- **The list of reactions is complete.** -/
theorem reaction_of_chatStep {event : Event}
    (h : chatStep env locals s event = some (.ok s')) : Reaction env locals s event s' := by
  cases event with
  | stdin buf =>
    simp only [chatStep] at h
    split at h
    · have h := Option.some.inj h
      split at h
      · exact reaction_of_recvStdin h
      · exact Except.ok.inj h ▸ reaction_silent env locals s _
    · cases h
  | receive buf src =>
    cases hl : s.isLeader with
    | true =>
      rw [chatStep_receive_leader hl] at h
      exact reaction_of_leaderReceive hl (Option.some.inj h)
    | false =>
      rw [chatStep_receive_nonLeader hl] at h
      exact reaction_of_nonLeaderReceive hl (Option.some.inj h)
  | heartbeat =>
    simp only [chatStep] at h
    split at h
    · cases h
    · next hidle => exact reaction_of_sendHeartbeat (eq_false_of_ne_true hidle) (Option.some.inj h)
  | victory =>
    simp only [chatStep] at h
    split at h
    · next hguard =>
      exact .declared hguard.1 hguard.2.1 hguard.2.2 (Option.some.inj h)
    · cases h
  | restart =>
    simp only [chatStep] at h
    split at h
    · next hguard => exact .restarted hguard.1 hguard.2.1 (Option.some.inj h)
    · cases h

end Inversion

end Dchat.Chat
