import Dchat.Chat.Session

/-!
# The texts of what a node sends

`Dispatched` and `Numbered` say under which command a message is sent. `Speech` says what else is in
it: whose nickname, which number, which part of which list.

* `Broadcast.short`: what a broadcast adds to its message fits the buffer of an update.
* `speech_of_chatStep`: everything that a node in `chat` sends is a `Speech`.
-/

namespace Dchat.Chat

open CString Stdio RMP

/-- The messages that consist of a command, except for the refusal of a nickname. -/
def bareCommands : List Bytes :=
  [messageJoinFailure, messageStartElection, messageStopElection, messageElectionVictory,
    messageHeartbeat]

/-- **What a node in `chat` sends** as it reacts to an event in the state `s`. -/
inductive Speech (locals : Locals) (s : Node) (event : Event) : Bytes → Prop
  /-- A command alone. -/
  | bare {message : Bytes} (hmessage : message ∈ bareCommands) : Speech locals s event message
  /-- The leader refuses a nickname. -/
  | refusal {buf rest : Bytes} {src : RmpAddress} (hevent : event = .receive buf src)
    (hl : s.isLeader = true) (hreads : Reads locals buf messageAddMe rest)
    (hold : s.containsParticipant rest = true) : Speech locals s event messageJoinNicknameFailure
  /-- A non-leader names the leader. -/
  | referral {leader : Peer} (hleader : s.leader = some leader) :
    Speech locals s event (snprintf (10 + maxIpAddressLen + 1 + maxPortNumLen + 1)
      (messageLeaderId ++ str " " ++ leader.ipAddress ++ str ":" ++ leader.portNum))
  /-- A non-leader passes on a line. -/
  | request {buf : Bytes} (payload : Bytes) (hevent : event = .stdin buf) (hlen : 1 < buf.length)
    (hcompany : s.numParticipants ≠ 1) (hl : s.isLeader = false) :
    Speech locals s event (snprintf maxBufferLen (requestText s.thisNickname payload))
  /-- The leader broadcasts a line of its own. -/
  | broadcast (payload : Bytes) :
    Speech locals s event (snprintf 1024 (broadcastText s.clockNum s.thisNickname payload))
  /-- The leader broadcasts a line on request. -/
  | relay {buf rest nickname payload : Bytes} {src : RmpAddress} (hevent : event = .receive buf src)
    (hl : s.isLeader = true) (hreads : Reads locals buf messageRequest rest)
    (hscan : scanRequest locals rest = .ok (nickname, payload)) :
    Speech locals s event (snprintf 1024 (broadcastText s.clockNum nickname payload))
  /-- The leader announces its list or a part of it. -/
  | update {base : Node} {leader : Peer} {ps : List Participant} {notice : Bytes}
    (hbase : Announcer locals s event base) (hleader : base.leader = some leader)
    (hps : ps.Sublist base.participants) (hlen : (updateText leader ps notice).length < maxBufferLen) :
    Speech locals s event (updateText leader ps notice)

section Broadcasts

variable {env : Env} {locals : Locals} {s s' base : Node} {event : Event} {message : Bytes}

/-- An update that was generated fits its buffer. -/
theorem length_of_generate {buffLen : ℕ} {notice update : Bytes}
    (h : generateParticipantUpdate s buffLen notice = .ok update) (hb : 0 < buffLen) :
    update.length < buffLen := by
  obtain ⟨leader, hleader, rfl⟩ := leader_of_generate h hb
  rw [generateParticipantUpdate_eq hleader hb] at h
  split at h
  · next hlen => exact hlen
  · cases h

/-- What a broadcast sends beside its message fits the buffer of an update. -/
theorem Broadcast.short {t : List Attempt} (h : Broadcast env base message t s') :
    ∀ a ∈ t, a.sent.message = message ∨ a.sent.message.length < maxBufferLen := by
  induction h with
  | done hpass _ => exact fun a ha => .inl (hpass.addressed a ha).1
  | @again s s₁ s₂ message leave update t t' hpass _ hgen _ ih =>
    intro a ha
    obtain ha | ha := List.mem_append.1 ha
    · exact .inl (hpass.addressed a ha).1
    · have hlen : update.length < maxBufferLen := length_of_generate hgen (by decide)
      obtain heq | hshort := ih a ha
      · exact .inr (heq ▸ hlen)
      · exact .inr hshort

/-- A broadcast of anything that may be said, with the list that a node announces or a
part of it. -/
theorem Announcer.speech {base₁ : Node} (hbase : Announcer locals s event base)
    (h : leaderBroadcastMessage env base₁ message = .ok s') (hleader : base₁.leader = base.leader)
    (hsub : base₁.participants.Sublist base.participants)
    (hmessage : Speech locals s event message) :
    ∃ log, s'.sent = base₁.sent ++ log ∧ ∀ e ∈ log, Speech locals s event e.message := by
  obtain ⟨t, ht⟩ := broadcast_of_ok h
  have hshort := ht.short
  refine ⟨t.map Attempt.sent, ht.sent, fun e he => ?_⟩
  obtain ⟨a, ha, rfl⟩ := List.mem_map.1 he
  obtain ⟨first, updates, rfl, -, hfirst, hnotice⟩ := ht.split
  obtain heq | hlen := hshort a ha
  · exact heq ▸ hmessage
  obtain ha | ha := List.mem_append.1 ha
  · exact hfirst a ha ▸ hmessage
  · obtain ⟨leader, ps, notice, hl, heq, hps, -⟩ := hnotice a ha
    rw [heq] at hlen ⊢
    exact .update hbase (hleader ▸ hl) (hps.trans hsub) hlen

/-- A broadcast of the list. -/
theorem Announcer.speech_update {base₁ : Node} {notice update : Bytes}
    (hbase : Announcer locals s event base)
    (hgen : generateParticipantUpdate base₁ maxBufferLen notice = .ok update)
    (h : leaderBroadcastMessage env base₁ update = .ok s') (hleader : base₁.leader = base.leader)
    (hsub : base₁.participants.Sublist base.participants) :
    ∃ log, s'.sent = base₁.sent ++ log ∧ ∀ e ∈ log, Speech locals s event e.message := by
  have hlen := length_of_generate hgen (by decide)
  obtain ⟨leader, hl, rfl⟩ := leader_of_generate hgen (by decide)
  exact hbase.speech h hleader hsub (.update hbase (hleader ▸ hl) hsub hlen)

/-- A MESSAGE_BROADCAST, before which the leader increases its counter. -/
theorem speech_of_numbered (hl : s.isLeader = true)
    (h : leaderBroadcastMessage env { s with clockNum := s.clockNum + 1 } message = .ok s')
    (hmessage : Speech locals s event message) (line : Bytes) :
    ∃ log, (s'.print line).sent = s.sent ++ log ∧ ∀ e ∈ log, Speech locals s event e.message := by
  have hbase : Announcer locals s event s := .leader hl
  have hspeech := hbase.speech h rfl (List.Sublist.refl _) hmessage
  exact hspeech

/-- An election is started. -/
theorem speech_of_startElection (h : startElection env s = .ok s') (t : Node) :
    ∃ log, s'.sent = s.sent ++ log ∧ ∀ e ∈ log, Speech locals t event e.message := by
  obtain ⟨log, rfl, hlog⟩ := startElection_ok h
  refine ⟨log, rfl, fun e he => ?_⟩
  rw [(hlog.entries e he).1]
  exact .bare (by decide)

end Broadcasts

section Events

variable {env : Env} {locals : Locals} {s s' : Node} {event : Event}

/-- One message, and what is sent after it. -/
theorem speech_after {dst : RmpAddress} {message : Bytes} (hmessage : Speech locals s event message)
    (h : ∃ log, s'.sent = (s.rmpSendTo env dst message).2.sent ++ log ∧
      ∀ e ∈ log, Speech locals s event e.message) :
    ∃ log, s'.sent = s.sent ++ log ∧ ∀ e ∈ log, Speech locals s event e.message := by
  obtain ⟨log, hsent, hlog⟩ := h
  refine ⟨⟨dst, message, env.sendTo s.sent.length dst message⟩ :: log, ?_, fun e he => ?_⟩
  · rw [hsent]
    simp [Node.rmpSendTo]
  · obtain rfl | he := List.mem_cons.1 he
    · exact hmessage
    · exact hlog e he

/-- Nothing is sent. -/
theorem speech_none (h : s'.sent = s.sent) (t : Node) :
    ∃ log, s'.sent = s.sent ++ log ∧ ∀ e ∈ log, Speech locals t event e.message :=
  ⟨[], by rw [h, List.append_nil], by simp⟩

/-- A single message. -/
theorem speech_one {dst : RmpAddress} {message : Bytes} (hmessage : Speech locals s event message) :
    ∃ log, (s.rmpSendTo env dst message).2.sent = s.sent ++ log ∧
      ∀ e ∈ log, Speech locals s event e.message :=
  speech_after hmessage (speech_none rfl s)

/-- The answer to a START_ELECTION. -/
theorem speech_of_respond {src : RmpAddress} (h : respondToLeaderElection env locals s src = .ok s') :
    ∃ log, s'.sent = s.sent ++ log ∧ ∀ e ∈ log, Speech locals s event e.message := by
  obtain ⟨nickname, -, ⟨-, h⟩ | ⟨-, rfl⟩⟩ := respondToLeaderElection_eq_ok h
  · exact speech_after (.bare (by decide)) (speech_of_startElection h s)
  · exact speech_none rfl s

theorem speech_of_leaderReceive {buf : Bytes} {src : RmpAddress} (hl : s.isLeader = true)
    (h : leaderReceiveMessage env locals s buf src = .ok s') :
    ∃ log, s'.sent = s.sent ++ log ∧
      ∀ e ∈ log, Speech locals s (.receive buf src) e.message := by
  obtain ⟨⟨word, rest⟩, hscan, h⟩ := Fault.bind_eq_ok.1 h
  dsimp only at h
  split at h
  · next hword =>
    have hreads : Reads locals buf messageAddMe rest := ⟨word, hscan, hword⟩
    obtain ⟨hold, rfl⟩ | ⟨hnew, s₁, update, s₂, hinsert, hgen, hbroadcast, rfl⟩ :=
      leaderReceiveAddMe_eq_ok h
    · exact speech_one (.refusal rfl hl hreads hold)
    · have hbase : Announcer locals s (.receive buf src) s₁ := .host hl hreads hnew hinsert
      have hspeech := hbase.speech_update hgen hbroadcast rfl (List.Sublist.refl _)
      rw [(insertParticipant_role hinsert).sent] at hspeech
      exact hspeech
  split at h
  · next hword =>
    obtain ⟨⟨nickname, payload⟩, hrequest, h⟩ := Fault.bind_eq_ok.1 h
    obtain ⟨⟨clock, s₁⟩, hclock, h⟩ := Fault.bind_eq_ok.1 h
    obtain ⟨-, rfl, rfl⟩ := incrClock_ok hclock
    obtain ⟨s₂, hbroadcast, hend⟩ := Fault.bind_eq_ok.1 h
    obtain rfl := Except.ok.inj hend
    have hreads : Reads locals buf messageRequest rest := ⟨word, hscan, hword⟩
    exact speech_of_numbered hl hbroadcast (.relay rfl hl hreads hrequest) _
  split at h
  · obtain rfl := Except.ok.inj h
    exact speech_none rfl s
  split at h
  · exact speech_of_respond h
  · obtain rfl := Except.ok.inj h
    exact speech_none rfl s

theorem speech_of_nonLeaderReceive {buf : Bytes} {src : RmpAddress}
    (h : nonLeaderReceiveMessage env locals s buf src = .ok s') :
    ∃ log, s'.sent = s.sent ++ log ∧ ∀ e ∈ log, Speech locals s (.receive buf src) e.message := by
  obtain ⟨⟨word, rest⟩, -, h⟩ := Fault.bind_eq_ok.1 h
  dsimp only at h
  split at h
  · obtain ⟨⟨id, nickname, payload⟩, -, h⟩ := Fault.bind_eq_ok.1 h
    obtain rfl := Except.ok.inj h
    exact speech_none rfl s
  split at h
  · exact speech_none (processParticipantUpdate_role h).sent s
  split at h
  · unfold nonLeaderReceiveAddMe at h
    split at h
    · obtain rfl := Except.ok.inj h
      exact speech_one (.bare (by decide))
    split at h
    · cases h
    next leader hleader =>
    dsimp only at h
    split at h
    · cases h
    · obtain rfl := Except.ok.inj h
      exact speech_one (.referral hleader)
  split at h
  · obtain rfl := Except.ok.inj h
    exact speech_none rfl s
  split at h
  · exact speech_of_respond h
  split at h
  · obtain rfl := Except.ok.inj h
    exact speech_none rfl s
  split at h
  · obtain rfl := Except.ok.inj h
    exact speech_none rfl s
  · cases h

/-- A non-leader sends to the leader, and starts an election on a timeout. -/
theorem speech_of_enquiry {dst : RmpAddress} {message : Bytes}
    (hmessage : Speech locals s event message)
    (h : (if (s.rmpSendTo env dst message).1 = rmpETimeout then
        startElection env (s.rmpSendTo env dst message).2
      else if (s.rmpSendTo env dst message).1 < 0 then .error .exit
      else .ok (s.rmpSendTo env dst message).2) = .ok s') :
    ∃ log, s'.sent = s.sent ++ log ∧ ∀ e ∈ log, Speech locals s event e.message := by
  split at h
  · exact speech_after hmessage (speech_of_startElection h s)
  split at h
  · cases h
  · obtain rfl := Except.ok.inj h
    exact speech_one hmessage

theorem speech_of_recvStdin {buf line : Bytes} (hlen : 1 < buf.length)
    (hcompany : s.numParticipants ≠ 1) (h : recvStdin env locals s line = .ok s') :
    ∃ log, s'.sent = s.sent ++ log ∧ ∀ e ∈ log, Speech locals s (.stdin buf) e.message := by
  unfold recvStdin at h
  dsimp only at h
  split at h
  · next hl =>
    obtain ⟨⟨clock, s₁⟩, hclock, h⟩ := Fault.bind_eq_ok.1 h
    obtain ⟨-, rfl, rfl⟩ := incrClock_ok hclock
    obtain ⟨s₂, hbroadcast, hend⟩ := Fault.bind_eq_ok.1 h
    obtain rfl := Except.ok.inj hend
    exact speech_of_numbered hl hbroadcast (.broadcast _) _
  · next hl =>
    obtain ⟨dst, -, h⟩ := Fault.bind_eq_ok.1 h
    exact speech_of_enquiry (.request _ rfl hlen hcompany (eq_false_of_ne_true hl)) h

theorem speech_of_sendHeartbeat (h : sendHeartbeat env locals s = .ok s') :
    ∃ log, s'.sent = s.sent ++ log ∧ ∀ e ∈ log, Speech locals s .heartbeat e.message := by
  unfold sendHeartbeat at h
  split at h
  · next hl =>
    have hbase : Announcer locals s .heartbeat s := .leader hl
    exact hbase.speech h rfl (List.Sublist.refl _) (.bare (by decide))
  · obtain ⟨dst, -, h⟩ := Fault.bind_eq_ok.1 h
    exact speech_of_enquiry (.bare (by decide)) h

theorem speech_of_declareVictory (hl : s.isLeader = false) (hin : s.inElection = true)
    (h : declareVictory env s = .ok s') :
    ∃ log, s'.sent = s.sent ++ log ∧ ∀ e ∈ log, Speech locals s .victory e.message := by
  obtain ⟨s₁, s₂, notice, update, lines, hvictory, hgen, hupdate, rfl⟩ := declareVictory_broadcasts h
  have hbase : Announcer locals s .victory s.victorious := .winner hl hin
  obtain ⟨t, ht⟩ := broadcast_of_ok hvictory
  obtain ⟨log, hsent, hlog⟩ :=
    hbase.speech hvictory rfl (List.Sublist.refl _) (.bare (by decide))
  obtain ⟨log', hsent', hlog'⟩ := hbase.speech_update hgen hupdate ht.same.leader ht.sublist
  refine ⟨log ++ log', ?_, fun e he => ?_⟩
  · exact hsent'.trans (by rw [hsent, List.append_assoc]; rfl)
  · exact (List.mem_append.1 he).elim (hlog e) (hlog' e)

/-- **Everything that a node in `chat` sends.** -/
theorem speech_of_chatStep (h : chatStep env locals s event = some (.ok s')) :
    ∃ log, s'.sent = s.sent ++ log ∧ ∀ e ∈ log, Speech locals s event e.message := by
  cases event with
  | stdin buf =>
    simp only [chatStep] at h
    split at h
    · next hlen =>
      have h := Option.some.inj h
      split at h
      · next hcompany => exact speech_of_recvStdin hlen hcompany h
      · obtain rfl := Except.ok.inj h
        exact speech_none rfl s
    · cases h
  | receive buf src =>
    cases hl : s.isLeader with
    | true =>
      rw [chatStep_receive_leader hl] at h
      exact speech_of_leaderReceive hl (Option.some.inj h)
    | false =>
      rw [chatStep_receive_nonLeader hl] at h
      exact speech_of_nonLeaderReceive (Option.some.inj h)
  | heartbeat =>
    simp only [chatStep] at h
    split at h
    · cases h
    · exact speech_of_sendHeartbeat (Option.some.inj h)
  | victory =>
    simp only [chatStep] at h
    split at h
    · next hguard => exact speech_of_declareVictory hguard.1 hguard.2.1 (Option.some.inj h)
    · cases h
  | restart =>
    simp only [chatStep] at h
    split at h
    · exact speech_of_startElection (Option.some.inj h) s
    · cases h

end Events

end Dchat.Chat
