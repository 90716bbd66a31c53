import Dchat.Chat.Trap

/-!
# What a round sends

Every message of a node begins with one of the `commands`, so that its receiver reads this command
and no other. `Dispatched` lists what a node sends in a round beside MESSAGE_BROADCASTs, with the
conditions under which it does, `Numbered` what it sends of those, and
`Reaction.dispatched` says that this is all.
-/

namespace Dchat.Chat

open CString Stdio RMP

/-! ## Commands -/

/-- The commands of `dchat.h`. -/
def commands : List Bytes :=
  [messageAddMe, messageParticipantUpdate, messageJoinFailure, messageJoinNicknameFailure,
    messageLeaderId, messageBroadcast, messageRequest, messageStartElection, messageStopElection,
    messageElectionVictory, messageHeartbeat]

/-- The message begins with a command, and white space or nothing follows. -/
def Carries (message command : Bytes) : Prop :=
  ∃ rest, message = command ++ rest ∧ Stops (fun c => !isSpace c) rest

theorem carries_self (command : Bytes) : Carries command command :=
  ⟨[], (List.append_nil _).symm, stops_nil _⟩

theorem carries_blank (command rest : Bytes) : Carries (command ++ 32 :: rest) command :=
  ⟨32 :: rest, rfl, (stops_cons ..).2 (by decide)⟩

/-- A command and a blank at the start of a text are in the part that fits. -/
theorem carries_snprintf {size : ℕ} {command text rest : Bytes} (h : text = command ++ 32 :: rest)
    (hlen : command.length + 1 < size) : Carries (snprintf size text) command := by
  have hsplit : text = (command ++ [32]) ++ rest := by rw [h, List.append_assoc]; rfl
  have hfit : (command ++ [32]).length < size := by rw [List.length_append]; exact hlen
  rw [hsplit, snprintf_append _ hfit, List.append_assoc]
  exact carries_blank command _

theorem carries_updateText (leader : Peer) (ps : List Participant) (notice : Bytes) :
    Carries (updateText leader ps notice) messageParticipantUpdate := by
  have hword : str "PARTICIPANT_UPDATE " = messageParticipantUpdate ++ [32] := by decide
  rw [updateText_eq, hword, List.append_assoc]
  exact carries_blank messageParticipantUpdate _

theorem carries_addMeCmd (nickname : Bytes) : Carries (addMeCmd nickname) messageAddMe := by
  have htext : messageAddMe ++ str " " ++ nickname = messageAddMe ++ 32 :: nickname := by simp [str]
  exact carries_snprintf htext (by decide)

theorem carries_broadcastText (id : ℤ) (nickname payload : Bytes) :
    Carries (snprintf 1024 (broadcastText id nickname payload)) messageBroadcast := by
  have htext : broadcastText id nickname payload =
      messageBroadcast ++ 32 :: (decimalInt id ++ str " " ++ nickname ++ str "= " ++ payload) := by
    simp [broadcastText, str]
  exact carries_snprintf htext (by decide)

theorem carries_requestText (nickname payload : Bytes) :
    Carries (snprintf maxBufferLen (requestText nickname payload)) messageRequest := by
  have htext : requestText nickname payload =
      messageRequest ++ 32 :: (nickname ++ str "= " ++ payload) := by simp [requestText, str]
  exact carries_snprintf htext (by decide)

section Words

variable {locals : Locals} {message word command rest : Bytes}

theorem commands_spec (h : word ∈ commands) :
    word ≠ [] ∧ (word.all fun c => !isSpace c) = true ∧ 0 ∉ word := by
  have hall : ∀ w ∈ commands, w ≠ [] ∧ (w.all fun c => !isSpace c) = true ∧ w.contains 0 = false := by
    decide
  obtain ⟨hne, hspace, h0⟩ := hall word h
  exact ⟨hne, hspace, fun hmem => absurd (List.contains_iff_mem.2 hmem) (by rw [h0]; decide)⟩

/-- A message carries one command. -/
theorem Carries.unique {word' : Bytes} (h : Carries message word) (h' : Carries message word')
    (hword : word ∈ commands) (hword' : word' ∈ commands) : word = word' := by
  have htake : ∀ w ∈ commands, Carries message w → message.takeWhile (fun c => !isSpace c) = w := by
    rintro w hw ⟨rest, rfl, hstop⟩
    exact takeWhile_append_of_stops (List.all_eq_true.1 (commands_spec hw).2.1) hstop
  rw [← htake word hword h, htake word' hword' h']

/-- The `%s` at the start of a format reads the command of a message. -/
theorem text_of_carries {ds : List Directive} {r : Scan} (hword : word ∈ commands)
    (hc : Carries message word) (h : sscanf (.str 20 :: ds) message = .ok r) : r.text 0 [] = word := by
  obtain ⟨rest, rfl, hstop⟩ := hc
  obtain ⟨hne, hspace, -⟩ := commands_spec hword
  by_cases hlen : word.length < 20
  · rw [sscanf_str hne hspace hlen hstop] at h
    cases hrest : sscanf ds rest with
    | error e => rw [hrest] at h; cases h
    | ok r' =>
      rw [hrest] at h
      obtain rfl := Except.ok.inj h
      rfl
  · -- the array has no room for the command
    have hword' : ∀ c ∈ word, (!isSpace c) = true := List.all_eq_true.1 hspace
    rw [sscanf_cons_str] at h
    simp only [dropWhile_word hne hspace, takeWhile_append_of_stops hword' hstop] at h
    rw [if_neg hne, if_pos (Nat.not_lt.1 hlen)] at h
    cases h

/-- **A message is read under its command.** -/
theorem Reads.command_eq (h : Reads locals message command rest) (hcommand : command ∈ commands)
    (hword : word ∈ commands) (hc : Carries message word) : command = word := by
  obtain ⟨read, hscan, hcmp⟩ := h
  obtain ⟨r, hr, hscan⟩ := Fault.bind_eq_ok.1 hscan
  split at hscan
  · cases hscan
  obtain ⟨rfl, -⟩ := Prod.mk.inj (Except.ok.inj hscan)
  rw [text_of_carries hword hc hr] at hcmp
  exact (strcmp_eq_zero (commands_spec hcommand).2.2 (commands_spec hword).2.2).1 hcmp

theorem JoinReads.command_eq (h : JoinReads message command) (hcommand : command ∈ commands)
    (hword : word ∈ commands) (hc : Carries message word) : command = word := by
  obtain ⟨r, hr, hcmp⟩ := h
  rw [text_of_carries hword hc hr] at hcmp
  exact (strcmp_eq_zero (commands_spec hcommand).2.2 (commands_spec hword).2.2).1 hcmp

end Words

/-! ## What a round can send -/

/-- An event on which a node starts an election: the leader does not answer, a timer, or the
START_ELECTION of a participant of lower rank. -/
inductive Starts (env : Env) (locals : Locals) (s : Node) : Event → Prop
  | suspects {event : Event} {dst : RmpAddress} {message : Bytes} (hl : s.isLeader = false)
    (hasks : event.AsksLeader) (hdst : getLeaderAddr env locals s = .ok dst)
    (hmessage : Enquiry message) (htimeout : env.sendTo s.sent.length dst message = rmpETimeout) :
    Starts env locals s event
  | restarts (hl : s.isLeader = false) (hin : s.inElection = true) : Starts env locals s .restart
  | outranks {buf rest nickname : Bytes} {src : RmpAddress}
    (hreads : Reads locals buf messageStartElection rest)
    (hfind : findSender env src locals.address s.participants = some nickname)
    (hrank : 0 < strcmp s.thisNickname nickname) : Starts env locals s (.receive buf src)

/-- The node whose list a node announces as the leader: its own state, that after the insertion of
a participant, or that in which it declares victory. -/
inductive Announcer (locals : Locals) (s : Node) : Event → Node → Prop
  | leader {event : Event} (hl : s.isLeader = true) : Announcer locals s event s
  | host {buf rest : Bytes} {src : RmpAddress} {s₁ : Node} (hl : s.isLeader = true)
    (hreads : Reads locals buf messageAddMe rest) (hnew : s.containsParticipant rest = false)
    (hinsert : s.insertParticipant rest (inetNtoa src) (portText src) false = .ok s₁) :
    Announcer locals s (.receive buf src) s₁
  | winner (hl : s.isLeader = false) (hin : s.inElection = true) :
    Announcer locals s .victory s.victorious

/-- A PARTICIPANT_UPDATE about a part of the list of `base`, for one of the participants in it. -/
def Notice (base : Node) (message : Bytes) (recipient : Participant) : Prop :=
  ∃ leader ps notice, base.leader = some leader ∧ message = updateText leader ps notice ∧
    ps.Sublist base.participants ∧ recipient ∈ others ps

/-- **What a node sends** beside MESSAGE_BROADCASTs as it goes from `s` to `s'`: START_ELECTIONs to
its list, which it keeps, PARTICIPANT_UPDATEs, and messages that carry other commands. -/
inductive Dispatched (env : Env) (locals : Locals) (s : Node) (event : Event) (s' : Node) (e : Sent) :
    Prop
  | start {p : Participant} (hstarts : Starts env locals s event)
    (hkept : s'.participants = s.participants)
    (hmessage : e.message = messageStartElection) (hp : p ∈ s.participants)
    (hother : strcmp s.thisNickname p.nickname ≠ 0)
    (haddr : env.getAddressFor p.ipAddress p.portNum = some e.dst)
  | update {base : Node} {p : Participant} (hbase : Announcer locals s event base)
    (hnotice : Notice base e.message p)
    (haddr : env.getAddressFor p.ipAddress p.portNum = some e.dst)
  | other {word : Bytes} (hword : word ∈ commands) (hcarries : Carries e.message word)
    (hother : word ≠ messageAddMe ∧ word ≠ messageParticipantUpdate ∧ word ≠ messageBroadcast ∧
      word ≠ messageStartElection)

/-- **The MESSAGE_BROADCASTs of a node**: none, or one to each of the others, with the number
before it is increased. -/
def Numbered (env : Env) (s s' : Node) (numbers : List Sent) : Prop :=
  numbers = [] ∨ s.isLeader = true ∧ s.clockNum ≠ 2147483647 ∧ s'.clockNum = s.clockNum + 1 ∧
    ∃ nickname payload, List.Forall₂ (fun p e =>
      env.getAddressFor p.ipAddress p.portNum = some e.dst ∧
        e.message = snprintf 1024 (broadcastText s.clockNum nickname payload))
      (others s.participants) numbers

/-- Such a message carries its command. -/
theorem Numbered.carries {env : Env} {s s' : Node} {numbers : List Sent}
    (h : Numbered env s s' numbers) {e : Sent} (he : e ∈ numbers) :
    Carries e.message messageBroadcast := by
  obtain rfl | ⟨-, -, -, nickname, payload, hall⟩ := h
  · cases he
  obtain ⟨i, hi, rfl⟩ := List.getElem_of_mem he
  obtain ⟨hlen, hget⟩ := List.forall₂_iff_get.1 hall
  obtain ⟨-, hmessage⟩ := hget i (hlen ▸ hi) hi
  exact hmessage ▸ carries_broadcastText s.clockNum nickname payload

/-- The command of any other message. -/
theorem Dispatched.carries {env : Env} {locals : Locals} {s s' : Node} {event : Event} {e : Sent}
    (h : Dispatched env locals s event s' e) : ∃ word ∈ commands, Carries e.message word ∧
      word ≠ messageAddMe ∧ word ≠ messageBroadcast ∧
      (word = messageStartElection → e.message = messageStartElection) := by
  cases h with
  | start _ _ hmessage _ _ _ =>
    exact ⟨messageStartElection, by decide, hmessage ▸ carries_self _, by decide, by decide,
      fun _ => hmessage⟩
  | update _ hnotice _ =>
    obtain ⟨leader, ps, notice, -, hmessage, -⟩ := hnotice
    exact ⟨messageParticipantUpdate, by decide, hmessage ▸ carries_updateText leader ps notice,
      by decide, by decide, fun h => absurd h (by decide)⟩
  | other hword hcarries hother =>
    exact ⟨_, hword, hcarries, hother.1, hother.2.2.1, fun h => absurd h hother.2.2.2⟩

section Sends

variable {env : Env} {locals : Locals} {s s' t base : Node} {event : Event} {message : Bytes}

theorem leader_of_generate {buffLen : ℕ} {notice update : Bytes}
    (h : generateParticipantUpdate s buffLen notice = .ok update) (hb : 0 < buffLen) :
    ∃ leader, s.leader = some leader ∧ update = updateText leader s.participants notice := by
  cases hleader : s.leader with
  | none =>
    rw [generateParticipantUpdate, hleader] at h
    cases h
  | some leader => exact ⟨leader, rfl, eq_updateText hleader hb h⟩

theorem Notice.mono {base₁ : Node} {p : Participant} (h : Notice base₁ message p)
    (hleader : base₁.leader = base.leader) (hsub : base₁.participants.Sublist base.participants) :
    Notice base message p := by
  obtain ⟨leader, ps, notice, hl, hmessage, hps, hp⟩ := h
  exact ⟨leader, ps, notice, hleader ▸ hl, hmessage, hps.trans hsub, hp⟩

/-- **A broadcast** is the message to each of the others, and then PARTICIPANT_UPDATEs. -/
theorem Broadcast.split {t : List Attempt} (h : Broadcast env base message t s') :
    ∃ first updates, t = first ++ updates ∧
      first.map Attempt.recipient = others base.participants ∧
      (∀ a ∈ first, a.sent.message = message) ∧
      ∀ a ∈ updates, Notice base a.sent.message a.recipient := by
  induction h with
  | @done s s' message t hpass _ =>
    exact ⟨t, [], (List.append_nil t).symm, hpass.recipients,
      fun a ha => (hpass.addressed a ha).1, by simp⟩
  | @again s s₁ s₂ message leave update t t' hpass _ hgen _ ih =>
    obtain ⟨first, updates, rfl, hrec, hmessage, hnotice⟩ := ih
    obtain ⟨leader, hleader, rfl⟩ := leader_of_generate hgen (by decide)
    have hsame : s₁.leader = s.leader := hpass.same.leader
    refine ⟨t, first ++ updates, rfl, hpass.recipients, fun a ha => (hpass.addressed a ha).1, ?_⟩
    intro a ha
    obtain ha | ha := List.mem_append.1 ha
    · have hrecipient : a.recipient ∈ others s₁.participants := by
        rw [← hrec]
        exact List.mem_map_of_mem ha
      exact ⟨leader, s₁.participants, leave, hsame ▸ hleader, hmessage a ha, hpass.sublist,
        hrecipient⟩
    · exact (hnotice a ha).mono hsame hpass.sublist

/-- A broadcast of anything that may be sent, with the list that a node announces or a
part of it. -/
theorem Announcer.broadcast {base₁ : Node} (hbase : Announcer locals s event base)
    (hleader : base₁.leader = base.leader) (hsub : base₁.participants.Sublist base.participants)
    (hfirst : ∀ p e, p ∈ others base₁.participants → e.message = message →
      env.getAddressFor p.ipAddress p.portNum = some e.dst → Dispatched env locals s event t e)
    (h : leaderBroadcastMessage env base₁ message = .ok s') :
    ∃ log, s'.sent = base₁.sent ++ log ∧ ∀ e ∈ log, Dispatched env locals s event t e := by
  obtain ⟨as, has⟩ := broadcast_of_ok h
  have haddr := has.addressed
  refine ⟨as.map Attempt.sent, has.sent, fun e he => ?_⟩
  obtain ⟨a, ha, rfl⟩ := List.mem_map.1 he
  obtain ⟨first, updates, rfl, -, hmessage, hnotice⟩ := has.split
  obtain ⟨hrec, hdst⟩ := haddr a ha
  obtain ha | ha := List.mem_append.1 ha
  · exact hfirst a.recipient a.sent hrec (hmessage a ha) hdst
  · exact .update hbase ((hnotice a ha).mono hleader hsub) hdst

/-- A broadcast of a command. -/
theorem Announcer.broadcast_command (hbase : Announcer locals s event base)
    (hword : message ∈ [messageHeartbeat, messageElectionVictory])
    (h : leaderBroadcastMessage env base message = .ok s') :
    ∃ log, s'.sent = base.sent ++ log ∧ ∀ e ∈ log, Dispatched env locals s event t e := by
  refine hbase.broadcast rfl (List.Sublist.refl _) (fun p e _ hmessage _ => ?_) h
  have hother : ∀ word ∈ [messageHeartbeat, messageElectionVictory], word ∈ commands ∧
      word ≠ messageAddMe ∧ word ≠ messageParticipantUpdate ∧ word ≠ messageBroadcast ∧
        word ≠ messageStartElection := by decide
  exact .other (hother message hword).1 (hmessage ▸ carries_self message) (hother message hword).2

/-- A broadcast of the list. -/
theorem Announcer.broadcast_update {base₁ : Node} {notice update : Bytes}
    (hbase : Announcer locals s event base) (hleader : base₁.leader = base.leader)
    (hsub : base₁.participants.Sublist base.participants)
    (hgen : generateParticipantUpdate base₁ maxBufferLen notice = .ok update)
    (h : leaderBroadcastMessage env base₁ update = .ok s') :
    ∃ log, s'.sent = base₁.sent ++ log ∧ ∀ e ∈ log, Dispatched env locals s event t e := by
  obtain ⟨leader, hl, rfl⟩ := leader_of_generate hgen (by decide)
  refine hbase.broadcast hleader hsub (fun p e hp hmessage haddr => ?_) h
  exact .update hbase ⟨leader, base₁.participants, notice, hleader ▸ hl, hmessage, hsub, hp⟩ haddr

/-- A MESSAGE_BROADCAST. -/
theorem numbered_of_broadcast {nickname payload : Bytes} (hl : s.isLeader = true)
    (hclock : s.clockNum ≠ 2147483647)
    (h : leaderBroadcastMessage env { s with clockNum := s.clockNum + 1 }
      (snprintf 1024 (broadcastText s.clockNum nickname payload)) = .ok s') :
    ∃ numbers log, s'.sent = s.sent ++ (numbers ++ log) ∧ Numbered env s s' numbers ∧
      ∀ e ∈ log, Dispatched env locals s event t e := by
  obtain ⟨as, has⟩ := broadcast_of_ok h
  have hsent := has.sent
  have haddr := has.addressed
  have hnum : s'.clockNum = s.clockNum + 1 := has.same.clockNum
  obtain ⟨first, updates, rfl, hrec, hmessage, hnotice⟩ := has.split
  have hrec : first.map Attempt.recipient = others s.participants := hrec
  refine ⟨first.map Attempt.sent, updates.map Attempt.sent, by rw [hsent, List.map_append],
    .inr ⟨hl, hclock, hnum, nickname, payload, ?_⟩, fun e he => ?_⟩
  · rw [← hrec, List.forall₂_map_left_iff, List.forall₂_map_right_iff, List.forall₂_same]
    exact fun a ha => ⟨(haddr a (List.mem_append_left _ ha)).2, hmessage a ha⟩
  · obtain ⟨a, ha, rfl⟩ := List.mem_map.1 he
    exact .update (.leader hl) (hnotice a ha) (haddr a (List.mem_append_right _ ha)).2

/-- An election is started. -/
theorem Starts.dispatched {s₁ : Node} (hstarts : Starts env locals s event)
    (hps : s₁.participants = s.participants) (hnick : s₁.thisNickname = s.thisNickname)
    (h : startElection env s₁ = .ok s') :
    ∃ log, s'.sent = s₁.sent ++ log ∧ ∀ e ∈ log, Dispatched env locals s event s' e := by
  obtain ⟨log, rfl, hlog⟩ := startElection_ok h
  refine ⟨log, rfl, fun e he => ?_⟩
  obtain ⟨hmessage, -, p, hp, hother, haddr⟩ := hlog.entries e he
  exact .start hstarts hps hmessage (hps ▸ hp) (hnick ▸ hother) haddr

theorem carries_referral (h : Referral s message) :
    Carries message messageJoinFailure ∨ Carries message messageLeaderId := by
  obtain rfl | ⟨leader, -, rfl⟩ := h
  · exact .inl (carries_self _)
  · have htext : messageLeaderId ++ str " " ++ leader.ipAddress ++ str ":" ++ leader.portNum =
        messageLeaderId ++ 32 :: (leader.ipAddress ++ str ":" ++ leader.portNum) := by simp [str]
    exact .inr (carries_snprintf htext (by decide))

theorem carries_enquiry (h : Enquiry message) :
    Carries message messageHeartbeat ∨ Carries message messageRequest := by
  obtain rfl | ⟨nickname, payload, rfl⟩ := h
  · exact .inl (carries_self _)
  · exact .inr (carries_requestText nickname payload)

/-- A message with one of two commands. -/
theorem dispatched_of_carries {e : Sent} {word word' : Bytes}
    (hwords : ∀ w ∈ [word, word'], w ∈ commands ∧ w ≠ messageAddMe ∧
      w ≠ messageParticipantUpdate ∧ w ≠ messageBroadcast ∧ w ≠ messageStartElection)
    (h : Carries e.message word ∨ Carries e.message word') : Dispatched env locals s event s' e := by
  obtain h | h := h
  · obtain ⟨hmem, hother⟩ := hwords word (by simp)
    exact .other hmem h hother
  · obtain ⟨hmem, hother⟩ := hwords word' (by simp)
    exact .other hmem h hother

/-- The answer to a START_ELECTION. -/
theorem dispatched_of_respond {buf rest : Bytes} {src : RmpAddress}
    (hreads : Reads locals buf messageStartElection rest)
    (h : respondToLeaderElection env locals s src = .ok s') :
    ∃ log, s'.sent = s.sent ++ log ∧
      ∀ e ∈ log, Dispatched env locals s (.receive buf src) s' e := by
  obtain ⟨nickname, hfind, ⟨hrank, h⟩ | ⟨-, rfl⟩⟩ := respondToLeaderElection_eq_ok h
  · have hstarts : Starts env locals s (.receive buf src) := .outranks hreads hfind hrank
    obtain ⟨log, hsent, hlog⟩ := hstarts.dispatched (by rfl) (by rfl) h
    refine ⟨⟨src, messageStopElection, env.sendTo s.sent.length src messageStopElection⟩ :: log,
      ?_, fun e he => ?_⟩
    · rw [hsent]
      simp [Node.rmpSendTo]
    · obtain rfl | he := List.mem_cons.1 he
      · exact .other (show messageStopElection ∈ commands by decide) (carries_self _) (by decide)
      · exact hlog e he
  · exact ⟨[], (List.append_nil _).symm, by simp⟩

/-- **What a reaction sends.** -/
theorem Reaction.dispatched (h : Reaction env locals s event s') :
    ∃ numbers log, s'.sent = s.sent ++ (numbers ++ log) ∧ Numbered env s s' numbers ∧
      ∀ e ∈ log, Dispatched env locals s event s' e := by
  have hquiet : (∃ log, s'.sent = s.sent ++ log ∧ ∀ e ∈ log, Dispatched env locals s event s' e) →
      ∃ numbers log, s'.sent = s.sent ++ (numbers ++ log) ∧ Numbered env s s' numbers ∧
        ∀ e ∈ log, Dispatched env locals s event s' e := by
    rintro ⟨log, hsent, hlog⟩
    exact ⟨[], log, hsent, .inl rfl, hlog⟩
  have hnone : s'.sent = s.sent → ∃ numbers log, s'.sent = s.sent ++ (numbers ++ log) ∧
      Numbered env s s' numbers ∧ ∀ e ∈ log, Dispatched env locals s event s' e :=
    fun hsent => hquiet ⟨[], by rw [hsent, List.append_nil], by simp⟩
  have hone : ∀ e : Sent, s'.sent = s.sent ++ [e] → Dispatched env locals s event s' e →
      ∃ numbers log, s'.sent = s.sent ++ (numbers ++ log) ∧ Numbered env s s' numbers ∧
        ∀ e ∈ log, Dispatched env locals s event s' e :=
    fun e hsent he => hquiet ⟨[e], hsent, by simpa using he⟩
  cases h with
  | silent lines => exact hnone rfl
  | numbered hl _ hclock hb =>
    obtain ⟨numbers, log, hsent, hnumbers, hlog⟩ := numbered_of_broadcast hl hclock hb
    exact ⟨numbers, log, hsent, hnumbers, hlog⟩
  | refused _ _ _ =>
    have hword : messageJoinNicknameFailure ∈ commands := by decide
    exact hone _ rfl (.other hword (carries_self _) (by decide))
  | admitted hl hreads hnew hinsert hgen hb =>
    have hbase : Announcer locals s _ _ := .host hl hreads hnew hinsert
    obtain ⟨log, hsent, hlog⟩ := hbase.broadcast_update rfl (List.Sublist.refl _) hgen hb
    rw [(insertParticipant_role hinsert).sent] at hsent
    exact hquiet ⟨log, hsent, hlog⟩
  | responded hreads hr => exact hquiet (dispatched_of_respond hreads hr)
  | heard _ _ _ => exact hnone rfl
  | updated _ _ hu => exact hnone (processParticipantUpdate_role hu).sent
  | referred _ _ hmessage =>
    exact hone _ rfl (dispatched_of_carries (by decide) (carries_referral hmessage))
  | stopped _ _ => exact hnone rfl
  | followed _ _ => exact hnone rfl
  | asked _ hmessage =>
    exact hone _ rfl (dispatched_of_carries (by decide) (carries_enquiry hmessage))
  | @suspected event dst message s' hl hasks hdst hmessage htimeout he =>
    have hstarts : Starts env locals s event := .suspects hl hasks hdst hmessage htimeout
    obtain ⟨log, hsent, hlog⟩ := hstarts.dispatched (by rfl) (by rfl) he
    refine hquiet ⟨⟨dst, message, env.sendTo s.sent.length dst message⟩ :: log, ?_, fun e he => ?_⟩
    · rw [hsent]
      simp [Node.rmpSendTo]
    · obtain rfl | he := List.mem_cons.1 he
      · exact dispatched_of_carries (by decide) (carries_enquiry hmessage)
      · exact hlog e he
  | beaten hl _ hb =>
    have hbase : Announcer locals s .heartbeat s := .leader hl
    exact hquiet (hbase.broadcast_command (by decide) hb)
  | declared hl hin _ hd =>
    obtain ⟨s₁, s₂, notice, update, lines, hvictory, hgen, hupdate, rfl⟩ :=
      declareVictory_broadcasts hd
    have hbase : Announcer locals s .victory s.victorious := .winner hl hin
    obtain ⟨t, ht⟩ := broadcast_of_ok hvictory
    obtain ⟨log, hsent, hlog⟩ := hbase.broadcast_command (by decide) hvictory
    obtain ⟨log', hsent', hlog'⟩ := hbase.broadcast_update ht.same.leader ht.sublist hgen hupdate
    refine hquiet ⟨log ++ log', ?_, fun e he => ?_⟩
    · exact hsent'.trans (by rw [hsent, List.append_assoc]; rfl)
    · exact (List.mem_append.1 he).elim (hlog e) (hlog' e)
  | restarted hl hin he =>
    have hstarts : Starts env locals s .restart := .restarts hl hin
    exact hquiet (hstarts.dispatched rfl rfl he)

end Sends

end Dchat.Chat
