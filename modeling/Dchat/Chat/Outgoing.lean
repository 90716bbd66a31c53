import Dchat.Chat.Arrivals
import Dchat.Chat.Membership

/-!
# Sessions in which nobody takes over

What the messages of a session look like by their first words (`commandOf`), and the sessions in
which no process declares victory.

* `Outgoing` is what a node sends in a round: what it publishes as the leader, one answer to
  an ADD_ME, a declaration of victory, or something else; `LeaderRound` is what a leader
  does in a round.
* `sole_of_reach`: the founder leads, all others follow, and every PARTICIPANT_UPDATE is its own.
* `consistent_of_reach`: the lists are those of members, with one leader.
-/

namespace Dchat.Chat

open CString Stdio RMP Links Runs

/-! ## First words -/

/-- The first word of a message, which is what `%s` reads. -/
def commandOf (body : Bytes) : Bytes := body.takeWhile fun c => !isSpace c

/-- The messages that a leader sends to its whole list. -/
def published (body : Bytes) : Bool :=
  [messageBroadcast, messageParticipantUpdate, messageHeartbeat].contains (commandOf body)

/-- The answers of a non-leader to an ADD_ME. -/
def answers (body : Bytes) : Bool := [messageJoinFailure, messageLeaderId].contains (commandOf body)

theorem Carries.commandOf {message word : Bytes} (h : Carries message word) (hword : word ∈ commands) :
    commandOf message = word := by
  obtain ⟨rest, rfl, hstop⟩ := h
  exact takeWhile_append_of_stops (List.all_eq_true.1 (commands_spec hword).2.1) hstop

theorem commandOf_updateText (leader : Peer) (ps : List Participant) (notice : Bytes) :
    commandOf (updateText leader ps notice) = messageParticipantUpdate :=
  (carries_updateText leader ps notice).commandOf (by decide)

section Words

variable {locals : Locals} {body command rest : Bytes}

/-- A node reads the first word of a message. -/
theorem Reads.commandOf (h : Reads locals body command rest) (hcommand : command ∈ commands)
    (hbody : ∃ word ∈ commands, Carries body word) : commandOf body = command := by
  obtain ⟨word, hword, hcarries⟩ := hbody
  rw [hcarries.commandOf hword, h.command_eq hcommand hword hcarries]

theorem JoinReads.commandOf (h : JoinReads body command) (hcommand : command ∈ commands)
    (hbody : ∃ word ∈ commands, Carries body word) : commandOf body = command := by
  obtain ⟨word, hword, hcarries⟩ := hbody
  rw [hcarries.commandOf hword, h.command_eq hcommand hword hcarries]

end Words

/-! ## What a node sends -/

/-- **A message that a node sends** in a round. -/
inductive Outgoing (locals : Locals) (s : Node) (event : Event) (s' : Node) (e : Sent) : Prop
  | published (hl : s.isLeader = true) (h : published e.message = true)
  | answer {buf rest : Bytes} (hl : s.isLeader = false) (hevent : event = .receive buf e.dst)
    (hreads : Reads locals buf messageAddMe rest) (hsent : s'.sent = [e])
    (h : Referral s e.message)
  | declared (hl : s.isLeader = false) (hevent : event = .victory)
    (h : commandOf e.message ∈ [messageElectionVictory, messageParticipantUpdate])
  | other (h : commandOf e.message ∈ [messageJoinNicknameFailure, messageStartElection,
      messageStopElection, messageHeartbeat, messageRequest])

section Sending

variable {env : Env} {locals : Locals} {s s₁ s' : Node} {event : Event} {message : Bytes}

theorem commandOf_enquiry (h : Enquiry message) :
    commandOf message = messageHeartbeat ∨ commandOf message = messageRequest := by
  obtain h | h := carries_enquiry h
  · exact .inl (h.commandOf (by decide))
  · exact .inr (h.commandOf (by decide))

theorem answers_of_referral (h : Referral s message) : answers message = true := by
  obtain h | h := carries_referral h
  · rw [answers, h.commandOf (by decide)]
    rfl
  · rw [answers, h.commandOf (by decide)]
    rfl

/-- A broadcast sends its message and PARTICIPANT_UPDATEs. -/
theorem commandOf_broadcast {words : List Bytes} (hmessage : commandOf message ∈ words)
    (hupdate : messageParticipantUpdate ∈ words)
    (h : leaderBroadcastMessage env s₁ message = .ok s') {e : Sent} (he : e ∈ s'.sent) :
    e ∈ s₁.sent ∨ commandOf e.message ∈ words := by
  obtain ⟨t, ht⟩ := broadcast_of_ok h
  obtain ⟨first, updates, rfl, -, hfirst, hupdates⟩ := ht.split
  rw [ht.sent] at he
  obtain he | he := List.mem_append.1 he
  · exact .inl he
  obtain ⟨x, hx, rfl⟩ := List.mem_map.1 he
  obtain hx | hx := List.mem_append.1 hx
  · rw [hfirst x hx]
    exact .inr hmessage
  · obtain ⟨leader, ps, notice, -, htext, -⟩ := hupdates x hx
    rw [htext, commandOf_updateText]
    exact .inr hupdate

/-- A broadcast of something published sends nothing else. -/
theorem published_of_broadcast (hmessage : published message = true)
    (h : leaderBroadcastMessage env s₁ message = .ok s') (hsent : s₁.sent = []) :
    ∀ e ∈ s'.sent, published e.message = true := by
  intro e he
  obtain hold | hword := commandOf_broadcast (List.contains_iff_mem.1 hmessage) (by decide) h he
  · rw [hsent] at hold
    cases hold
  · exact List.contains_iff_mem.2 hword

/-- The calls of such a broadcast are what the node has published. -/
theorem exists_broadcast (hmessage : published message = true)
    (h : leaderBroadcastMessage env s₁ message = .ok s') (hsent : s₁.sent = []) :
    ∃ t, Broadcast env s₁ message t s' ∧ s'.sent = t.map Attempt.sent ∧
      (s'.sent.filter fun e => published e.message) = t.map Attempt.sent := by
  obtain ⟨t, ht⟩ := broadcast_of_ok h
  have hlog : s'.sent = t.map Attempt.sent := by rw [ht.sent, hsent, List.nil_append]
  refine ⟨t, ht, hlog, ?_⟩
  rw [List.filter_eq_self.2 (published_of_broadcast hmessage h hsent), hlog]

theorem published_updateText (leader : Peer) (ps : List Participant) (notice : Bytes) :
    published (updateText leader ps notice) = true := by
  rw [published, commandOf_updateText]
  rfl

theorem published_broadcastText (id : ℤ) (nickname payload : Bytes) :
    published (snprintf 1024 (broadcastText id nickname payload)) = true := by
  rw [published, (carries_broadcastText id nickname payload).commandOf (by decide)]
  rfl

/-- The messages that start an election. -/
theorem outgoing_of_startElection (h : startElection env s₁ = .ok s') {e : Sent} (he : e ∈ s'.sent) :
    e ∈ s₁.sent ∨ commandOf e.message = messageStartElection := by
  obtain ⟨log, rfl, hlog⟩ := startElection_ok h
  obtain he | he := List.mem_append.1 he
  · exact .inl he
  · rw [(hlog.entries e he).1]
    exact .inr ((carries_self _).commandOf (by decide))

/-- **What a node sends in a round.** -/
theorem Reaction.outgoing (h : Reaction env locals s event s') (hsent : s.sent = []) {e : Sent}
    (he : e ∈ s'.sent) : Outgoing locals s event s' e := by
  have hnone : s'.sent = s.sent → False := fun hs => by
    rw [hs, hsent] at he
    cases he
  have hone : ∀ {env : Env} {dst : RmpAddress} {message : Bytes},
      (s.rmpSendTo env dst message).2.sent = [⟨dst, message, (s.rmpSendTo env dst message).1⟩] :=
    fun {env dst message} => by rw [Node.rmpSendTo, hsent]; rfl
  cases h with
  | silent lines => exact (hnone rfl).elim
  | numbered hl _ _ hb =>
    exact .published hl (published_of_broadcast (published_broadcastText ..) hb hsent e he)
  | refused hl _ _ =>
    rw [hone] at he
    obtain rfl := List.mem_singleton.1 he
    exact .other (show commandOf messageJoinNicknameFailure ∈ _ by decide)
  | admitted hl _ _ hinsert hgen hb =>
    obtain ⟨leader, -, rfl⟩ := leader_of_generate hgen (by decide)
    have hsent₁ := (insertParticipant_role hinsert).sent.trans hsent
    exact .published hl (published_of_broadcast (published_updateText ..) hb hsent₁ e he)
  | responded _ hr =>
    obtain ⟨nickname, -, ⟨-, hstart⟩ | ⟨-, rfl⟩⟩ := respondToLeaderElection_eq_ok hr
    · obtain he | he := outgoing_of_startElection hstart he
      · rw [hone] at he
        obtain rfl := List.mem_singleton.1 he
        exact .other (show commandOf messageStopElection ∈ _ by decide)
      · exact .other (by rw [he]; decide)
    · exact (hnone rfl).elim
  | heard _ _ _ => exact (hnone rfl).elim
  | updated _ _ hu => exact (hnone (processParticipantUpdate_role hu).sent).elim
  | referred hl hreads hmessage =>
    rw [hone] at he
    obtain rfl := List.mem_singleton.1 he
    exact .answer hl rfl hreads hone hmessage
  | stopped _ _ => exact (hnone rfl).elim
  | followed _ _ => exact (hnone rfl).elim
  | asked _ hmessage =>
    rw [hone] at he
    obtain rfl := List.mem_singleton.1 he
    obtain h | h := commandOf_enquiry hmessage
    · exact .other (by rw [h]; decide)
    · exact .other (by rw [h]; decide)
  | suspected _ _ _ hmessage _ hstart =>
    obtain he | he := outgoing_of_startElection hstart he
    · rw [hone] at he
      obtain rfl := List.mem_singleton.1 he
      obtain h | h := commandOf_enquiry hmessage
      · exact .other (by rw [h]; decide)
      · exact .other (by rw [h]; decide)
    · exact .other (by rw [he]; decide)
  | beaten hl _ hb => exact .published hl (published_of_broadcast (by decide) hb hsent e he)
  | declared hl _ _ hd =>
    obtain ⟨s₁, s₂, notice, update, lines, hvictory, hgen, hupdate, rfl⟩ :=
      declareVictory_broadcasts hd
    obtain ⟨leader, -, rfl⟩ := leader_of_generate hgen (by decide)
    refine .declared hl rfl ?_
    have hclaim : commandOf messageElectionVictory ∈
        [messageElectionVictory, messageParticipantUpdate] := by
      decide
    have hlist : commandOf (updateText leader s₁.participants notice) ∈
        [messageElectionVictory, messageParticipantUpdate] := by
      rw [commandOf_updateText]
      decide
    obtain he | hword := commandOf_broadcast hlist (by decide) hupdate he
    · obtain hold | hword := commandOf_broadcast hclaim (by decide) hvictory he
      · have hold : e ∈ s.sent := hold
        rw [hsent] at hold
        cases hold
      · exact hword
    · exact hword
  | restarted _ _ hstart =>
    obtain he | he := outgoing_of_startElection hstart he
    · rw [hsent] at he
      cases he
    · exact .other (by rw [he]; decide)

/-- Only a declaration of victory and a new leader change the role. -/
theorem Reaction.isLeader (h : Reaction env locals s event s') (hvictory : event ≠ .victory) :
    s'.isLeader = s.isLeader := by
  cases h with
  | silent lines => rfl
  | numbered _ _ _ hb => exact (leaderBroadcastMessage_same hb).isLeader
  | refused _ _ _ => rfl
  | admitted _ _ _ hinsert _ hb =>
    exact (leaderBroadcastMessage_same hb).isLeader.trans (insertParticipant_role hinsert).isLeader
  | responded _ hr =>
    obtain ⟨log, started, rfl⟩ := respondToLeaderElection_frame hr
    rfl
  | heard _ _ _ => rfl
  | updated _ _ hu => exact (processParticipantUpdate_role hu).isLeader
  | referred _ _ _ => rfl
  | stopped _ _ => rfl
  | followed hl _ => exact hl.symm
  | asked _ _ => rfl
  | suspected _ _ _ _ _ hstart =>
    obtain ⟨log, rfl, -⟩ := startElection_ok hstart
    rfl
  | beaten _ _ hb => exact (leaderBroadcastMessage_same hb).isLeader
  | declared _ _ _ _ => exact absurd rfl hvictory
  | restarted _ _ hstart =>
    obtain ⟨log, rfl, -⟩ := startElection_ok hstart
    rfl

/-- **What a leader does in a round**: it publishes nothing and keeps its list, or it broadcasts a
message and has the list of `base`, its own or one with a new participant, without those that it
could not reach. -/
inductive LeaderRound (env : Env) (locals : Locals) (s : Node) (event : Event) (s' : Node) : Prop
  | silent (hps : s'.participants = s.participants) (hleader : s'.leader = s.leader)
    (hsent : ∀ e ∈ s'.sent, published e.message = false)
  | broadcast {base s₀ s₁ : Node} {message : Bytes} (hbase : Announcer locals s event base)
    (hsame : s₀.participants = base.participants ∧ s₀.leader = base.leader ∧ s₀.sent = [])
    (hmessage : published message = true)
    (hupdate : base.participants = s.participants ∧ commandOf message ≠ messageParticipantUpdate ∨
      ∃ leader buf rest src, base.leader = some leader ∧ event = .receive buf src ∧
        Reads locals buf messageAddMe rest ∧
        s.insertParticipant rest (inetNtoa src) (portText src) false = .ok base ∧
        message = updateText leader base.participants
          (snprintf maxBufferLen (joinMessage rest (inetNtoa src) (portText src))))
    (h : leaderBroadcastMessage env s₀ message = .ok s₁)
    (hleft : s'.participants = s₁.participants ∧ s'.leader = s₁.leader ∧ s'.sent = s₁.sent)

theorem Reaction.leaderRound (h : Reaction env locals s event s') (hl : s.isLeader = true)
    (hsent : s.sent = []) (hvictory : event ≠ .victory) : LeaderRound env locals s event s' := by
  have hquiet : s'.participants = s.participants → s'.leader = s.leader →
      (∀ e ∈ s'.sent, commandOf e.message ∈ [messageJoinNicknameFailure, messageStartElection,
        messageStopElection]) → LeaderRound env locals s event s' := by
    intro hps hleader hwords
    refine .silent hps hleader fun e he => ?_
    have hother : ∀ word ∈ [messageJoinNicknameFailure, messageStartElection, messageStopElection],
        [messageBroadcast, messageParticipantUpdate, messageHeartbeat].contains word = false := by
      decide
    exact hother _ (hwords e he)
  have hnone : s'.participants = s.participants → s'.leader = s.leader → s'.sent = s.sent →
      LeaderRound env locals s event s' := by
    intro hps hleader hs
    refine hquiet hps hleader fun e he => ?_
    rw [hs, hsent] at he
    cases he
  have hfollow : s.isLeader = false → LeaderRound env locals s event s' := fun hf => by
    rw [hf] at hl
    cases hl
  cases h with
  | silent lines => exact hnone rfl rfl rfl
  | @numbered _ nickname payload line s₁ _ _ _ hb =>
    have hsame : ({ s with clockNum := s.clockNum + 1 } : Node).participants = s.participants ∧
        ({ s with clockNum := s.clockNum + 1 } : Node).leader = s.leader ∧
        ({ s with clockNum := s.clockNum + 1 } : Node).sent = [] := ⟨rfl, rfl, hsent⟩
    refine .broadcast (.leader hl) hsame (published_broadcastText ..) (.inl ⟨rfl, ?_⟩) hb
      ⟨rfl, rfl, rfl⟩
    rw [(carries_broadcastText s.clockNum nickname payload).commandOf (by decide)]
    decide
  | refused _ _ _ =>
    refine hquiet rfl rfl fun e he => ?_
    rw [Node.rmpSendTo, hsent, List.nil_append] at he
    obtain rfl := List.mem_singleton.1 he
    exact show commandOf messageJoinNicknameFailure ∈ _ by decide
  | admitted _ hreads hnew hinsert hgen hb =>
    have hsent₁ := (insertParticipant_role hinsert).sent.trans hsent
    obtain ⟨leader, hleader, rfl⟩ := leader_of_generate hgen (by decide)
    exact .broadcast (.host hl hreads hnew hinsert) ⟨rfl, rfl, hsent₁⟩ (published_updateText ..)
      (.inr ⟨leader, _, _, _, hleader, rfl, hreads, hinsert, rfl⟩) hb ⟨rfl, rfl, rfl⟩
  | responded _ hr =>
    obtain ⟨nickname, -, ⟨-, hstart⟩ | ⟨-, rfl⟩⟩ := respondToLeaderElection_eq_ok hr
    · have hsame : s'.participants = s.participants ∧ s'.leader = s.leader := by
        obtain ⟨log, rfl, -⟩ := startElection_ok hstart
        exact ⟨rfl, rfl⟩
      refine hquiet hsame.1 hsame.2 fun e he => ?_
      obtain he | he := outgoing_of_startElection hstart he
      · rw [Node.rmpSendTo, hsent, List.nil_append] at he
        obtain rfl := List.mem_singleton.1 he
        exact show commandOf messageStopElection ∈ _ by decide
      · rw [he]
        decide
    · exact hnone rfl rfl rfl
  | heard hf _ _ => exact hfollow hf
  | updated hf _ _ => exact hfollow hf
  | referred hf _ _ => exact hfollow hf
  | stopped hf _ => exact hfollow hf
  | followed hf _ => exact hfollow hf
  | asked hf _ => exact hfollow hf
  | suspected hf _ _ _ _ _ => exact hfollow hf
  | beaten _ _ hb =>
    exact .broadcast (.leader hl) ⟨rfl, rfl, hsent⟩ (by decide) (.inl ⟨rfl, by decide⟩) hb
      ⟨rfl, rfl, rfl⟩
  | declared _ _ _ _ => exact absurd rfl hvictory
  | restarted hf _ _ => exact hfollow hf

/-- The first words of what a node sends. -/
theorem Outgoing.words {e : Sent} (h : Outgoing locals s event s' e) (hvictory : event ≠ .victory) :
    commandOf e.message ≠ messageAddMe ∧ commandOf e.message ≠ messageElectionVictory ∧
      (commandOf e.message = messageParticipantUpdate → s.isLeader = true) := by
  have hall : ∀ words : List Bytes, commandOf e.message ∈ words →
      (∀ word ∈ words, word ≠ messageAddMe ∧ word ≠ messageElectionVictory ∧
        word ≠ messageParticipantUpdate) →
      commandOf e.message ≠ messageAddMe ∧ commandOf e.message ≠ messageElectionVictory ∧
        (commandOf e.message = messageParticipantUpdate → s.isLeader = true) := by
    intro words hmem hwords
    obtain ⟨h1, h2, h3⟩ := hwords _ hmem
    exact ⟨h1, h2, fun heq => absurd heq h3⟩
  cases h with
  | published hl hpublished =>
    have hwords : ∀ word ∈ [messageBroadcast, messageParticipantUpdate, messageHeartbeat],
        word ≠ messageAddMe ∧ word ≠ messageElectionVictory := by decide
    obtain ⟨h1, h2⟩ := hwords _ (List.contains_iff_mem.1 hpublished)
    exact ⟨h1, h2, fun _ => hl⟩
  | answer _ _ _ _ h => exact hall _ (List.contains_iff_mem.1 (answers_of_referral h)) (by decide)
  | declared _ hevent _ => exact absurd hevent hvictory
  | other hother => exact hall _ hother (by decide)

end Sending

/-! ## What a process sends -/

section Rounds

variable {resolve : Bytes → Bytes → Option RmpAddress} {env : Env} {locals : Locals} {p p' : Process}
  {event : Event}

/-- A joining process asks again only on an answer to an ADD_ME. -/
theorem joinReceive_asked {j j' : Joining} {buf : Bytes}
    (h : joinReceive env j buf = .ok (.joining j')) :
    JoinReads buf messageJoinFailure ∨ JoinReads buf messageLeaderId := by
  obtain ⟨r, hr, h⟩ := Fault.bind_eq_ok.1 h
  dsimp only at h
  split at h
  · cases h
  split at h
  · obtain ⟨s', -, h⟩ := Fault.bind_eq_ok.1 h
    cases Except.ok.inj h
  split at h
  · cases h
  split at h
  · next hword => exact .inl ⟨r, hr, hword⟩
  split at h
  · next hword => exact .inr ⟨r, hr, hword⟩
  · cases h

theorem Round.isLeader (h : Round env locals p event p') (hvictory : event ≠ .victory) :
    p'.node.isLeader = p.node.isLeader := by
  cases h with
  | asked hnode _ =>
    rw [Process.node, hnode]
    rfl
  | entered hrole _ _ hu => exact (processParticipantUpdate_role hu).isLeader.trans hrole.2.1
  | reacted hr => exact hr.isLeader hvictory

/-- **What a process sends** in a round: one ADD_ME, or what its node sends. -/
theorem Round.outgoing (h : Round env locals p event p') :
    (∃ j j' e, p = .joining j ∧ p' = .joining j' ∧ p'.node.sent = [e] ∧
      commandOf e.message = messageAddMe) ∨
    (∃ j s', p = .joining j ∧ p' = .chatting s' ∧ s'.sent = []) ∨
    ∃ s s', p = .chatting s ∧ p' = .chatting s' ∧
      Reaction env locals { s with sent := [] } event s' ∧
      ∀ e ∈ s'.sent, Outgoing locals { s with sent := [] } event s' e := by
  cases h with
  | @asked j j' e _ _ hnode hmessage =>
    refine .inl ⟨j, j', e, rfl, rfl, ?_, ?_⟩
    · rw [Process.node, hnode]
    · rw [hmessage]
      exact (carries_addMeCmd _).commandOf (by decide)
  | entered _ hsent _ _ => exact .inr (.inl ⟨_, _, rfl, rfl, hsent⟩)
  | reacted hr => exact .inr (.inr ⟨_, _, rfl, rfl, hr, fun e he => hr.outgoing rfl he⟩)

end Rounds

/-! ## The founder alone leads -/

/-- No process declares victory. -/
def Unopposed : Action → Prop
  | .round _ .victory _ _ => False
  | _ => True

/-- The founder leads as long as it is there, nobody else does, and only a leader has announced
lists and nobody victory. -/
structure Session.Sole (founder : RmpAddress) (g : Session) : Prop where
  enrolled : founder ∈ g.roll.map Member.address
  leads : ∀ p, g.procs founder = some p → ∃ s, p = .chatting s ∧ s.isLeader = true
  follows : ∀ a p, a ≠ founder → g.procs a = some p → p.node.isLeader = false
  source : ∀ x ∈ g.flight, commandOf x.body = messageParticipantUpdate → x.src = founder
  peaceful : ∀ x ∈ g.flight, commandOf x.body ≠ messageElectionVictory

section Sole

variable {resolve : Bytes → Bytes → Option RmpAddress} {founder : Member} {g g' : Session}
  {a address : RmpAddress} {cue : Cue} {weather : Weather} {locals : Locals} {p p' : Process}
  {event : Event} {rest : List (Packet RmpAddress Bytes)} {ok : Session → Action → Prop}

theorem Session.event_ne_victory (hcue : cue ≠ .victory)
    (hread : g.read address cue = some (event, rest)) :
    event ≠ .victory := by
  cases cue with
  | receive k =>
    obtain ⟨x, -, h⟩ := Option.bind_eq_some_iff.1 hread
    split at h
    · obtain ⟨rfl, -⟩ := Prod.mk.inj (Option.some.inj h)
      exact fun h => by cases h
    · cases h
  | victory => exact absurd rfl hcue
  | stdin buf | heartbeat | restart =>
    obtain ⟨rfl, -⟩ := Prod.mk.inj (Option.some.inj hread)
    exact fun h => by cases h

/-- What is under way after a round. -/
theorem Session.Moved.mem_flight
    (hm : g.Moved resolve address cue weather locals p p' event rest g')
    {x : Packet RmpAddress Bytes} (hx : x ∈ g'.flight) :
    x ∈ g.flight ∨ ∃ e ∈ p'.node.sent, x = ⟨address, e.dst, e.message⟩ := by
  rw [hm.flight] at hx
  obtain hx | hx := List.mem_append.1 hx
  · exact .inl ((Session.mem_of_read hm.read).2.subset hx)
  · obtain ⟨e, he, rfl, -⟩ := Session.mem_posted hx
    exact .inr ⟨e, he, rfl⟩

theorem Session.Sole.round {founder : RmpAddress} (h : g.Sole founder) (hcue : cue ≠ .victory)
    (hm : g.Moved resolve address cue weather locals p p' event rest g') : g'.Sole founder := by
  have hvictory := Session.event_ne_victory hcue hm.read
  have hrole := hm.round.isLeader hvictory
  have hsent : ∀ e ∈ p'.node.sent, commandOf e.message ≠ messageElectionVictory ∧
      (commandOf e.message = messageParticipantUpdate → p.node.isLeader = true) := by
    intro e he
    obtain ⟨j, j', e', -, -, hone, hword⟩ | ⟨j, s', -, rfl, hnone⟩ | ⟨s, s', rfl, rfl, -, hout⟩ :=
      hm.round.outgoing
    · rw [hone] at he
      obtain rfl := List.mem_singleton.1 he
      rw [hword]
      exact ⟨by decide, fun heq => absurd heq (by decide)⟩
    · rw [Process.node, hnone] at he
      cases he
    · exact ((hout e he).words hvictory).2
  constructor
  · rw [hm.roll]
    exact h.enrolled
  · intro q hq
    rw [hm.procs] at hq
    obtain ⟨rfl, hself⟩ | ⟨-, hold⟩ := live_of_update hq
    · obtain rfl := Option.some.inj hself
      obtain ⟨s, rfl, hl⟩ := h.leads p hm.live
      obtain ⟨j, _, _, hj, -⟩ | ⟨j, _, hj, -⟩ | ⟨s₁, s', hs₁, rfl, -⟩ := hm.round.outgoing
      · cases hj
      · cases hj
      · exact ⟨s', rfl, hrole.trans hl⟩
    · exact h.leads q hold
  · intro b q hb hq
    rw [hm.procs] at hq
    obtain ⟨rfl, hself⟩ | ⟨-, hold⟩ := live_of_update hq
    · obtain rfl := Option.some.inj hself
      exact hrole.trans (h.follows b p hb hm.live)
    · exact h.follows b q hb hold
  · intro x hx hword
    obtain hx | ⟨e, he, rfl⟩ := hm.mem_flight hx
    · exact h.source x hx hword
    · by_contra hne
      have hl := (hsent e he).2 hword
      rw [h.follows address p hne hm.live] at hl
      cases hl
  · intro x hx
    obtain hx | ⟨e, he, rfl⟩ := hm.mem_flight hx
    · exact h.peaceful x hx
    · exact (hsent e he).1

/-- **The founder leads alone** in every session in which nobody declares victory. -/
theorem sole_of_reach (hok : ∀ g action, ok g action → Unopposed action)
    (h : Reach (sessionStep resolve) ok (Founded founder) g) : g.Sole founder.address := by
  refine h.invariant ?_ ?_
  · rintro g ⟨s, hs, rfl⟩
    obtain ⟨q, lines, hnode, -⟩ := startChat_ok hs
    refine ⟨by simp, fun p hp => ?_, fun a p ha hp => ?_, by simp, by simp⟩
    · dsimp only at hp
      rw [if_pos rfl] at hp
      exact ⟨s, (Option.some.inj hp).symm, by rw [hnode]; rfl⟩
    · dsimp only at hp
      rw [if_neg ha] at hp
      cases hp
  · intro g action g' hI hallowed hs
    cases action with
    | join address nickname addrPort weather =>
      obtain ⟨j, hnew, hj, rfl⟩ := joined_of_join hs
      have hne : founder.address ≠ address := fun heq => hnew (heq ▸ hI.enrolled)
      obtain ⟨_, lines, hnode, -⟩ := joinChat_ok hj
      have hsent : ∀ x ∈ Session.posted weather address j.node.sent,
          commandOf x.body = messageAddMe := by
        intro x hx
        obtain ⟨e, he, rfl, -⟩ := Session.mem_posted hx
        rw [message_of_joinChat hj he]
        exact (carries_addMeCmd nickname).commandOf (by decide)
      refine ⟨?_, fun p hp => ?_, fun a p ha hp => ?_, fun x hx hword => ?_, fun x hx => ?_⟩
      · rw [List.map_append]
        exact List.mem_append_left _ hI.enrolled
      · dsimp only at hp
        rw [Function.update_of_ne hne] at hp
        exact hI.leads p hp
      · obtain ⟨-, hself⟩ | ⟨-, hold⟩ := live_of_update hp
        · obtain rfl := Option.some.inj hself
          rw [Process.node, hnode]
          rfl
        · exact hI.follows a p ha hold
      · obtain hx | hx := List.mem_append.1 hx
        · exact hI.source x hx hword
        · rw [hsent x hx] at hword
          exact absurd hword (by decide)
      · obtain hx | hx := List.mem_append.1 hx
        · exact hI.peaceful x hx
        · rw [hsent x hx]
          decide
    | round address cue weather locals =>
      obtain ⟨p, p', event, rest, hm⟩ := moved_of_round hs
      refine hI.round (fun hcue => ?_) hm
      have hun := hok _ _ hallowed
      rw [hcue] at hun
      exact hun
    | crash address =>
      obtain rfl := Option.some.inj hs
      have hprocs : ∀ a p, Function.update g.procs address none a = some p → g.procs a = some p := by
        intro a p hp
        obtain ⟨-, hnone⟩ | ⟨-, hold⟩ := live_of_update hp
        · cases hnone
        · exact hold
      exact ⟨hI.enrolled, fun p hp => hI.leads p (hprocs _ p hp),
        fun a p ha hp => hI.follows a p ha (hprocs a p hp), hI.source, hI.peaceful⟩
    | lose k =>
      obtain rfl := Option.some.inj hs
      have hsub : ∀ x ∈ g.flight.eraseIdx k, x ∈ g.flight := fun x hx => List.mem_of_mem_eraseIdx hx
      exact ⟨hI.enrolled, hI.leads, hI.follows, fun x hx => hI.source x (hsub x hx),
        fun x hx => hI.peaceful x (hsub x hx)⟩
    | copy k =>
      obtain ⟨y, hy, rfl⟩ := Option.map_eq_some_iff.1 hs
      have hmem : ∀ x ∈ g.flight ++ [y], x ∈ g.flight := by
        intro x hx
        obtain hx | hx := List.mem_append.1 hx
        · exact hx
        · exact List.mem_singleton.1 hx ▸ List.mem_of_getElem? hy
      exact ⟨hI.enrolled, hI.leads, hI.follows, fun x hx => hI.source x (hmem x hx),
        fun x hx => hI.peaceful x (hmem x hx)⟩

end Sole

/-! ## The lists -/

section Lists

variable {resolve : Bytes → Bytes → Option RmpAddress} {founder : Member} {g : Session}
  {roll : List Member} {a b : RmpAddress} {s : Node}

/-- **Every list is consistent** in every session of processes with proper nicknames. -/
theorem consistent_of_reach (hfounder : founder.Listable resolve)
    (h : Reach (sessionStep resolve) (Admissible resolve) (Founded founder) g) :
    g.All (InOrder (Consistent g.roll) g.roll) (Authentic (Census resolve g.roll) g.roll) := by
  refine inOrder_of_reach (N := Consistent) (C := Census resolve)
    (fun g hg => kept_consistent (enrolled_of_reach hfounder hg)) (fun s hs => ?_)
    (fun roll m a => ⟨fun s hs => ?_, ?_⟩) h
  · have htally := tally_of_startChat hs
    have hled := (recorded_of_started (.founder hs)).2
    obtain ⟨q, lines, rfl, hfields⟩ := startChat_ok hs
    exact ⟨htally, fun p hp => List.mem_singleton.1 hp ▸ ⟨founder, List.mem_singleton.2 rfl, hfields⟩,
      List.mem_singleton.2 rfl, fun _ => hled, fun hl => by cases hl⟩
  · refine ⟨hs.toTally, fun p hp => ?_, List.mem_append_left _ hs.self, hs.leads, hs.listed⟩
    obtain ⟨m', hm', hfields⟩ := hs.enrolled p hp
    exact ⟨m', List.mem_append_left _ hm', hfields⟩
  · rintro body ⟨leader, ps, notice, hbody, hnd, ⟨m', hm', hleader⟩, hothers, hself⟩
    refine ⟨leader, ps, notice, hbody, hnd, ⟨m', List.mem_append_left _ hm', hleader⟩, fun p hp => ?_,
      hself⟩
    obtain ⟨m₁, hm₁, hfields⟩ := hothers p hp
    exact ⟨m₁, List.mem_append_left _ hm₁, hfields⟩

/-- A leader sends to members. -/
theorem Consistent.mem_audience (hroll : Enrolled resolve roll) (h : Consistent roll a s)
    (hb : b ∈ audience resolve s) : b ∈ roll.map Member.address := by
  obtain ⟨p, hp, haddr⟩ := List.mem_filterMap.1 hb
  obtain ⟨m, hm, hfields⟩ := h.enrolled p (mem_others.1 hp).1
  rw [(hroll.listable m hm).getAddressFor hfields] at haddr
  exact List.mem_map.2 ⟨m, hm, Option.some.inj haddr⟩

/-- It sends to each of them once. -/
theorem Consistent.audience_nodup (hroll : Enrolled resolve roll) (h : Consistent roll a s) :
    (audience resolve s).Nodup := by
  have hnicks : s.participants.Pairwise fun p q => p.nickname ≠ q.nickname :=
    List.pairwise_map.1 h.distinct
  refine List.pairwise_filterMap.2 ((hnicks.filter _).imp_of_mem ?_)
  rintro p q hp hq hne b hpb _ hqb rfl
  obtain ⟨m, hm, hfields⟩ := h.enrolled p (mem_others.1 hp).1
  have hmb : m.address = b :=
    Option.some.inj (((hroll.listable m hm).getAddressFor hfields).symm.trans hpb)
  have hmem : (⟨b, m.nickname⟩ : Member) ∈ roll := hmb ▸ hm
  refine hne ?_
  rw [hroll.nickname_eq hmem (h.enrolled p (mem_others.1 hp).1) hpb,
    hroll.nickname_eq hmem (h.enrolled q (mem_others.1 hq).1) hqb]

end Lists

theorem listable_host : host.Listable loopbackAddress :=
  ⟨⟨by decide, by decide, by decide⟩, by decide, by decide, by decide⟩

end Dchat.Chat
