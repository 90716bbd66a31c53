import Dchat.Chat.Honest
import Dchat.Chat.Numbering

/-!
# What a node sends fits

The texts that go around in a session are nicknames that `main` admits, addresses and ports, and all
of them fit the arrays into which they are scanned. Three messages are not made of these texts
alone: the refusal of a nickname, whose command is longer than any other; the request of a node
whose nickname fills the array of the leader; and what a leader makes of a message without a
nickname, which is what its local variables held before.

* `Lettered` says that the texts of a node are of this kind, and `Reaction.lettered`
  that they stay so.
* `honest_of_speech`: what such a node sends is `Honest`, unless it is one of the three.
* `scansFit_of_reach`: in every session without the three, every message fits, whoever receives it.
* `not_scansFit`: a process that asks for a nickname that is taken gets an answer that does not fit.
-/

namespace Dchat.Chat

open CString Stdio RMP Links Runs

/-! ## The conditions -/

instance : DecidablePred Admitted := fun s =>
  decidable_of_iff (0 ∉ s ∧ s.length ≤ maxNicknameLen ∧ ¬ strcspn s (str ":@ ") < s.length)
    ⟨fun ⟨h0, hlen, hsep⟩ => ⟨h0, hlen, hsep⟩, fun ⟨h0, hlen, hsep⟩ => ⟨h0, hlen, hsep⟩⟩

/-- Processes are started with nicknames that `main` admits. -/
def ThroughMain (_ : Session) : Action → Prop
  | .join _ nickname _ _ => Admitted nickname
  | _ => True

/-- A round in which a process sends none of the three messages. A leader refuses no nickname, and
what its local variables held is no worse than a nickname where it lets in a participant without one
or passes on a message without a sender. A non-leader with a line to pass on has a nickname for
which the leader has room. -/
def Measured (locals : Locals) : Process → Event → Prop
  | .chatting s, .receive buf _ => s.isLeader = true →
    (commandWord buf = messageAddMe → s.containsParticipant (argument locals buf) = false ∧
      (commandRest buf = [] → locals.rest.all isNicknameByte = true)) ∧
    (commandWord buf = messageRequest →
      ((commandRest buf).takeWhile fun c => !(str " =").contains c) = [] →
        locals.senderNickname.length ≤ maxNicknameLen)
  | .chatting s, .stdin buf => s.isLeader = false → 1 < buf.length → s.numParticipants ≠ 1 →
    (senderField s.thisNickname).length < maxNicknameLen
  | _, _ => True

/-- All rounds are of this kind. -/
def Sized (g : Session) : Action → Prop
  | .round address cue _ locals =>
    ∀ p ∈ g.procs address, ∀ x ∈ g.read address cue, Measured locals p x.1
  | _ => True

instance (locals : Locals) : (p : Process) → (event : Event) → Decidable (Measured locals p event)
  | .chatting _, .receive .. => inferInstanceAs (Decidable (_ → _ ∧ _))
  | .chatting _, .stdin _ => inferInstanceAs (Decidable (_ → _ → _ → _))
  | .chatting _, .heartbeat | .chatting _, .victory | .chatting _, .restart | .joining _, _ =>
    inferInstanceAs (Decidable True)

instance (g : Session) : (action : Action) → Decidable (ThroughMain g action)
  | .join .. => inferInstanceAs (Decidable (Admitted _))
  | .round .. | .crash .. | .lose .. | .copy .. => inferInstanceAs (Decidable True)

instance (g : Session) : (action : Action) → Decidable (Sized g action)
  | .round address cue _ locals => inferInstanceAs
    (Decidable (∀ p ∈ g.procs address, ∀ x ∈ g.read address cue, Measured locals p x.1))
  | .join .. | .crash .. | .lose .. | .copy .. => inferInstanceAs (Decidable True)

/-! ## The texts of a node -/

/-- The own nickname is admitted, and the texts of the participants and of the leader can be on a
list. -/
structure Lettered (s : Node) : Prop where
  self : Admitted s.thisNickname
  participants : ∀ p ∈ s.participants, p.Written
  leader : ∀ q, s.leader = some q → q.Written

section Texts

variable {env : Env} {locals : Locals} {s s' base : Node} {event : Event}

theorem Lettered.congr (h : Lettered s) (hnick : s'.thisNickname = s.thisNickname)
    (hps : s'.participants = s.participants) (hleader : s'.leader = s.leader) : Lettered s' :=
  ⟨hnick ▸ h.self, hps ▸ h.participants, hleader ▸ h.leader⟩

theorem Lettered.broadcast {message : Bytes} (h : Lettered s)
    (hs : leaderBroadcastMessage env s message = .ok s') : Lettered s' := by
  obtain ⟨t, ht⟩ := broadcast_of_ok hs
  have hsame := ht.same
  exact ⟨hsame.thisNickname ▸ h.self, fun p hp => h.participants p (ht.sublist.subset hp),
    hsame.leader ▸ h.leader⟩

/-- A participant is let in. -/
theorem Lettered.insert {nickname : Bytes} {src : RmpAddress} (h : Lettered s)
    (hbytes : ∀ c ∈ nickname, isNicknameByte c = true)
    (hs : s.insertParticipant nickname (inetNtoa src) (portText src) false = .ok s') :
    Lettered s' := by
  unfold Node.insertParticipant at hs
  dsimp only at hs
  split at hs
  · cases hs
  next hlen =>
  obtain rfl := Except.ok.inj hs
  refine ⟨h.self, fun p hp => ?_, h.leader⟩
  obtain hp | hp := List.mem_append.1 hp
  · exact h.participants p hp
  · obtain rfl := List.mem_singleton.1 hp
    exact ⟨not_lt.1 fun hlt => hlen (.inl hlt), hbytes, isIpAddress_inetNtoa src,
      isPortNum_portText src⟩

/-- A leader is set by a test. -/
theorem Lettered.setLeaderBy (h : Lettered s) (test : Participant → Bool) :
    Lettered (s.setLeaderBy test) := by
  refine ⟨h.self, fun p hp => ?_, fun q hq => ?_⟩
  · obtain ⟨p₀, hp₀, rfl⟩ := List.mem_map.1 hp
    exact h.participants p₀ hp₀
  · obtain hlast | ⟨-, hleader⟩ := Option.or_eq_some_iff.1 hq
    · obtain ⟨p, hp, rfl⟩ := Option.map_eq_some_iff.1 hlast
      exact h.participants p (List.mem_filter.1 (List.mem_of_getLast? hp)).1
    · exact h.leader q hleader

/-- A list is taken over. The leader is one of its participants. -/
theorem lettered_of_update {command : Bytes} {joining : Bool} (hadm : Admitted s.thisNickname)
    (hs : processParticipantUpdate s command joining = .ok s') : Lettered s' := by
  have hreceived := received_of_processParticipantUpdate hs
  refine ⟨(processParticipantUpdate_role hs).thisNickname ▸ hadm,
    fun p hp => (hreceived p hp).written, ?_⟩
  let P : Bool → Node → Prop := fun _ t =>
    ∀ q, t.leader = some q → ∃ p ∈ t.participants, p.toPeer = q
  have hinsert : ∀ f t t' nickname ipAddress portNum, P f t →
      t.insertParticipant nickname ipAddress portNum f = .ok t' → P false t' := by
    intro f t t' nickname ipAddress portNum ht hi q hq
    obtain ⟨p, hp, -, -⟩ := inserted_of_insertParticipant hi none
    have hps : t'.participants = t.participants ++ [p] := hp.participants
    have hl : t'.leader = if p.isLeader then some p.toPeer else t.leader := hp.leader
    rw [hl] at hq
    rw [hps]
    split at hq
    · exact ⟨p, List.mem_append_right _ List.mem_cons_self, Option.some.inj hq⟩
    · obtain ⟨p', hp', heq⟩ := ht q hq
      exact ⟨p', List.mem_append_left _ hp', heq⟩
  have hempty : P true s.emptyList := fun q hq => by cases hq
  have hrule := processParticipantUpdate_rule (P := P) (fun _ _ _ h => h) hinsert hs hempty
  have hmem : P true s' := by
    by_cases hentry : HasEntry command
    · exact hrule.1 hentry
    · exact (hrule.2 hentry).1
  intro q hq
  obtain ⟨p, hp, rfl⟩ := hmem q hq
  exact (hreceived p hp).written

theorem Lettered.victorious (h : Lettered s) : Lettered s.victorious :=
  (h.setLeaderBy _).congr rfl rfl rfl

theorem stable_lettered : Stable Lettered where
  congr h hps hleader _ hnick := h.congr hnick hps hleader
  broadcast h hs := h.broadcast hs
  flags test h := h.setLeaderBy test

/-- **Every reaction keeps the texts**, if a participant that is let in has a nickname. -/
theorem Reaction.lettered (h : Reaction env locals s event s') (hs : Lettered s)
    (hadd : ∀ buf src rest, event = .receive buf src → s.isLeader = true →
      Reads locals buf messageAddMe rest → ∀ c ∈ rest, isNicknameByte c = true) : Lettered s' :=
  stable_lettered.reaction h hs
    (fun buf rest src _ hevent hl hreads hi => hs.insert (hadd buf src rest hevent hl hreads) hi)
    fun _ _ hu => lettered_of_update hs.self hu

/-- The node whose list is announced. -/
theorem Announcer.lettered (h : Announcer locals s event base) (hs : Lettered s)
    (hadd : ∀ buf src rest, event = .receive buf src → s.isLeader = true →
      Reads locals buf messageAddMe rest → ∀ c ∈ rest, isNicknameByte c = true) : Lettered base := by
  cases h with
  | leader _ => exact hs
  | host hl hreads _ hinsert => exact hs.insert (hadd _ _ _ rfl hl hreads) hinsert
  | winner _ _ => exact hs.victorious

end Texts

/-! ## What is sent -/

section Sending

variable {env : Env} {locals : Locals} {s : Node} {p p' : Process} {event : Event} {e : Sent}
  {buf rest message : Bytes}

/-- The command of an honest message. -/
theorem Honest.carries (h : Honest message) : ∃ word ∈ commands, Carries message word ∧
    (word = messageAddMe → ∃ nickname, Admitted nickname ∧ message = addMeCmd nickname) := by
  cases h with
  | bare hmessage =>
    have hspec : ∀ m ∈ bareCommands, m ∈ commands ∧ m ≠ messageAddMe := by decide
    obtain ⟨hword, hne⟩ := hspec message hmessage
    exact ⟨message, hword, carries_self message, fun heq => absurd heq hne⟩
  | addMe hadm => exact ⟨_, by decide, carries_addMeCmd _, fun _ => ⟨_, hadm, rfl⟩⟩
  | update _ _ _ =>
    exact ⟨_, by decide, carries_updateText _ _ _, fun heq => absurd heq (by decide)⟩
  | @referral leader _ =>
    have htext : messageLeaderId ++ str " " ++ leader.ipAddress ++ str ":" ++ leader.portNum =
        messageLeaderId ++ 32 :: (leader.ipAddress ++ str ":" ++ leader.portNum) := by simp [str]
    exact ⟨messageLeaderId, by decide, carries_snprintf htext (by decide),
      fun heq => absurd heq (by decide)⟩
  | broadcast payload _ _ _ =>
    exact ⟨_, by decide, carries_broadcastText _ _ _, fun heq => absurd heq (by decide)⟩
  | request payload _ _ =>
    exact ⟨_, by decide, carries_requestText _ _, fun heq => absurd heq (by decide)⟩

/-- It is read under this command. -/
theorem Honest.commandWord (h : Honest buf) {command : Bytes} (hcommand : command ∈ commands)
    (hreads : Reads locals buf command rest) : commandWord buf = command := by
  obtain ⟨word, hword, hcarries, -⟩ := h.carries
  obtain rfl := hreads.command_eq hcommand hword hcarries
  exact hcarries.commandWord hword

/-- The nickname in an honest ADD_ME, if there is one. -/
theorem Honest.addMe_bytes (h : Honest buf) (hreads : Reads locals buf messageAddMe rest)
    (hne : commandRest buf ≠ []) : ∀ c ∈ rest, isNicknameByte c = true := by
  obtain ⟨word, hword, hcarries, haddMe⟩ := h.carries
  obtain ⟨nickname, hadm, rfl⟩ := haddMe (hreads.command_eq (by decide) hword hcarries).symm
  have hargument := hreads.argument_eq
  rw [argument, if_neg hne, commandRest, addMeCmd_eq hadm.length_le,
    dropWhile_word (by decide) (by decide),
    dropWhile_append_of_stops (List.all_eq_true.1 (by decide)) ((stops_cons ..).2 (by decide)),
    List.dropWhile_cons_of_pos (by decide)] at hargument
  intro c hc
  rw [hargument] at hc
  exact hadm.bytes c ((List.dropWhile_suffix _).subset ((List.takeWhile_sublist _).subset hc))

/-- **A participant that is let in has a nickname**, or what stood in its place is no worse. -/
theorem Measured.addMe (h : Measured locals (.chatting s) event)
    (hread : ∀ buf src, event = .receive buf src → Honest buf) :
    ∀ buf src rest, event = .receive buf src → s.isLeader = true →
      Reads locals buf messageAddMe rest →
        s.containsParticipant rest = false ∧ ∀ c ∈ rest, isNicknameByte c = true := by
  rintro buf src rest rfl hl hreads
  have hhonest := hread buf src rfl
  obtain ⟨hnew, hblank⟩ := (h hl).1 (hhonest.commandWord (by decide) hreads)
  have hargument := hreads.argument_eq
  refine ⟨hargument ▸ hnew, ?_⟩
  by_cases hnil : commandRest buf = []
  · rw [hargument, argument, if_pos hnil]
    exact List.all_eq_true.1 (hblank hnil)
  · exact hhonest.addMe_bytes hreads hnil

/-- **A message that is passed on has a sender**, or what stood in its place is no longer. -/
theorem Measured.relay {nickname payload : Bytes} {src : RmpAddress}
    (h : Measured locals (.chatting s) (.receive buf src)) (hl : s.isLeader = true)
    (hhonest : Honest buf) (hreads : Reads locals buf messageRequest rest)
    (hscan : scanRequest locals rest = .ok (nickname, payload)) :
    nickname.length ≤ maxNicknameLen := by
  have hblank := (h hl).2 (hhonest.commandWord (by decide) hreads)
  have hargument := hreads.argument_eq
  obtain ⟨r, hr, hscan⟩ := Fault.bind_eq_ok.1 hscan
  split at hscan
  · cases hscan
  obtain ⟨rfl, -⟩ := Prod.mk.inj (Except.ok.inj hscan)
  by_cases hassigned : r.assigned = []
  · rw [Scan.text, hassigned]
    refine hblank ?_
    by_cases hnil : commandRest buf = []
    · rw [hnil]
      rfl
    · rw [argument, if_neg hnil] at hargument
      rw [← hargument]
      by_contra hfield
      rw [requestFormat, sscanf_cons_set, if_neg (by rintro rfl; exact hfield rfl), if_neg hfield]
        at hr
      split at hr
      · cases hr
      cases hrest : sscanf [.lit 61, .white, .set isLineByte maxBufferLen]
          (rest.dropWhile fun c => !(str " =").contains c) with
      | error e =>
        rw [hrest] at hr
        cases hr
      | ok r' =>
        rw [hrest] at hr
        obtain rfl := Except.ok.inj hr
        cases hassigned
  · obtain ⟨-, hlen, r', -, rfl⟩ := sscanf_set_eq_ok hr hassigned
    exact Nat.le_of_lt hlen

/-- **What a node says is honest**, but for the three messages. -/
theorem honest_of_speech (h : Speech locals s event message) (hs : Lettered s)
    (hclock : 0 ≤ s.clockNum ∧ s.clockNum < 2147483648) (hok : Measured locals (.chatting s) event)
    (hread : ∀ buf src, event = .receive buf src → Honest buf) : Honest message := by
  have hlo : -2147483648 ≤ s.clockNum := by omega
  cases h with
  | bare hmessage => exact .bare hmessage
  | refusal hevent hl hreads hold =>
    rw [(hok.addMe hread _ _ _ hevent hl hreads).1] at hold
    cases hold
  | referral hleader => exact .referral (hs.leader _ hleader)
  | request payload hevent hlen hcompany hl =>
    subst hevent
    exact .request payload hs.self.length_le (hok hl hlen hcompany)
  | broadcast payload => exact .broadcast payload hlo hclock.2 hs.self.length_le
  | relay hevent hl hreads hscan =>
    subst hevent
    exact .broadcast _ hlo hclock.2 (hok.relay hl (hread _ _ rfl) hreads hscan)
  | update hbase hleader hps hlen =>
    have hbase' := hbase.lettered hs fun buf src rest hevent hl hreads =>
      (hok.addMe hread buf src rest hevent hl hreads).2
    exact .update (hbase'.leader _ hleader)
      (fun p hp => hbase'.participants p (hps.subset hp)) hlen

end Sending

/-! ## Sessions -/

section Sessions

variable {resolve : Bytes → Bytes → Option RmpAddress} {founder : Member} {g g' : Session}
  {address : RmpAddress} {cue : Cue} {weather : Weather} {locals : Locals} {p p' : Process}
  {event : Event} {rest : List (Packet RmpAddress Bytes)}

/-- The texts of a process, and what it has sent in its last round. -/
def Outspoken (p : Process) : Prop := Lettered p.node ∧ ∀ e ∈ p.node.sent, Honest e.message

theorem Measured.quiet {s : Node} (h : Measured locals (.chatting s) event) :
    Measured locals (.chatting { s with sent := [] }) event := by
  cases event with
  | receive buf src => exact h
  | stdin buf => exact h
  | heartbeat | victory | restart => trivial

theorem outspoken_of_startChat {nickname ipAddress portNum : Bytes} {s : Node}
    (hadm : Admitted nickname) (hip : IsIpAddress ipAddress) (hport : IsPortNum portNum)
    (h : startChat nickname ipAddress portNum = .ok s) : Outspoken (.chatting s) := by
  obtain ⟨q, lines, rfl, hfields⟩ := startChat_ok h
  obtain ⟨hn, hi, hp⟩ : q.nickname = nickname ∧ q.ipAddress = ipAddress ∧ q.portNum = portNum := by
    simpa [Peer.fields] using hfields
  have hq : q.Written :=
    ⟨hn ▸ hadm.length_le, hn ▸ hadm.bytes, hi ▸ hip, hp ▸ hport⟩
  refine ⟨⟨hadm, fun p hp => ?_, fun q' hq' => ?_⟩, fun e he => by cases he⟩
  · obtain rfl := List.mem_singleton.1 hp
    exact hq
  · obtain rfl := Option.some.inj hq'
    exact hq

/-- **A round of a process with such texts.** -/
theorem Outspoken.moved (h : Outspoken p) (hclock : Clocked p) (hok : Measured locals p event)
    (hread : ∀ buf src, event = .receive buf src → Honest buf)
    (hm : g.Moved resolve address cue weather locals p p' event rest g') : Outspoken p' := by
  have hround := hm.round
  have hran := hm.ran
  cases hround with
  | @asked j j' e _ _ hnode hmessage =>
    have hself : Admitted j.node.thisNickname := h.1.self
    refine ⟨?_, fun e' he' => ?_⟩
    · rw [Process.node, hnode]
      exact h.1.congr rfl rfl rfl
    · rw [Process.node, hnode] at he'
      obtain rfl := List.mem_singleton.1 he'
      exact hmessage ▸ .addMe hself
  | @entered j s₁ s' _ _ hrole hsent _ hu =>
    refine ⟨lettered_of_update (hrole.1 ▸ h.1.self) hu, fun e he => ?_⟩
    rw [Process.node, hsent] at he
    cases he
  | @reacted s s' _ hr =>
    obtain ⟨r, hstep, hs'⟩ := Option.map_eq_some_iff.1 hran
    cases r with
    | error e => cases hs'
    | ok s'' =>
      obtain rfl := Process.chatting.inj (Except.ok.inj hs')
      have hquiet : Lettered { s with sent := [] } := h.1.congr rfl rfl rfl
      obtain ⟨log, hsent, hlog⟩ := speech_of_chatStep hstep
      refine ⟨hr.lettered hquiet fun buf src rest hevent hl hreads =>
        (hok.quiet.addMe hread buf src rest hevent hl hreads).2, fun e he => ?_⟩
      rw [Process.node, hsent, List.nil_append] at he
      exact honest_of_speech (hlog e he) hquiet hclock.1 hok.quiet hread

/-- Every process has such texts, and every message under way is honest. -/
theorem honest_of_reach (hfounder : Admitted founder.nickname)
    (h : Reach (sessionStep resolve) (fun g action => ThroughMain g action ∧ Sized g action)
      (Founded founder) g) :
    g.All (fun _ p => Outspoken p) fun x => Honest x.body := by
  refine Session.all_of_moved (P := fun _ _ p => Outspoken p) (Q := fun _ x => Honest x.body)
    (J := fun g => g.All (fun _ p => Clocked p) fun x => Worded x.body)
    (fun _ hg => worded_of_reach hg) ?_ (fun _ _ => ⟨fun _ _ hp => hp, fun _ hx => hx⟩) ?_ ?_ h
  · intro g hg
    exact hg.all fun s hs => outspoken_of_startChat hfounder (isIpAddress_inetNtoa _)
      (isPortNum_portText _) hs
  · intro g address nickname addrPort weather j _ hok hj
    have hadm : Admitted nickname := hok.1
    have hsent : ∀ e ∈ j.node.sent, Honest e.message := fun e he =>
      message_of_joinChat hj he ▸ .addMe hadm
    obtain ⟨e, lines, hnode, -⟩ := joinChat_ok hj
    refine ⟨⟨?_, hsent⟩, hsent⟩
    rw [Process.node, hnode]
    exact ⟨hadm, fun p hp => (by cases hp), fun q hq => (by cases hq)⟩
  · intro g g' address cue weather locals p p' event rest hg hok hm hp hread
    have hmeasured := hok.2 p hm.live (event, rest) hm.read
    have hp' := hp.moved (hg.procs _ _ hm.live) hmeasured hread hm
    exact ⟨hp', hp'.2⟩

/-- **Every message fits the arrays of whoever receives it**, in every state of every run in which
the three messages are not sent: those that a process sent in its last round, whether they are under
way or not, and those that are under way. -/
theorem scansFit_of_reach (hfounder : Admitted founder.nickname)
    (h : Reach (sessionStep resolve) (fun g action => ThroughMain g action ∧ Sized g action)
      (Founded founder) g) :
    g.All (fun _ p => ∀ e ∈ p.node.sent, ScansFit e.message) fun x => ScansFit x.body := by
  obtain ⟨hprocs, hflight⟩ := honest_of_reach hfounder h
  exact ⟨fun a p hp e he => ((hprocs a p hp).2 e he).scansFit, fun x hx => (hflight x hx).scansFit⟩

/-- Two processes join, `a` says something, and so does `b`. -/
def chatter : List Action := gathering ++ [say 80, receiveAt 81, receiveAt 82, say 81, receiveAt 80]

theorem scansFit_of_reach_chatter : ∃ g : Session,
    g.flight.map Packet.dst = [localHost 81, localHost 82] ∧
      g.All (fun _ p => ∀ e ∈ p.node.sent, ScansFit e.message) fun x => ScansFit x.body := by
  have hrun : ((founding host).bind fun g => exec (sessionStep loopbackAddress)
      (fun g action => ThroughMain g action ∧ Sized g action) g chatter).map
        (fun g => g.flight.map Packet.dst) = some [localHost 81, localHost 82] := by decide
  obtain ⟨g, hg, hflight⟩ := exists_session_of_exec hrun
  exact ⟨g, hflight, scansFit_of_reach (by decide) hg⟩

/-- Not every message fits: a process that asks to be let in under the nickname of the leader gets a
refusal. -/
theorem not_scansFit : ¬ ∀ founder resolve g, Admitted founder.nickname →
    Reach (sessionStep resolve) ThroughMain (Founded founder) g →
      g.All (fun _ p => ∀ e ∈ p.node.sent, ScansFit e.message) fun x => ScansFit x.body := by
  intro h
  have hrun : ((founding host).bind fun g => exec (sessionStep loopbackAddress) ThroughMain g
      [.join (localHost 81) (str "a") (str "127.0.0.1:80") fairWeather, receiveAt 80]).map
        (fun g => g.flight.map Packet.body) = some [messageJoinNicknameFailure] := by decide
  obtain ⟨g, hg, hflight⟩ := exists_session_of_exec hrun
  have hall := h host loopbackAddress g (by decide) hg
  have hmem : messageJoinNicknameFailure ∈ g.flight.map Packet.body := by
    rw [hflight]
    exact List.mem_cons_self
  obtain ⟨x, hx, hbody⟩ := List.mem_map.1 hmem
  exact not_scansFit_refusal (hbody ▸ hall.flight x hx)

end Sessions

end Dchat.Chat
