import Dchat.Chat.Bully

/-!
# The elected leader

A declaration of victory waits until nothing is under way, so that `Objected.eq_top` says whose it
is (`Contending.victory`). From then on the group is `Settled`: the winner has the role, and each
of the others follows it, or has the ELECTION_VICTORY still to read. Nothing the winner sends
overtakes its ELECTION_VICTORY, so that the list by which the message is understood is still the
one of the group.

`Contending.turn` and `Settled.turn` say how a turn leads through the two phases, and
`greatest_elected` what this means for a state with nothing under way.
-/

namespace Dchat.Chat

open CString Stdio RMP Links Runs Outranking

/-! ## The second phase -/

/-- What a winner sends. -/
def Proclamation (top : Member) (m : Bytes) : Prop :=
  m = messageHeartbeat ∨ m = messageElectionVictory ∨
    ∃ leader ps notice, m = updateText leader ps notice ∧
      leader.fields = top.fields ∧ leader.Received

theorem updateText_ne_victory (leader : Peer) (ps : List Participant) (notice : Bytes) :
    updateText leader ps notice ≠ messageElectionVictory := by
  intro h
  have hhead := congrArg List.head? h
  rw [updateText_eq, List.head?_append_of_ne_nil _ (by decide)] at hhead
  exact absurd hhead (by decide)

/-- The node that won. -/
structure Winner (roster : Roster) (top : Member) (s : Node) : Prop where
  nickname : s.thisNickname = top.nickname
  role : s.isLeader = true
  idle : s.inElection = false
  leader : ∃ q, s.leader = some q ∧ q.fields = top.fields ∧ q.Received
  others : ∀ p ∈ others s.participants, ∃ m ∈ roster.members, m ≠ top ∧ p.fields = m.fields

/-- The ELECTION_VICTORY to the node at `a` is under way. -/
def Group.Announced (g : Group) (top : Member) (a : RmpAddress) : Prop :=
  ⟨top.address, a, messageElectionVictory⟩ ∈ g.flight

/-- Another node, to which the victory is still to be announced or not. -/
structure Follower (roster : Roster) (top : Member) (a : RmpAddress) (announced : Prop) (s : Node) :
    Prop where
  self : ⟨a, s.thisNickname⟩ ∈ roster.members
  role : s.isLeader = false
  unaware : announced → roster.Lists a s
  aware : ¬ announced → s.inElection = false ∧ Follows s top

theorem Follower.congr {roster : Roster} {top : Member} {a : RmpAddress} {P Q : Prop} {s : Node}
    (h : Follower roster top a P s) (hPQ : Q ↔ P) : Follower roster top a Q s :=
  propext hPQ ▸ h

/-- `top` has won. -/
structure Settled (roster : Roster) (top : Member) (g : Group) : Prop where
  winner : ∃ s, g.nodes top.address = some s ∧ Winner roster top s
  followers : ∀ a s, g.nodes a = some s → a ≠ top.address →
    Follower roster top a (g.Announced top a) s
  sent : ∀ p ∈ g.flight, p.dst = top.address ∧ p.body = messageHeartbeat ∨
    p.src = top.address ∧ p.dst ≠ top.address ∧ Proclamation top p.body
  ordered : g.flight.Pairwise fun p q => p.src = q.src → p.dst = q.dst →
    q.body = messageElectionVictory → p.body = messageElectionVictory

section

variable {roster : Roster} {crashed top : Member} {resolve : Bytes → Bytes → Option RmpAddress}
  {g g' : Group} {t : Turn} {s s' : Node} {event : Event}
  {rest : List (Packet RmpAddress Bytes)}

/-! ## What a leader broadcasts -/

/-- The attempts of a broadcast go to the members on its list. -/
theorem LeaderSent.exists_member {message : Bytes} {leader : Peer} {first updates : List Attempt}
    (h : LeaderSent (g.env resolve []) s message leader first updates s')
    (hresolved : roster.Resolved resolve)
    (hothers : ∀ p ∈ others s.participants, ∃ m ∈ roster.members, m ≠ top ∧ p.fields = m.fields)
    {a : Attempt} (ha : a ∈ first ++ updates) :
    ∃ m ∈ roster.members, m ≠ top ∧ a.recipient.fields = m.fields ∧ a.sent.dst = m.address := by
  obtain ⟨hrec, haddr⟩ := h.addressed a ha
  obtain ⟨m, hm, hne, hfields⟩ := hothers _ hrec
  rw [Group.env_getAddressFor, hresolved.of_fields hm hfields] at haddr
  exact ⟨m, hm, hne, hfields, (Option.some.inj haddr).symm⟩

/-- The message of an attempt to reach a process is delivered. -/
theorem LeaderSent.mem_posted {message : Bytes} {leader : Peer} {first updates : List Attempt}
    (h : LeaderSent (g.env resolve []) s message leader first updates s') {src : RmpAddress}
    {a : Attempt} (ha : a ∈ first ++ updates) (hlive : (g.nodes a.sent.dst).isSome)
    {log : List Sent} (hlog : a.sent ∈ log) :
    ⟨src, a.sent.dst, a.sent.message⟩ ∈ g.posted src log := by
  obtain ⟨k, hres⟩ := h.results a ha
  refine Group.mem_posted.2 ⟨a.sent, hlog, ?_, hlive, rfl⟩
  rw [hres, Group.sendTo_live hlive]
  omega

/-- What a leader at `top` posts. -/
theorem LeaderSent.posted {message : Bytes} {leader : Peer} {first updates : List Attempt}
    (h : LeaderSent (g.env resolve []) s message leader first updates s')
    (hresolved : roster.Resolved resolve) (htop : top ∈ roster.members)
    (hothers : ∀ p ∈ others s.participants, ∃ m ∈ roster.members, m ≠ top ∧ p.fields = m.fields)
    {p : Packet RmpAddress Bytes}
    (hp : p ∈ g.posted top.address ((first ++ updates).map Attempt.sent)) :
    p.src = top.address ∧ p.dst ≠ top.address ∧
      (p.body = message ∨ ∃ ps notice, p.body = updateText leader ps notice) := by
  obtain ⟨e, he, -, -, rfl⟩ := Group.mem_posted.1 hp
  obtain ⟨a, ha, rfl⟩ := List.mem_map.1 he
  obtain ⟨m, hm, hne, -, hdst⟩ := h.exists_member hresolved hothers ha
  refine ⟨rfl, ?_, ?_⟩
  · rw [hdst]
    exact fun heq => hne (Roster.address_inj hm htop heq)
  · exact (List.mem_append.1 ha).imp (h.announced a) (h.updated a)

/-- A live process on the list has the message under way. -/
theorem LeaderSent.reached {message : Bytes} {leader : Peer} {first updates : List Attempt}
    (h : LeaderSent (g.env resolve []) s message leader first updates s')
    (hresolved : roster.Resolved resolve)
    (hothers : ∀ p ∈ others s.participants, ∃ m ∈ roster.members, m ≠ top ∧ p.fields = m.fields)
    {member : Member} (hmember : member ∈ roster.members) {p : Participant}
    (hp : p ∈ others s.participants) (hfields : p.fields = member.fields)
    (hlive : (g.nodes member.address).isSome) (src : RmpAddress) :
    ⟨src, member.address, message⟩ ∈ g.posted src (first.map Attempt.sent) := by
  rw [← h.recipients] at hp
  obtain ⟨a, ha, rfl⟩ := List.mem_map.1 hp
  have hmem := List.mem_append_left updates ha
  obtain ⟨m, hm, -, hmfields, hdst⟩ := h.exists_member hresolved hothers hmem
  have haddr : a.sent.dst = member.address := by
    obtain rfl := Roster.nickname_inj hm hmember (congrArg Prod.fst (hmfields.symm.trans hfields))
    exact hdst
  rw [← haddr] at hlive ⊢
  rw [← h.announced a ha]
  exact h.mem_posted hmem hlive (List.mem_map_of_mem ha)

/-- The announcements come before the PARTICIPANT_UPDATEs. -/
theorem LeaderSent.ordered {leader : Peer} {first updates : List Attempt}
    (h : LeaderSent (g.env resolve []) s messageElectionVictory leader first updates s')
    (src : RmpAddress) :
    (g.posted src (first.map Attempt.sent) ++ g.posted src (updates.map Attempt.sent)).Pairwise
      fun p q => p.src = q.src → p.dst = q.dst →
        q.body = messageElectionVictory → p.body = messageElectionVictory := by
  have hfirst : ∀ p ∈ g.posted src (first.map Attempt.sent), p.body = messageElectionVictory := by
    intro p hp
    obtain ⟨e, he, -, -, rfl⟩ := Group.mem_posted.1 hp
    obtain ⟨a, ha, rfl⟩ := List.mem_map.1 he
    exact h.announced a ha
  rw [List.pairwise_append]
  refine ⟨?_, ?_, fun p hp _ _ _ _ _ => hfirst p hp⟩
  · exact List.pairwise_of_forall_mem_list fun p hp _ _ _ _ _ => hfirst p hp
  · refine List.pairwise_of_forall_mem_list fun _ _ p hp _ _ hbody => absurd hbody ?_
    obtain ⟨e, he, -, -, rfl⟩ := Group.mem_posted.1 hp
    obtain ⟨a, ha, rfl⟩ := List.mem_map.1 he
    obtain ⟨ps, notice, hupdate⟩ := h.updated a ha
    rw [hupdate]
    exact updateText_ne_victory _ _ _

/-! ## From the first phase to the second -/

/-- **The declaration of victory** settles the group. -/
theorem Contending.victory (h : Contending roster crashed top g) (hresolved : roster.Resolved resolve)
    (hstep : Group.Stepped resolve g t s s' event rest g') (hquiet : g.flight = [])
    (hrest : rest = []) (hstarted : s.startedElection = true)
    (hran : declareVictory (g.env resolve []) { s with sent := [] } = .ok s') :
    Settled roster top g' := by
  have hcontender := h.nodes _ s hstep.live
  have hlists : roster.Lists t.node { s with sent := [] } := hcontender.lists.congr rfl rfl
  have hself := hcontender.lists.self
  have hcampaign : (⟨t.node, s.thisNickname⟩ : Member) ∈ (g.campaign roster).campaigning :=
    ⟨hself, s, hstep.live, hstarted⟩
  have hpending : (g.campaign roster).pending = ∅ := by
    ext x
    simp [Group.campaign, hquiet]
  obtain rfl := h.objected.eq_top hpending hcampaign
  obtain ⟨q, hq, hleader, hfields⟩ := hlists.victorious_leader
  obtain ⟨first, updates, s₁, lines, hsent, rfl⟩ := declareVictory_ok hleader hran
  obtain ⟨hothers, hall⟩ := hlists.mem_others_victorious
  have hlog : s₁.sent = first.map Attempt.sent ++ updates.map Attempt.sent := by
    rw [hsent.sent, List.map_append]
    rfl
  have hflight : g'.flight = g.posted t.node (first.map Attempt.sent) ++
      g.posted t.node (updates.map Attempt.sent) := by
    rw [hstep.flight, hrest, List.nil_append, ← Group.posted_append, ← hlog]
  refine ⟨⟨_, hstep.node_self, ?_⟩, ?_, ?_, ?_⟩
  · refine ⟨hsent.same.thisNickname, hsent.same.isLeader, hsent.same.inElection, ?_, fun p hp => ?_⟩
    · exact ⟨q.toPeer, hsent.same.leader.trans hleader, hfields, hcontender.received q hq⟩
    · exact hothers p ((hsent.sublist.filter _).subset hp)
  · -- everyone else has the announcement under way
    intro a s₂ hs₂ hne
    rw [hstep.node_ne hne] at hs₂
    have hcontender₂ := h.nodes a s₂ hs₂
    have hne' : (⟨a, s₂.thisNickname⟩ : Member) ≠ ⟨t.node, s.thisNickname⟩ :=
      fun heq => hne (congrArg Member.address heq)
    obtain ⟨p, hp, hpfields⟩ := hall _ hcontender₂.lists.self hne'
    have hannounced : g'.Announced ⟨t.node, s.thisNickname⟩ a := by
      rw [Group.Announced, hflight]
      exact List.mem_append_left _ (hsent.reached hresolved hothers hcontender₂.lists.self hp
        hpfields (by rw [hs₂]; rfl) _)
    exact ⟨hcontender₂.lists.self, hcontender₂.role, fun _ => hcontender₂.lists,
      fun hnot => absurd hannounced hnot⟩
  · intro p hp
    rw [hflight, ← Group.posted_append, ← List.map_append] at hp
    obtain ⟨hsrc, hdst, hbody⟩ := hsent.posted hresolved hself hothers hp
    refine .inr ⟨hsrc, hdst, .inr (hbody.imp id ?_)⟩
    rintro ⟨ps, notice, hupdate⟩
    exact ⟨q.toPeer, ps, notice, hupdate, hfields, hcontender.received q hq⟩
  · rw [hflight]
    exact hsent.ordered _

/-! ## The second phase goes on -/

namespace Settled

variable (h : Settled roster top g)

include h

/-- At rest everyone follows the winner. -/
theorem follows (hquiet : g.flight = []) {a : RmpAddress} (hs : g.nodes a = some s) :
    s.inElection = false ∧ Follows s top := by
  by_cases ha : a = top.address
  · obtain ⟨s₀, hs₀, hwinner⟩ := h.winner
    rw [ha, hs₀] at hs
    obtain rfl := Option.some.inj hs
    obtain ⟨q, hq, hfields, -⟩ := hwinner.leader
    exact ⟨hwinner.idle, q, hq, hfields⟩
  · exact (h.followers a s hs ha).aware (by simp [Group.Announced, hquiet])

/-- A turn that sends no further ELECTION_VICTORY. -/
theorem next (hstep : Group.Stepped resolve g t s s' event rest g') (hsub : rest.Sublist g.flight)
    (hrest : ∀ p ∈ g.flight, p.dst ≠ t.node → p ∈ rest)
    (hposted : ∀ p ∈ g.posted t.node s'.sent, (p.dst = top.address ∧ p.body = messageHeartbeat ∨
      p.src = top.address ∧ p.dst ≠ top.address ∧ Proclamation top p.body) ∧
        p.body ≠ messageElectionVictory)
    (hwinner : t.node = top.address → Winner roster top s')
    (hfollower : t.node ≠ top.address →
      Follower roster top t.node (⟨top.address, t.node, messageElectionVictory⟩ ∈ rest) s') :
    Settled roster top g' := by
  have hannounced : ∀ a, g'.Announced top a ↔ ⟨top.address, a, messageElectionVictory⟩ ∈ rest := by
    intro a
    rw [Group.Announced, hstep.flight, List.mem_append, or_iff_left_iff_imp]
    exact fun hp => absurd rfl (hposted _ hp).2
  constructor
  · by_cases htop : t.node = top.address
    · exact ⟨s', htop ▸ hstep.node_self, hwinner htop⟩
    · obtain ⟨s₀, hs₀, hw⟩ := h.winner
      exact ⟨s₀, (hstep.node_ne (Ne.symm htop)).trans hs₀, hw⟩
  · refine hstep.forall_nodes (fun htop => (hfollower htop).congr (hannounced _)) ?_
    intro a s hs hat htop
    refine (h.followers a s hs htop).congr ((hannounced a).trans ⟨fun hp => hsub.subset hp, ?_⟩)
    exact fun hp => hrest _ hp hat
  · rw [hstep.flight]
    intro p hp
    obtain hp | hp := List.mem_append.1 hp
    · exact h.sent p (hsub.subset hp)
    · exact (hposted p hp).1
  · rw [hstep.flight, List.pairwise_append]
    refine ⟨h.ordered.sublist hsub, ?_, fun _ _ q hq _ _ hbody => absurd hbody (hposted q hq).2⟩
    exact List.pairwise_of_forall_mem_list fun _ _ q hq _ _ hbody => absurd hbody (hposted q hq).2

/-- The winner reads heartbeats. -/
theorem winner_receive (hwinner : Winner roster top s) (htop : t.node = top.address)
    {src : RmpAddress} {m : Bytes} (htake : takeFirst src t.node g.flight = some (m, rest))
    {env : Env} (hran : chatStep env t.locals { s with sent := [] } (.receive m src) = some (.ok s')) :
    s' = { s with sent := [] } := by
  obtain ⟨-, rfl⟩ | ⟨-, hne, -⟩ := h.sent _ (mem_of_takeFirst htake)
  · rw [chatStep_receive_leader (s := { s with sent := [] }) hwinner.role,
      leaderReceive_heartbeat] at hran
    exact (Except.ok.inj (Option.some.inj hran)).symm
  · exact absurd htop hne

/-- The others read what the winner sends. -/
theorem follower_receive (hresolved : roster.Resolved resolve) (htop_mem : top ∈ roster.members)
    (hs : g.nodes t.node = some s) (htop : t.node ≠ top.address) {src : RmpAddress} {m : Bytes}
    (htake : takeFirst src t.node g.flight = some (m, rest)) {env : Env}
    (hran : chatStep env t.locals { s with sent := [] } (.receive m src) = some (.ok s')) :
    Follower roster top t.node (⟨top.address, t.node, messageElectionVictory⟩ ∈ rest) s' ∧
      s'.sent = [] := by
  have hfollower := h.followers _ s hs htop
  obtain ⟨hdst, -⟩ | ⟨hsrc, -, hproclaimed⟩ := h.sent _ (mem_of_takeFirst htake)
  · exact absurd hdst htop
  obtain rfl : src = top.address := hsrc
  -- a message other than the announcement leaves it under way
  have hstill : m ≠ messageElectionVictory →
      (⟨top.address, t.node, messageElectionVictory⟩ ∈ rest ↔ g.Announced top t.node) := by
    intro hne
    rw [← takeFirst_eq_erase htake]
    exact List.mem_erase_of_ne fun heq => hne (congrArg Packet.body heq).symm
  rw [chatStep_receive_nonLeader (s := { s with sent := [] }) hfollower.role] at hran
  have hran := Option.some.inj hran
  obtain rfl | rfl | ⟨leader, ps, notice, rfl, hfields, hreceived⟩ := hproclaimed
  · rw [nonLeaderReceive_heartbeat] at hran
    obtain rfl := Except.ok.inj hran
    obtain ⟨hself, hrole, hunaware, haware⟩ := hfollower.congr (hstill (by decide))
    exact ⟨⟨hself, hrole, fun hp => (hunaware hp).congr rfl rfl, haware⟩, rfl⟩
  · rw [nonLeaderReceive_electionVictory] at hran
    obtain rfl := Except.ok.inj hran
    have hlists := hfollower.unaware (mem_of_takeFirst htake)
    have hlists' : roster.Lists t.node
        { s with sent := [], inElection := false, startedElection := false } :=
      hlists.congr rfl rfl
    refine ⟨⟨hfollower.self, rfl, fun _ => ?_, fun _ => ⟨rfl, ?_⟩⟩, rfl⟩
    · exact (hlists'.setLeaderBy _).congr rfl rfl
    · exact hlists'.follows_setLeaderByAddr hresolved htop_mem
  · have hne := updateText_ne_victory leader ps notice
    have hread : (⟨top.address, t.node, messageElectionVictory⟩ : Packet RmpAddress Bytes) ∉ rest :=
      fun hp => hne (pairwise_takeFirst h.ordered htake _ hp ⟨rfl, rfl⟩ rfl rfl rfl)
    obtain ⟨hidle, -⟩ := hfollower.aware fun hp => hread ((hstill hne).2 hp)
    obtain ⟨hrole, q, hq, hqfields⟩ :=
      leader_of_updateText hreceived (nonLeaderReceive_updateText hran)
    refine ⟨⟨?_, hrole.isLeader.trans hfollower.role, fun hp => absurd hp hread, fun _ => ?_⟩,
      hrole.sent⟩
    · rw [hrole.thisNickname]
      exact hfollower.self
    · exact ⟨hrole.inElection.trans hidle, q, hq, hqfields.trans hfields⟩

/-- The winner's heartbeats. -/
theorem winner_heartbeat (hresolved : roster.Resolved resolve) (htop_mem : top ∈ roster.members)
    (hstep : Group.Stepped resolve g t s s' event g.flight g') (hwinner : Winner roster top s)
    (htop : t.node = top.address)
    (hran : sendHeartbeat (g.env resolve []) t.locals { s with sent := [] } = .ok s') :
    Settled roster top g' := by
  unfold sendHeartbeat at hran
  rw [if_pos (show ({ s with sent := [] } : Node).isLeader = true from hwinner.role)] at hran
  obtain ⟨q, hleader, hfields, hreceived⟩ := hwinner.leader
  obtain ⟨first, updates, hsent⟩ := leaderSent_of_ok (s := { s with sent := [] }) hleader hran
  refine h.next hstep (List.Sublist.refl _) (fun p hp _ => hp) ?_ (fun _ => ?_)
    fun hne => absurd htop hne
  · rw [htop, hsent.sent, List.nil_append]
    intro p hp
    obtain ⟨hsrc, hdst, hbody⟩ := hsent.posted hresolved htop_mem hwinner.others hp
    obtain hbody | ⟨ps, notice, hbody⟩ := hbody
    · exact ⟨.inr ⟨hsrc, hdst, .inl hbody⟩, by rw [hbody]; decide⟩
    · refine ⟨.inr ⟨hsrc, hdst, .inr (.inr ⟨q, ps, notice, hbody, hfields, hreceived⟩)⟩, ?_⟩
      rw [hbody]
      exact updateText_ne_victory q ps notice
  · have hsame := hsent.same
    refine ⟨hsame.thisNickname.trans hwinner.nickname, hsame.isLeader.trans hwinner.role,
      hsame.inElection.trans hwinner.idle, ⟨q, hsame.leader.trans hleader, hfields, hreceived⟩, ?_⟩
    exact fun p hp => hwinner.others p ((hsent.sublist.filter _).subset hp)

/-- A heartbeat to the winner arrives. -/
theorem follower_heartbeat (hresolved : roster.Resolved resolve) (htop_mem : top ∈ roster.members)
    (hquiet : g.flight = []) (hstep : Group.Stepped resolve g t s s' event g.flight g')
    (htop : t.node ≠ top.address)
    (hran : sendHeartbeat (g.env resolve []) t.locals { s with sent := [] } = .ok s') :
    Settled roster top g' := by
  have hfollower := h.followers _ s hstep.live htop
  obtain ⟨hidle, hfollows⟩ := h.follows hquiet hstep.live
  obtain ⟨s₀, hs₀, -⟩ := h.winner
  have hstatus : (g.env resolve []).sendTo 0 top.address messageHeartbeat = 10 :=
    Group.sendTo_live (by simp [hs₀])
  have hleader : getLeaderAddr (g.env resolve []) t.locals { s with sent := [] } =
      .ok top.address := getLeaderAddr_of_follows hresolved htop_mem hfollows
  rw [sendHeartbeat_nonLeader (s := { s with sent := [] }) hfollower.role hleader,
    if_neg (by rw [List.length_nil, hstatus]; decide),
    if_neg (by rw [List.length_nil, hstatus]; decide)] at hran
  obtain rfl := Except.ok.inj hran
  refine h.next hstep (List.Sublist.refl _) (fun p hp _ => hp) ?_ (fun heq => absurd heq htop) ?_
  · intro p hp
    obtain ⟨e, he, -, -, rfl⟩ := Group.mem_posted.1 hp
    obtain rfl := List.mem_singleton.1 he
    exact ⟨.inl ⟨rfl, rfl⟩, show messageHeartbeat ≠ messageElectionVictory by decide⟩
  · rw [hquiet]
    intro _
    refine ⟨hfollower.self, hfollower.role, fun hp => ?_, fun _ => ⟨hidle, hfollows⟩⟩
    exact absurd hp List.not_mem_nil

/-- **A settled group stays settled.** -/
theorem turn (hresolved : roster.Resolved resolve) (htop_mem : top ∈ roster.members)
    (hok : Timely g t) (hs : groupStep resolve g t = some g') : Settled roster top g' := by
  obtain ⟨s, s', event, rest, hstep⟩ := stepped_of_groupStep hs
  obtain ⟨hfaults, hok⟩ := hok
  have hran := hstep.ran
  have hread := hstep.read
  rw [hfaults] at hran
  have hwinner : t.node = top.address → Winner roster top s := by
    intro htop
    obtain ⟨s₀, hs₀, hwinner⟩ := h.winner
    rw [← htop, hstep.live] at hs₀
    obtain rfl := Option.some.inj hs₀
    exact hwinner
  cases htrigger : t.trigger with
  | receive src =>
    rw [htrigger] at hread
    obtain ⟨m, rfl, htake⟩ := Group.read_receive hread
    have hrest : ∀ p ∈ g.flight, p.dst ≠ t.node → p ∈ rest := by
      intro p hp hdst
      rw [← takeFirst_eq_erase htake]
      exact (List.mem_erase_of_ne fun heq => hdst (congrArg Packet.dst heq)).2 hp
    by_cases htop : t.node = top.address
    · obtain rfl := h.winner_receive (hwinner htop) htop htake hran
      obtain ⟨h1, h2, h3, h4, h5⟩ := hwinner htop
      exact h.next hstep (takeFirst_sublist htake) hrest (by simp [Group.posted])
        (fun _ => ⟨h1, h2, h3, h4, h5⟩) fun hne => absurd htop hne
    · obtain ⟨hfollower, hsent⟩ :=
        h.follower_receive hresolved htop_mem hstep.live htop htake hran
      exact h.next hstep (takeFirst_sublist htake) hrest (by simp [hsent, Group.posted])
        (fun heq => absurd heq htop) fun _ => hfollower
  | stdin buf =>
    rw [htrigger] at hok
    exact False.elim hok
  | heartbeat =>
    rw [htrigger] at hread hok
    obtain ⟨rfl, rfl⟩ := Prod.mk.inj (Option.some.inj hread)
    obtain ⟨hidle, -⟩ := h.follows hok hstep.live
    rw [chatStep, if_neg (by simp [hidle])] at hran
    have hran := Option.some.inj hran
    by_cases htop : t.node = top.address
    · exact h.winner_heartbeat hresolved htop_mem hstep (hwinner htop) htop hran
    · exact h.follower_heartbeat hresolved htop_mem hok hstep htop hran
  | victory | restart =>
    -- nobody is in an election
    rw [htrigger] at hread hok
    obtain ⟨rfl, rfl⟩ := Prod.mk.inj (Option.some.inj hread)
    obtain ⟨hidle, -⟩ := h.follows hok hstep.live
    rw [chatStep, if_neg (by simp [hidle])] at hran
    cases hran

end Settled

/-! ## The election -/

/-- **Contention goes on until somebody wins.** -/
theorem Contending.turn (h : Contending roster crashed top g) (htop : roster.Top crashed top)
    (hresolved : roster.Resolved resolve) (hcrashed : crashed ∈ roster.members) (hok : Timely g t)
    (hs : groupStep resolve g t = some g') :
    Contending roster crashed top g' ∨ Settled roster top g' := by
  obtain ⟨s, s', event, rest, hstep⟩ := stepped_of_groupStep hs
  obtain ⟨hfaults, hok⟩ := hok
  have hran := hstep.ran
  have hread := hstep.read
  rw [hfaults] at hran
  have hcontender := h.nodes _ s hstep.live
  have hdead : g.nodes crashed.address = none := by
    rw [← Option.not_isSome_iff_eq_none, h.live]
    intro hmem
    obtain ⟨m, hm, haddr⟩ := List.mem_map.1 hmem
    obtain ⟨hm, hne⟩ := Roster.mem_survivors.1 hm
    exact hne (Roster.address_inj hm hcrashed haddr)
  cases htrigger : t.trigger with
  | receive src =>
    rw [htrigger] at hread
    obtain ⟨m, rfl, htake⟩ := Group.read_receive hread
    rw [chatStep_receive_nonLeader (s := { s with sent := [] }) hcontender.role] at hran
    have hran := Option.some.inj hran
    obtain ⟨-, c, rfl⟩ := h.calls _ (mem_of_takeFirst htake)
    cases c with
    | start =>
      rw [callText, nonLeaderReceive_startElection] at hran
      exact .inl (h.receive_start htop hresolved hstep htake hran)
    | stop =>
      rw [callText, nonLeaderReceive_stopElection] at hran
      obtain rfl := Except.ok.inj hran
      exact .inl (h.receive_stop htop hstep htake)
  | stdin buf =>
    rw [htrigger] at hok
    exact False.elim hok
  | heartbeat =>
    rw [htrigger] at hread hok
    obtain ⟨rfl, rfl⟩ := Prod.mk.inj (Option.some.inj hread)
    simp only [chatStep] at hran
    split at hran
    · cases hran
    · obtain ⟨log, hs', hlog⟩ := Contender.sendHeartbeat (hcontender.congr [] _ _) hresolved hcrashed
        hdead (Option.some.inj hran)
      refine .inl (h.start htop hresolved hstep hs' ?_ ⟨hlog.entries, hlog.reached⟩)
      simp [Group.posted, hdead]
  | victory =>
    rw [htrigger] at hread hok
    obtain ⟨rfl, rfl⟩ := Prod.mk.inj (Option.some.inj hread)
    simp only [chatStep] at hran
    split at hran
    · next hguard =>
      exact .inr (h.victory hresolved hstep hok hok hguard.2.2 (Option.some.inj hran))
    · cases hran
  | restart =>
    rw [htrigger] at hread hok
    obtain ⟨rfl, rfl⟩ := Prod.mk.inj (Option.some.inj hread)
    simp only [chatStep] at hran
    split at hran
    · obtain ⟨log, hs', hlog⟩ := startElection_ok (Option.some.inj hran)
      exact .inl (h.start htop hresolved hstep hs' rfl ⟨hlog.entries, hlog.reached⟩)
    · cases hran

theorem phase_of_reach (htop : roster.Top crashed top) (hresolved : roster.Resolved resolve)
    (h : Reach (groupStep resolve) Timely (Group.Bereft roster crashed) g) :
    Contending roster crashed top g ∨ Settled roster top g := by
  have hcrashed : ∀ g, Reach (groupStep resolve) Timely (Group.Bereft roster crashed) g →
      crashed ∈ roster.members := by
    intro g hg
    exact hg.invariant (I := fun _ => crashed ∈ roster.members) (fun _ h0 => h0.crashed_mem)
      fun _ _ _ hI _ _ => hI
  refine h.invariant_of (I := fun g => Contending roster crashed top g ∨ Settled roster top g)
    hcrashed (fun _ h0 => .inl (h0.contending top)) ?_
  intro g t g' hcrashed hphase hok hs
  obtain hcontending | hsettled := hphase
  · exact hcontending.turn htop hresolved hcrashed hok hs
  · exact .inr (hsettled.turn hresolved (Roster.mem_survivors.1 htop.mem).1 hok hs)

/-- **The bully election**: after a crash of the leader, and with messages that outrun the timers,
whenever nothing is under way there is at most one leader; its nickname is greater than that of
every other survivor, they all have it as their leader, and none of them is in an election. -/
theorem greatest_elected (hresolved : roster.Resolved resolve)
    (h : Reach (groupStep resolve) Timely (Group.Bereft roster crashed) g) (hquiet : g.flight = []) :
    g.SingleLeader ∧ ∀ a s, g.nodes a = some s → s.isLeader = true → ∀ b s', g.nodes b = some s' →
      (b ≠ a → 0 < strcmp s.thisNickname s'.thisNickname) ∧ s'.inElection = false := by
  have hlive := isSome_nodes_of_reach (fun _ h0 => h0.live) h
  -- what the two phases say about a leader
  have hleader : ∀ a s, g.nodes a = some s → s.isLeader = true → ∃ top, roster.Top crashed top ∧
      Settled roster top g ∧ a = top.address ∧ s.thisNickname = top.nickname := by
    intro a s hs hl
    obtain ⟨m, hm, -⟩ := List.mem_map.1 ((hlive a).1 (by simp [hs]))
    obtain ⟨top, htop⟩ := Roster.exists_top hm
    obtain hcontending | hsettled := phase_of_reach htop hresolved h
    · rw [(hcontending.nodes a s hs).role] at hl
      cases hl
    · refine ⟨top, htop, hsettled, ?_⟩
      have ha : a = top.address := by
        by_contra hne
        rw [(hsettled.followers a s hs hne).role] at hl
        cases hl
      obtain ⟨s₀, hs₀, hwinner⟩ := hsettled.winner
      rw [← ha, hs] at hs₀
      obtain rfl := Option.some.inj hs₀
      exact ⟨ha, hwinner.nickname⟩
  constructor
  · intro a s hs hl b s' hs'
    obtain ⟨top, -, hsettled, rfl, hnick⟩ := hleader a s hs hl
    constructor
    · intro hl'
      by_contra hne
      rw [(hsettled.followers b s' hs' hne).role] at hl'
      cases hl'
    · obtain ⟨-, q, hq, hfields⟩ := hsettled.follows hquiet hs'
      exact ⟨q, hq, (Prod.mk.inj hfields).1.trans hnick.symm⟩
  · intro a s hs hl b s' hs'
    obtain ⟨top, htop, hsettled, rfl, hnick⟩ := hleader a s hs hl
    refine ⟨fun hne => ?_, (hsettled.follows hquiet hs').1⟩
    have hself := (hsettled.followers b s' hs' hne).self
    obtain ⟨m, hm, haddr⟩ := List.mem_map.1 ((hlive b).1 (by simp [hs']))
    rw [Roster.address_inj (Roster.mem_survivors.1 hm).1 hself haddr] at hm
    have hmem := (Roster.mem_survivors.1 htop.mem).1
    rw [hnick, strcmp_pos (roster.no_nul top hmem) (roster.no_nul _ hself)]
    exact htop.outranks _ hm fun heq => hne (congrArg Member.address heq)

end

/-- The leader `c`, and `a` and `b`. -/
def threeMembers : Roster where
  members := [⟨localHost 82, str "c"⟩, ⟨localHost 80, str "a"⟩, ⟨localHost 81, str "b"⟩]
  addresses_nodup := by decide
  nicknames_nodup := by decide
  no_nul := by decide

/-- `a` and `b` after a crash of `c`. -/
def orphans : Group := Group.ofList
  [(localHost 80, threeMembers.atRest ⟨localHost 80, str "a"⟩ false),
    (localHost 81, threeMembers.atRest ⟨localHost 81, str "b"⟩ false)]

theorem delivered_atRest (m : Member) : Delivered (threeMembers.atRest m false) := by
  obtain ⟨s₁, hs₁, hmap⟩ := Option.map_eq_some_iff.1
    (show (processParticipantUpdate (Node.modelInit (str "a") false)
          (str "PARTICIPANT_UPDATE @c:127.0.0.1:82 a:127.0.0.1:80 b:127.0.0.1:81 = ") true).toOption.map
        (fun s => s.participants.map Participant.toPeer) =
      some ((threeMembers.atRest ⟨localHost 80, str "a"⟩ false).participants.map
        Participant.toPeer) by decide)
  exact ⟨_, _, _, s₁, Fault.toOption_eq_some.1 hs₁, hmap.symm⟩

theorem bereft_orphans : orphans.Bereft threeMembers ⟨localHost 82, str "c"⟩ where
  crashed_mem := by decide
  live := Group.isSome_ofList
  lists := by
    apply Group.forall_ofList
    simp only [List.forall_mem_cons]
    exact ⟨⟨by decide, by decide⟩, ⟨by decide, by decide⟩, by simp⟩
  delivered := by
    apply Group.forall_ofList
    simp only [List.forall_mem_cons]
    exact ⟨delivered_atRest _, delivered_atRest _, by simp⟩
  role := Group.forall_ofList (by decide)
  follows := by
    apply Group.forall_ofList
    simp only [List.forall_mem_cons]
    exact ⟨⟨_, rfl, rfl⟩, ⟨_, rfl, rfl⟩, by simp⟩
  idle := Group.forall_ofList (by decide)
  flight := rfl

/-- `a` starts an election, `b` stops it and wins its own. -/
def succession : List Turn :=
  [⟨localHost 80, .heartbeat, [], .blank⟩,
    ⟨localHost 81, .receive (localHost 80), [], .blank⟩,
    ⟨localHost 80, .receive (localHost 81), [], .blank⟩,
    ⟨localHost 80, .receive (localHost 81), [], .blank⟩,
    ⟨localHost 81, .victory, [], .blank⟩,
    ⟨localHost 80, .receive (localHost 81), [], .blank⟩,
    ⟨localHost 80, .receive (localHost 81), [], .blank⟩,
    ⟨localHost 80, .receive (localHost 81), [], .blank⟩]

theorem greatest_elected_succession :
    ∃ g : Group, (g.nodes (localHost 81)).map Node.isLeader = some true ∧
      (g.nodes (localHost 80)).map Node.isLeader = some false ∧ g.SingleLeader ∧
      ∀ a s, g.nodes a = some s → s.isLeader = true → ∀ b s', g.nodes b = some s' →
        (b ≠ a → 0 < strcmp s.thisNickname s'.thisNickname) ∧ s'.inElection = false := by
  obtain ⟨g, hg, hres⟩ := Option.map_eq_some_iff.1
    (show (exec (groupStep loopbackAddress) Timely orphans succession).map
        (fun g => (g.flight, (g.nodes (localHost 81)).map Node.isLeader,
          (g.nodes (localHost 80)).map Node.isLeader)) =
      some ([], some true, some false) by decide)
  obtain ⟨hquiet, hres⟩ := Prod.mk.inj hres
  obtain ⟨hb, ha⟩ := Prod.mk.inj hres
  have hresolved : threeMembers.Resolved loopbackAddress := by
    unfold Roster.Resolved
    decide
  exact ⟨g, hb, ha,
    greatest_elected hresolved (reach_exec _ (.start bereft_orphans) hg) hquiet⟩

end Dchat.Chat
