import Dchat.Chat.Group
import Dchat.Foundations.Outranking
import Mathlib.Data.Finset.Max
import Mathlib.Data.List.Lex

/-!
# Contending for the lead

The runs of a group whose leader has crashed (`Group.Bereft`), with messages that outrun the timers
(`Timely`), up to the declaration of victory.

While the survivors are `Contending`, `Group.campaign` reads off the group who has
`started_election` and which calls are under way, and every turn is a move of the algorithm of
`Dchat.Outranking`: a timer is a campaign (`Contending.start`), a START_ELECTION is outranked or
heeded (`Contending.receive_start`), an ELECTION_STOP halts (`Contending.receive_stop`).
`Contending.next` then has the invariant `Objected` of that algorithm for the group.
-/

namespace Dchat.Chat

open CString Stdio RMP Links Runs Outranking

/-! ## The survivors -/

/-- The rank of a member. -/
def Member.rank (m : Member) : List ℕ := CString.rank m.nickname

namespace Roster

variable {roster : Roster} {crashed : Member}

/-- The members that are left. -/
def survivors (roster : Roster) (crashed : Member) : List Member :=
  roster.members.filter fun m => m ≠ crashed

theorem mem_survivors {m : Member} :
    m ∈ roster.survivors crashed ↔ m ∈ roster.members ∧ m ≠ crashed := by simp [survivors]

/-- The greatest survivor. -/
structure Top (roster : Roster) (crashed top : Member) : Prop where
  mem : top ∈ roster.survivors crashed
  outranks : ∀ m ∈ roster.survivors crashed, m ≠ top → m.rank < top.rank

theorem exists_top {m : Member} (hm : m ∈ roster.survivors crashed) :
    ∃ top, roster.Top crashed top := by
  obtain ⟨top, htop, hmax⟩ := Finset.exists_max_image (roster.survivors crashed).toFinset Member.rank
    ⟨m, List.mem_toFinset.2 hm⟩
  rw [List.mem_toFinset] at htop
  refine ⟨top, htop, fun m' hm' hne => ?_⟩
  refine lt_of_le_of_ne (hmax m' (List.mem_toFinset.2 hm')) fun heq => hne ?_
  exact nickname_inj (mem_survivors.1 hm').1 (mem_survivors.1 htop).1 (rank_injective heq)

end Roster

/-- The list of a node came with a PARTICIPANT_UPDATE, as that of any node that is not the leader;
only flags have changed since. -/
def Delivered (s : Node) : Prop :=
  ∃ s₀ command joining s₁, processParticipantUpdate s₀ command joining = .ok s₁ ∧
    s.participants.map Participant.toPeer = s₁.participants.map Participant.toPeer

theorem Delivered.received {s : Node} (h : Delivered s) {p : Participant} (hp : p ∈ s.participants) :
    p.Received := by
  obtain ⟨s₀, command, joining, s₁, hproc, hmap⟩ := h
  have hmem : p.toPeer ∈ s₁.participants.map Participant.toPeer := hmap ▸ List.mem_map_of_mem hp
  obtain ⟨p₁, hp₁, heq⟩ := List.mem_map.1 hmem
  exact heq ▸ received_of_processParticipantUpdate hproc p₁ hp₁

/-- A group whose leader has crashed, with everyone else alive. -/
structure Group.Bereft (roster : Roster) (crashed : Member) (g : Group) : Prop where
  crashed_mem : crashed ∈ roster.members
  live : ∀ a, (g.nodes a).isSome ↔ a ∈ (roster.survivors crashed).map Member.address
  lists : ∀ a s, g.nodes a = some s → roster.Lists a s
  delivered : ∀ a s, g.nodes a = some s → Delivered s
  role : ∀ a s, g.nodes a = some s → s.isLeader = false
  follows : ∀ a s, g.nodes a = some s → Follows s crashed
  idle : ∀ a s, g.nodes a = some s → s.inElection = false ∧ s.startedElection = false
  flight : g.flight = []

/-- Messages outrun timers: a timer fires only when nothing is under way. There is no input. -/
def Group.Admits (g : Group) : Trigger → Prop
  | .receive _ => True
  | .stdin _ => False
  | .heartbeat => g.flight = []
  | .victory => g.flight = []
  | .restart => g.flight = []

/-- No call of `RMP_sendTo` fails that need not, and messages outrun timers. -/
def Timely (g : Group) (t : Turn) : Prop := t.faults = [] ∧ g.Admits t.trigger

instance (g : Group) : DecidablePred g.Admits
  | .receive _ => inferInstanceAs (Decidable True)
  | .stdin _ => inferInstanceAs (Decidable False)
  | .heartbeat => inferInstanceAs (Decidable (g.flight = []))
  | .victory => inferInstanceAs (Decidable (g.flight = []))
  | .restart => inferInstanceAs (Decidable (g.flight = []))

instance (g : Group) (t : Turn) : Decidable (Timely g t) :=
  inferInstanceAs (Decidable (t.faults = [] ∧ g.Admits t.trigger))

/-! ## Contention -/

/-- The text of a call. -/
def callText : Call → Bytes
  | .start => messageStartElection
  | .stop => messageStopElection

theorem callText_inj {c c' : Call} (h : callText c = callText c') : c = c' := by
  cases c <;> cases c' <;> first | rfl | exact absurd h (by decide)

/-- Who campaigns in a group, and the calls that are under way in it. -/
def Group.campaign (roster : Roster) (g : Group) : Campaign Member where
  campaigning := {m | m ∈ roster.members ∧
    ∃ s, g.nodes m.address = some s ∧ s.startedElection = true}
  pending := {x | x.2.1 ∈ roster.members ∧ x.2.2 ∈ roster.members ∧
    ⟨x.2.1.address, x.2.2.address, callText x.1⟩ ∈ g.flight}

/-- A node that has not heard of a new leader. -/
structure Contender (roster : Roster) (crashed : Member) (a : RmpAddress) (s : Node) : Prop where
  lists : roster.Lists a s
  received : ∀ p ∈ s.participants, p.Received
  role : s.isLeader = false
  follows : Follows s crashed

theorem Contender.congr {roster : Roster} {crashed : Member} {a : RmpAddress} {s : Node}
    (h : Contender roster crashed a s) (sent : List Sent) (inElection startedElection : Bool) :
    Contender roster crashed a { s with
      sent := sent, inElection := inElection, startedElection := startedElection } :=
  ⟨h.lists.congr rfl rfl, h.received, h.role, h.follows⟩

/-- Nobody has won yet, and everyone but `top` who campaigns is objected to. -/
structure Contending (roster : Roster) (crashed top : Member) (g : Group) : Prop where
  live : ∀ a, (g.nodes a).isSome ↔ a ∈ (roster.survivors crashed).map Member.address
  nodes : ∀ a s, g.nodes a = some s → Contender roster crashed a s
  calls : ∀ p ∈ g.flight, (g.nodes p.src).isSome ∧ ∃ c, p.body = callText c
  objected : Objected top (g.campaign roster)

theorem Group.Bereft.contending {roster : Roster} {crashed : Member} {g : Group}
    (h : g.Bereft roster crashed) (top : Member) : Contending roster crashed top g where
  live := h.live
  nodes a s hs :=
    ⟨h.lists a s hs, fun _ hp => (h.delivered a s hs).received hp, h.role a s hs, h.follows a s hs⟩
  calls := by simp [h.flight]
  objected := by
    rintro m ⟨-, s, hs, hstarted⟩ -
    rw [(h.idle _ s hs).2] at hstarted
    cases hstarted

section Calls

variable {roster : Roster} {crashed : Member} {resolve : Bytes → Bytes → Option RmpAddress}
  {g g' : Group} {a : RmpAddress} {s : Node} {message : Bytes} {log : List Sent}

/-- A broadcast as a non-leader reaches every other member that is alive. -/
theorem NonleaderSent.mem_posted
    (hlog : NonleaderSent (g.env resolve []) s message s.participants log)
    (hresolved : roster.Resolved resolve) (hlists : roster.Lists a s) {m : Member}
    (hm : m ∈ roster.members) (hne : m.address ≠ a) (hlive : (g.nodes m.address).isSome) :
    ⟨a, m.address, message⟩ ∈ g.posted a log := by
  obtain ⟨p, hp, hfields⟩ := hlists.exists_participant hm
  have hnick : p.nickname = m.nickname := (Prod.mk.inj hfields).1
  have hother : strcmp s.thisNickname p.nickname ≠ 0 := by
    rw [hnick, ne_eq, strcmp_eq_zero (roster.no_nul _ hlists.self) (roster.no_nul m hm)]
    intro heq
    exact hne (congrArg Member.address (Roster.nickname_inj hm hlists.self heq.symm))
  obtain ⟨e, he, hdst⟩ := hlog.reached p hp hother
  obtain ⟨hmessage, ⟨k, hres⟩, -⟩ := hlog.entries e he
  rw [Group.env_getAddressFor, hresolved.of_fields hm hfields] at hdst
  have hdst := Option.some.inj hdst
  rw [hdst] at hlive ⊢
  refine Group.mem_posted.2 ⟨e, he, ?_, hlive, by rw [hmessage]⟩
  rw [hres, Group.sendTo_live hlive]
  omega

theorem NonleaderSent.body_posted {env : Env}
    (hlog : NonleaderSent env s message s.participants log) {p : Packet RmpAddress Bytes}
    (hp : p ∈ g.posted a log) : p.body = message := by
  obtain ⟨e, he, -, -, rfl⟩ := Group.mem_posted.1 hp
  exact (hlog.entries e he).1

/-- A turn starts no campaign but that of the node whose turn it is. -/
theorem Group.Stepped.campaigning_subset {t : Turn} {s' : Node} {event : Event}
    {rest : List (Packet RmpAddress Bytes)} (h : Group.Stepped resolve g t s s' event rest g')
    {i : Member} (hi : i ∈ roster.members) (hit : i.address = t.node) :
    (g'.campaign roster).campaigning ⊆ insert i (g.campaign roster).campaigning := by
  rintro m ⟨hm, s₁, hs₁, hstarted⟩
  by_cases hmt : m.address = t.node
  · exact .inl (Roster.address_inj hm hi (hmt.trans hit.symm))
  · exact .inr ⟨hm, s₁, (h.node_ne hmt).symm.trans hs₁, hstarted⟩

/-- A node that is left without `started_election` does not campaign. -/
theorem Group.Stepped.campaigning_subset_diff {t : Turn} {s' : Node} {event : Event}
    {rest : List (Packet RmpAddress Bytes)} (h : Group.Stepped resolve g t s s' event rest g')
    {i : Member} (hi : i ∈ roster.members) (hit : i.address = t.node)
    (hstarted : s'.startedElection = false) :
    (g'.campaign roster).campaigning ⊆ (g.campaign roster).campaigning \ {i} := by
  intro m hm
  have hne : m ≠ i := by
    rintro rfl
    obtain ⟨-, s₁, hs₁, hstarted₁⟩ := hm
    rw [hit, h.node_self] at hs₁
    obtain rfl := Option.some.inj hs₁
    rw [hstarted] at hstarted₁
    cases hstarted₁
  exact ⟨(h.campaigning_subset hi hit hm).resolve_left hne, hne⟩

/-- What is under way stays so, but for the packet that is read. -/
theorem pending_subset {i j : Member} (hi : i ∈ roster.members) (hj : j ∈ roster.members) {c : Call}
    {rest posted : List (Packet RmpAddress Bytes)}
    (htake : takeFirst i.address j.address g.flight = some (callText c, rest))
    (hflight : g'.flight = rest ++ posted) :
    (g.campaign roster).pending \ {(c, i, j)} ⊆ (g'.campaign roster).pending := by
  rintro ⟨c', k, l⟩ ⟨⟨hk, hl, hmem⟩, hne⟩
  refine ⟨hk, hl, ?_⟩
  rw [hflight, ← takeFirst_eq_erase htake]
  refine List.mem_append_left _ ((List.mem_erase_of_ne fun heq => hne ?_).2 hmem)
  obtain ⟨hsrc, hdst, hbody⟩ := (Packet.mk.injEq ..).mp heq
  obtain rfl : k = i := Roster.address_inj hk hi hsrc
  obtain rfl : l = j := Roster.address_inj hl hj hdst
  obtain rfl : c' = c := callText_inj hbody
  rfl

/-- What is posted to a member is under way. -/
theorem mem_pending {i j : Member} (hi : i ∈ roster.members) (hj : j ∈ roster.members) {c : Call}
    {rest posted : List (Packet RmpAddress Bytes)} (hflight : g'.flight = rest ++ posted)
    (h : ⟨i.address, j.address, callText c⟩ ∈ posted) :
    (c, i, j) ∈ (g'.campaign roster).pending :=
  ⟨hi, hj, by rw [hflight]; exact List.mem_append_right _ h⟩

end Calls

/-- The pointer `leader` leads to the member that the node follows. -/
theorem getLeaderAddr_of_follows {roster : Roster} {resolve : Bytes → Bytes → Option RmpAddress}
    {g : Group} {faults : List (ℕ × ℤ)} {locals : Locals} {s : Node} {m : Member}
    (hresolved : roster.Resolved resolve) (hm : m ∈ roster.members) (h : Follows s m) :
    getLeaderAddr (g.env resolve faults) locals s = .ok m.address := by
  obtain ⟨q, hq, hfields⟩ := h
  unfold getLeaderAddr
  rw [hq, Group.env_getAddressFor]
  dsimp only
  rw [hresolved.of_fields hm hfields]
  rfl

section Contention

variable {roster : Roster} {crashed top : Member} {resolve : Bytes → Bytes → Option RmpAddress}
  {g g' : Group} {t : Turn} {s s' : Node} {event : Event}
  {rest : List (Packet RmpAddress Bytes)}

/-- A heartbeat to the crashed leader starts an election. -/
theorem Contender.sendHeartbeat {a : RmpAddress} {locals : Locals}
    (hs : Contender roster crashed a s) (hresolved : roster.Resolved resolve)
    (hcrashed : crashed ∈ roster.members) (hdead : g.nodes crashed.address = none)
    (h : sendHeartbeat (g.env resolve []) locals s = .ok s') :
    ∃ log, s' = { s with
        sent := s.sent ++ [⟨crashed.address, messageHeartbeat, rmpETimeout⟩] ++ log
        inElection := true
        startedElection := true } ∧
      NonleaderSent (g.env resolve []) s messageStartElection s.participants log := by
  have hstatus : (g.env resolve []).sendTo s.sent.length crashed.address messageHeartbeat =
      rmpETimeout := Group.sendTo_dead hdead
  rw [sendHeartbeat_nonLeader hs.role (getLeaderAddr_of_follows hresolved hcrashed hs.follows),
    if_pos hstatus] at h
  obtain ⟨log, rfl, hlog⟩ := startElection_ok h
  rw [← hstatus]
  exact ⟨log, rfl, hlog.entries, hlog.reached⟩

namespace Contending

variable (h : Contending roster crashed top g)

include h

theorem self_survivor {a : RmpAddress} (hs : g.nodes a = some s) :
    ⟨a, s.thisNickname⟩ ∈ roster.survivors crashed := by
  obtain ⟨i, hi, rfl⟩ := List.mem_map.1 ((h.live a).1 (by simp [hs]))
  rwa [← Roster.address_inj (Roster.mem_survivors.1 hi).1 (h.nodes _ s hs).lists.self rfl]

theorem campaigning_subset :
    (g.campaign roster).campaigning ⊆ {m | m ∈ roster.survivors crashed} := by
  rintro m ⟨hm, s, hs, -⟩
  have hself := h.self_survivor hs
  rwa [Roster.address_inj (Roster.mem_survivors.1 hself).1 hm rfl] at hself

/-- **The phase goes on** through a move of the algorithm. -/
theorem next (htop : roster.Top crashed top) (hstep : Group.Stepped resolve g t s s' event rest g')
    (hrest : ∀ p ∈ rest, p ∈ g.flight) (hself : Contender roster crashed t.node s')
    (hposted : ∀ p ∈ g.posted t.node s'.sent, ∃ c, p.body = callText c)
    (hmove : Move Member.rank {m | m ∈ roster.survivors crashed} (g.campaign roster)
      (g'.campaign roster)) : Contending roster crashed top g' where
  live a := by rw [hstep.isSome_nodes, h.live]
  nodes := hstep.forall_nodes hself fun a s hs _ => h.nodes a s hs
  calls := by
    intro p hp
    rw [hstep.flight] at hp
    rw [hstep.isSome_nodes]
    obtain hp | hp := List.mem_append.1 hp
    · exact h.calls p (hrest p hp)
    · obtain ⟨e, -, -, -, rfl⟩ := Group.mem_posted.1 hp
      exact ⟨by simp [hstep.live], hposted _ hp⟩
  objected := h.objected.move htop.mem htop.outranks h.campaigning_subset hmove

/-- The calls of a node that starts an election are under way. -/
theorem mem_pending_start (hresolved : roster.Resolved resolve) {i : Member}
    (hi : i ∈ roster.survivors crashed) (hlists : roster.Lists i.address s) {log : List Sent}
    (hlog : NonleaderSent (g.env resolve []) s messageStartElection s.participants log)
    {posted : List (Packet RmpAddress Bytes)}
    (hflight : g'.flight = posted ++ g.posted i.address log) :
    ∀ j ∈ roster.survivors crashed, j ≠ i → (Call.start, i, j) ∈ (g'.campaign roster).pending := by
  intro j hj hne
  have hi := (Roster.mem_survivors.1 hi).1
  have hlive : (g.nodes j.address).isSome := (h.live j.address).2 (List.mem_map_of_mem hj)
  have hj := (Roster.mem_survivors.1 hj).1
  have hne' : j.address ≠ i.address := fun heq => hne (Roster.address_inj hj hi heq)
  exact mem_pending hi hj hflight (hlog.mem_posted hresolved hlists hj hne' hlive)

/-- A timer that starts an election is a campaign. -/
theorem start (htop : roster.Top crashed top) (hresolved : roster.Resolved resolve)
    (hstep : Group.Stepped resolve g t s s' event g.flight g') {first log : List Sent}
    (hs' : s' = { s with sent := first ++ log, inElection := true, startedElection := true })
    (hfirst : g.posted t.node first = [])
    (hlog : NonleaderSent (g.env resolve []) s messageStartElection s.participants log) :
    Contending roster crashed top g' := by
  have hcontender := h.nodes _ s hstep.live
  have hself := h.self_survivor hstep.live
  have hposted : g.posted t.node s'.sent = g.posted t.node log := by
    rw [hs', Group.posted_append, hfirst, List.nil_append]
  have hflight := hstep.flight
  rw [hposted] at hflight
  refine h.next htop hstep (fun _ hp => hp) (hs' ▸ hcontender.congr ..) ?_ ?_
  · intro p hp
    rw [hposted] at hp
    exact ⟨.start, hlog.body_posted hp⟩
  · apply Move.campaign ⟨t.node, s.thisNickname⟩
    · exact hstep.campaigning_subset hcontender.lists.self rfl
    · rintro x ⟨hsrc, hdst, hx⟩
      exact ⟨hsrc, hdst, by rw [hflight]; exact List.mem_append_left _ hx⟩
    · exact h.mem_pending_start hresolved hself hcontender.lists hlog hflight

/-- A START_ELECTION is outranked or heeded. -/
theorem receive_start (htop : roster.Top crashed top) (hresolved : roster.Resolved resolve)
    (hstep : Group.Stepped resolve g t s s' event rest g') {src : RmpAddress}
    (htake : takeFirst src t.node g.flight = some (messageStartElection, rest))
    (hran : respondToLeaderElection (g.env resolve []) t.locals { s with sent := [] } src = .ok s') :
    Contending roster crashed top g' := by
  have hcontender := h.nodes _ s hstep.live
  have hself := h.self_survivor hstep.live
  have hi := hcontender.lists.self
  have hrest : ∀ p ∈ rest, p ∈ g.flight := fun _ hp => (takeFirst_sublist htake).subset hp
  have hresolve : ∀ p ∈ s.participants, ∃ m ∈ roster.members, p.nickname = m.nickname ∧
      (g.env resolve []).getAddressFor p.ipAddress p.portNum = some m.address := by
    intro p hp
    obtain ⟨m, hm, hfields⟩ := hcontender.lists.exists_member hp
    exact ⟨m, hm, (Prod.mk.inj hfields).1, hresolved.of_fields hm hfields⟩
  obtain ⟨p, hp, haddr, hcase⟩ := respondToLeaderElection_ok (fun p hp => by
    obtain ⟨m, -, -, haddr⟩ := hresolve p hp
    rw [haddr]
    rfl) hran
  -- the sender
  obtain ⟨m, hm, hnick, haddr'⟩ := hresolve p hp
  obtain rfl : m.address = src := Option.some.inj (haddr'.symm.trans haddr)
  have hrank : 0 < strcmp s.thisNickname p.nickname ↔
      m.rank < (⟨t.node, s.thisNickname⟩ : Member).rank := by
    rw [hnick, strcmp_pos (roster.no_nul _ hi) (roster.no_nul m hm)]
    rfl
  have hpending : (g.campaign roster).pending \ {(.start, m, ⟨t.node, s.thisNickname⟩)} ⊆
      (g'.campaign roster).pending := pending_subset hm hi htake hstep.flight
  obtain ⟨hpos, log, stop, hdst, hmessage, ⟨k, hres⟩, rfl, hlog⟩ | ⟨hpos, rfl⟩ := hcase
  · have hlive := (h.calls _ (mem_of_takeFirst htake)).1
    have hflight := hstep.flight
    rw [List.nil_append, ← List.singleton_append, Group.posted_append] at hflight
    have hstop : ⟨t.node, m.address, messageStopElection⟩ ∈ g.posted t.node [stop] := by
      refine Group.mem_posted.2 ⟨stop, by simp, ?_, hdst ▸ hlive, by rw [hdst, hmessage]⟩
      rw [hres, Group.sendTo_live hlive]
      omega
    refine h.next htop hstep hrest (hcontender.congr ..) ?_ ?_
    · intro q hq
      rw [List.nil_append, ← List.singleton_append, Group.posted_append] at hq
      obtain hq | hq := List.mem_append.1 hq
      · obtain ⟨e, he, -, -, rfl⟩ := Group.mem_posted.1 hq
        obtain rfl := List.mem_singleton.1 he
        exact ⟨.stop, hmessage⟩
      · exact ⟨.start, NonleaderSent.body_posted ⟨hlog.entries, hlog.reached⟩ hq⟩
    · apply Move.outrank m ⟨t.node, s.thisNickname⟩ (hrank.1 hpos)
      · exact hstep.campaigning_subset hi rfl
      · exact hpending
      · exact mem_pending hi hm hstep.flight (by
          rw [List.nil_append, ← List.singleton_append, Group.posted_append]
          exact List.mem_append_left _ hstop)
      · rw [← List.append_assoc] at hflight
        exact h.mem_pending_start hresolved hself hcontender.lists ⟨hlog.entries, hlog.reached⟩
          hflight
  · refine h.next htop hstep hrest (hcontender.congr ..) (by simp [Group.posted]) ?_
    apply Move.heed m ⟨t.node, s.thisNickname⟩ fun hlt => hpos (hrank.2 hlt)
    · exact hstep.campaigning_subset_diff hi rfl rfl
    · exact hpending

/-- An ELECTION_STOP halts. -/
theorem receive_stop (htop : roster.Top crashed top)
    (hstep : Group.Stepped resolve g t s (stopElection { s with sent := [] }) event rest g')
    {src : RmpAddress} (htake : takeFirst src t.node g.flight = some (messageStopElection, rest)) :
    Contending roster crashed top g' := by
  have hcontender := h.nodes _ s hstep.live
  obtain ⟨s₁, hs₁⟩ := Option.isSome_iff_exists.1 (h.calls _ (mem_of_takeFirst htake)).1
  have hrest : ∀ p ∈ rest, p ∈ g.flight := fun _ hp => (takeFirst_sublist htake).subset hp
  refine h.next htop hstep hrest (hcontender.congr ..) (by simp [Group.posted, stopElection]) ?_
  apply Move.halt ⟨src, s₁.thisNickname⟩ ⟨t.node, s.thisNickname⟩
  · exact hstep.campaigning_subset_diff hcontender.lists.self rfl rfl
  · exact pending_subset (h.nodes _ s₁ hs₁).lists.self hcontender.lists.self htake hstep.flight

end Contending

end Contention

end Dchat.Chat
