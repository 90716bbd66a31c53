import Dchat.Chat.Contested
import Mathlib.Algebra.BigOperators.Group.List.Basic
import Mathlib.Algebra.GroupWithZero.Nat

/-!
# Cascades of election messages

A START_ELECTION that reaches a node of higher rank than its sender is answered by an ELECTION_STOP
and a START_ELECTION to everybody: the messages may become more before they become fewer. A group is
`Cascading` if nothing but such messages is under way between its members; `cascadeStep` lets any
one of them be processed next.

* `Roster.level` counts the members that outrank a member, and `Roster.weight` is a
  weight of messages by the level of the sender such that an answer weighs less than
  what it answers (`load_answer_lt`).
* `cascade_dies_out`: in whatever order the messages are processed, none of them ends a process, and
  after finitely many steps nothing is under way.
-/

namespace Dchat.Chat

open CString Stdio RMP Links Runs

/-! ## The steps -/

/-- One message, at any place in the list of those under way, is processed: no timer fires, and no
call of `RMP_sendTo` to a process fails. -/
def cascadeStep (resolve : Bytes → Bytes → Option RmpAddress) (g : Group) (l : ℕ × Locals) :
    Option Group := do
  let p ← g.flight[l.1]?
  let s ← g.nodes p.dst
  let result ← chatStep (g.env resolve []) l.2 { s with sent := [] } (.receive p.body p.src)
  let s' ← result.toOption
  some {
    nodes := Function.update g.nodes p.dst (some s')
    flight := g.flight.eraseIdx l.1 ++ g.posted p.dst s'.sent
    declared := g.declared }

/-- A group with all members alive and agreeing lists, whatever the flags and the roles of the
nodes, with election messages between its members under way. -/
structure Group.Cascading (roster : Roster) (g : Group) : Prop where
  live : ∀ a, (g.nodes a).isSome ↔ a ∈ roster.members.map Member.address
  lists : ∀ a s, g.nodes a = some s → roster.Lists a s
  calls : ∀ p ∈ g.flight, (p.body = messageStartElection ∨ p.body = messageStopElection) ∧
    (g.nodes p.src).isSome ∧ (g.nodes p.dst).isSome

/-! ## Weights -/

namespace Roster

variable {roster : Roster}

/-- The members that outrank the member at `a`. -/
def above (roster : Roster) (a : RmpAddress) : List Member :=
  roster.members.filter fun m' =>
    roster.members.any fun m => m.address = a ∧ 0 < strcmp m'.nickname m.nickname

/-- One more than the number of members that outrank the member at `a`. -/
def level (roster : Roster) (a : RmpAddress) : ℕ := (roster.above a).length + 1

/-- A START_ELECTION weighs more than all that an answer to it can contain. -/
def weight (roster : Roster) (p : Packet RmpAddress Bytes) : ℕ :=
  if p.body = messageStartElection then (roster.members.length + 2) ^ roster.level p.src else 1

/-- The weight of all that is under way. -/
def load (roster : Roster) (ps : List (Packet RmpAddress Bytes)) : ℕ :=
  (ps.map roster.weight).sum

theorem mem_above {m m' : Member} (hm : m ∈ roster.members) :
    m' ∈ roster.above m.address ↔ m' ∈ roster.members ∧ 0 < strcmp m'.nickname m.nickname := by
  simp only [above, List.mem_filter, List.any_eq_true, decide_eq_true_eq]
  refine and_congr_right fun hm' => ?_
  constructor
  · rintro ⟨m₁, hm₁, haddr, hpos⟩
    exact address_inj hm₁ hm haddr ▸ hpos
  · intro hpos
    exact ⟨m, hm, rfl, hpos⟩

/-- **A member that outranks another has a lower level.** -/
theorem level_lt {m m' : Member} (hm : m ∈ roster.members) (hm' : m' ∈ roster.members)
    (hpos : 0 < strcmp m'.nickname m.nickname) : roster.level m'.address < roster.level m.address := by
  have hrank := (strcmp_pos (roster.no_nul _ hm') (roster.no_nul _ hm)).1 hpos
  have hself : m' ∉ roster.above m'.address := by
    intro hmem
    have hlt := (strcmp_pos (roster.no_nul _ hm') (roster.no_nul _ hm')).1 ((mem_above hm').1 hmem).2
    exact absurd hlt (lt_irrefl _)
  have hnodup : (m' :: roster.above m'.address).Nodup :=
    List.nodup_cons.2 ⟨hself, (List.Nodup.of_map _ roster.addresses_nodup).filter _⟩
  have hsub : m' :: roster.above m'.address ⊆ roster.above m.address := by
    intro m₁ hm₁
    obtain rfl | hm₁ := List.mem_cons.1 hm₁
    · exact (mem_above hm).2 ⟨hm', hpos⟩
    · obtain ⟨hmem, habove⟩ := (mem_above hm').1 hm₁
      have hrank₁ := (strcmp_pos (roster.no_nul _ hmem) (roster.no_nul _ hm')).1 habove
      exact (mem_above hm).2
        ⟨hmem, (strcmp_pos (roster.no_nul _ hmem) (roster.no_nul _ hm)).2 (hrank.trans hrank₁)⟩
  have hle := (List.subperm_of_subset hnodup hsub).length_le
  rw [List.length_cons] at hle
  unfold level
  omega

theorem load_append (ps qs : List (Packet RmpAddress Bytes)) :
    roster.load (ps ++ qs) = roster.load ps + roster.load qs := by
  simp [load]

theorem weight_pos (p : Packet RmpAddress Bytes) : 0 < roster.weight p := by
  unfold weight
  split
  · exact Nat.pow_pos (by omega)
  · exact Nat.one_pos

/-- A message that is taken out takes its weight with it. -/
theorem load_eraseIdx (roster : Roster) {ps : List (Packet RmpAddress Bytes)} {k : ℕ}
    {p : Packet RmpAddress Bytes}
    (h : ps[k]? = some p) : roster.load (ps.eraseIdx k) + roster.weight p = roster.load ps := by
  obtain ⟨hk, rfl⟩ := List.getElem?_eq_some_iff.1 h
  have hperm := ((List.getElem_cons_eraseIdx_perm hk).map roster.weight).sum_eq
  rw [List.map_cons, List.sum_cons] at hperm
  unfold load
  omega

theorem load_le {ps : List (Packet RmpAddress Bytes)} {w : ℕ} (h : ∀ p ∈ ps, roster.weight p ≤ w) :
    roster.load ps ≤ ps.length * w := by
  induction ps with
  | nil => exact Nat.zero_le _
  | cons p ps ih =>
    have hhead := h p List.mem_cons_self
    have htail := ih fun q hq => h q (.tail _ hq)
    simp only [load] at htail
    simp only [load, List.map_cons, List.sum_cons, List.length_cons, Nat.add_mul]
    omega

/-- **An answer weighs less than the START_ELECTION of a member of lower rank**: at most one
ELECTION_STOP, and a START_ELECTION to at most all members. -/
theorem load_answer_lt {m m' : Member} (hm : m ∈ roster.members) (hm' : m' ∈ roster.members)
    (hpos : 0 < strcmp m'.nickname m.nickname) {stops starts : List (Packet RmpAddress Bytes)}
    (hstops : ∀ p ∈ stops, p.body = messageStopElection) (hone : stops.length ≤ 1)
    (hstarts : ∀ p ∈ starts, p.body = messageStartElection ∧ p.src = m'.address)
    (hall : starts.length ≤ roster.members.length) :
    roster.load (stops ++ starts) < (roster.members.length + 2) ^ roster.level m.address := by
  have hstop : roster.load stops ≤ 1 := by
    have hle : roster.load stops ≤ stops.length * 1 := load_le fun p hp => by
      unfold weight
      rw [if_neg (by rw [hstops p hp]; decide)]
    omega
  have hstart : roster.load starts ≤
      roster.members.length * (roster.members.length + 2) ^ roster.level m'.address := by
    refine (load_le fun p hp => ?_).trans (Nat.mul_le_mul_right _ hall)
    unfold weight
    rw [if_pos (hstarts p hp).1, (hstarts p hp).2]
  have hpow : (roster.members.length + 2) ^ (roster.level m'.address + 1) ≤
      (roster.members.length + 2) ^ roster.level m.address :=
    Nat.pow_le_pow_right (by omega) (level_lt hm hm' hpos)
  have hbase : 0 < (roster.members.length + 2) ^ roster.level m'.address := Nat.pow_pos (by omega)
  rw [Nat.pow_succ] at hpow
  rw [load_append]
  calc roster.load stops + roster.load starts
      ≤ 1 + roster.members.length * (roster.members.length + 2) ^ roster.level m'.address :=
        Nat.add_le_add hstop hstart
    _ < (roster.members.length + 2) ^ roster.level m'.address * (roster.members.length + 2) := by
        rw [Nat.mul_comm _ (roster.members.length + 2), Nat.add_mul]
        omega
    _ ≤ _ := hpow

end Roster

/-! ## Every message can be processed -/

section Processing

variable {env : Env} {locals : Locals} {s : Node}

/-- A broadcast to participants whose addresses are accepted returns, after at most one message to
each. -/
theorem nonleaderLoop_total {message : Bytes} {ps : List Participant}
    (haddr : ∀ p ∈ ps, (env.getAddressFor p.ipAddress p.portNum).isSome) (s : Node) :
    ∃ s', nonleaderLoop env message ps s = .ok s' ∧
      s'.sent.length ≤ s.sent.length + ps.length := by
  induction ps generalizing s with
  | nil => exact ⟨s, rfl, Nat.le_refl _⟩
  | cons p ps ih =>
    have haddr' : ∀ q ∈ ps, (env.getAddressFor q.ipAddress q.portNum).isSome :=
      fun q hq => haddr q (.tail _ hq)
    unfold nonleaderLoop
    split
    · obtain ⟨s', hs', hle⟩ := ih haddr' s
      exact ⟨s', hs', by simp only [List.length_cons]; omega⟩
    · obtain ⟨addr, hp⟩ := Option.isSome_iff_exists.1 (haddr p List.mem_cons_self)
      obtain ⟨s', hs', hle⟩ := ih haddr' (s.rmpSendTo env addr message).2
      rw [hp]
      refine ⟨s', hs', ?_⟩
      simp only [Node.rmpSendTo, List.length_append, List.length_singleton] at hle
      simp only [List.length_cons]
      omega

theorem startElection_total
    (haddr : ∀ p ∈ s.participants, (env.getAddressFor p.ipAddress p.portNum).isSome) :
    ∃ s', startElection env s = .ok s' ∧
      s'.sent.length ≤ s.sent.length + s.participants.length := by
  obtain ⟨s₁, hs₁, hle⟩ := nonleaderLoop_total haddr s
  refine ⟨{ s₁ with inElection := true, startedElection := true }, ?_, hle⟩
  unfold startElection nonleaderBroadcastMessage
  rw [hs₁]
  rfl

/-- The sender of a message is found if a participant has its address. -/
theorem findSender_total {recvAddr before : RmpAddress} {ps : List Participant}
    (hps : ∃ p ∈ ps, env.getAddressFor p.ipAddress p.portNum = some recvAddr) :
    ∃ nickname, findSender env recvAddr before ps = some nickname := by
  induction ps generalizing before with
  | nil =>
    obtain ⟨p, hp, -⟩ := hps
    cases hp
  | cons p ps ih =>
    unfold findSender
    dsimp only
    split
    · exact ⟨_, rfl⟩
    · next hne =>
      obtain ⟨q, hq, haddr⟩ := hps
      obtain rfl | hq := List.mem_cons.1 hq
      · exact absurd (by rw [haddr]; rfl) hne
      · exact ih ⟨q, hq, haddr⟩

/-- **A START_ELECTION of a participant is answered.** -/
theorem respondToLeaderElection_total {recvAddr : RmpAddress}
    (haddr : ∀ p ∈ s.participants, (env.getAddressFor p.ipAddress p.portNum).isSome)
    (hps : ∃ p ∈ s.participants, env.getAddressFor p.ipAddress p.portNum = some recvAddr) :
    ∃ s', respondToLeaderElection env locals s recvAddr = .ok s' ∧
      s'.sent.length ≤ s.sent.length + 1 + s.participants.length := by
  obtain ⟨nickname, hfind⟩ := findSender_total hps
  unfold respondToLeaderElection
  rw [hfind]
  dsimp only
  split
  · obtain ⟨s', hs', hle⟩ := startElection_total (s := (s.rmpSendTo env recvAddr
      messageStopElection).2) haddr
    refine ⟨s', hs', ?_⟩
    simpa [Node.rmpSendTo] using hle
  · exact ⟨_, rfl, by dsimp only; omega⟩

theorem chatStep_startElection {src : RmpAddress} :
    chatStep env locals s (.receive messageStartElection src) =
      some (respondToLeaderElection env locals s src) := by
  cases hl : s.isLeader with
  | true => rw [chatStep_receive_leader hl]; rfl
  | false => rw [chatStep_receive_nonLeader hl]; rfl

/-- An ELECTION_STOP sends nothing. -/
theorem chatStep_stopElection (src : RmpAddress) :
    ∃ s', chatStep env locals s (.receive messageStopElection src) = some (.ok s') ∧
      s'.thisNickname = s.thisNickname ∧ s'.participants = s.participants ∧ s'.sent = s.sent := by
  cases hl : s.isLeader with
  | true => exact ⟨_, chatStep_receive_leader hl, rfl, rfl, rfl⟩
  | false => exact ⟨_, chatStep_receive_nonLeader hl, rfl, rfl, rfl⟩

end Processing

/-! ## Every step loses weight -/

section Steps

variable {roster : Roster} {resolve : Bytes → Bytes → Option RmpAddress} {g : Group}
  {p : Packet RmpAddress Bytes} {s s' : Node}

theorem Group.length_posted_le (g : Group) (src : RmpAddress) (log : List Sent) :
    (g.posted src log).length ≤ log.length := by
  unfold Group.posted
  rw [List.length_map]
  exact List.length_filter_le _ _

/-- A step with an answer of election messages that weighs less than the message. -/
theorem Group.Cascading.next (h : g.Cascading roster) {l : ℕ × Locals} (hp : g.flight[l.1]? = some p)
    (hs : g.nodes p.dst = some s)
    (hran : chatStep (g.env resolve []) l.2 { s with sent := [] } (.receive p.body p.src) =
      some (.ok s')) (hnick : s'.thisNickname = s.thisNickname)
    (hps : s'.participants = s.participants)
    (hbody : ∀ e ∈ s'.sent, e.message = messageStartElection ∨ e.message = messageStopElection)
    (hload : roster.load (g.posted p.dst s'.sent) < roster.weight p) :
    ∃ g', cascadeStep resolve g l = some g' ∧ g'.Cascading roster ∧
      roster.load g'.flight < roster.load g.flight := by
  refine ⟨⟨Function.update g.nodes p.dst (some s'),
    g.flight.eraseIdx l.1 ++ g.posted p.dst s'.sent, g.declared⟩, ?_, ?_, ?_⟩
  · unfold cascadeStep
    rw [hp, Option.bind_eq_bind, Option.bind_some, hs, Option.bind_eq_bind, Option.bind_some, hran]
    rfl
  · have hlive : ∀ a, (Function.update g.nodes p.dst (some s') a).isSome = (g.nodes a).isSome := by
      intro a
      by_cases ha : a = p.dst
      · rw [ha, Function.update_self, hs]
        rfl
      · rw [Function.update_of_ne ha]
    constructor
    · intro a
      rw [hlive]
      exact h.live a
    · intro a s₁ hs₁
      by_cases ha : a = p.dst
      · dsimp only at hs₁
        rw [ha, Function.update_self] at hs₁
        obtain rfl := Option.some.inj hs₁
        exact ha ▸ (h.lists _ _ hs).congr hnick hps
      · dsimp only at hs₁
        rw [Function.update_of_ne ha] at hs₁
        exact h.lists a s₁ hs₁
    · intro q hq
      dsimp only
      rw [hlive, hlive]
      obtain hq | hq := List.mem_append.1 hq
      · exact h.calls q (List.mem_of_mem_eraseIdx hq)
      · obtain ⟨e, he, -, hdst, rfl⟩ := Group.mem_posted.1 hq
        exact ⟨hbody e he, by rw [hs]; rfl, hdst⟩
  · have htaken := roster.load_eraseIdx hp
    dsimp only
    rw [Roster.load_append]
    omega

/-- An ELECTION_STOP. -/
theorem Group.Cascading.stop (h : g.Cascading roster) {l : ℕ × Locals} (hp : g.flight[l.1]? = some p)
    (hs : g.nodes p.dst = some s) (hstop : p.body = messageStopElection) :
    ∃ g', cascadeStep resolve g l = some g' ∧ g'.Cascading roster ∧
      roster.load g'.flight < roster.load g.flight := by
  obtain ⟨s', hran, hnick, hps, hsent⟩ := chatStep_stopElection p.src
    (s := { s with sent := [] })
  rw [← hstop] at hran
  refine h.next hp hs hran hnick hps ?_ ?_
  · rw [hsent]
    simp
  · rw [hsent]
    exact Roster.weight_pos p

/-- A START_ELECTION: it is outranked by the node that receives it, or heeded. -/
theorem Group.Cascading.start (hresolved : roster.Resolved resolve) (h : g.Cascading roster)
    {l : ℕ × Locals} (hp : g.flight[l.1]? = some p) (hs : g.nodes p.dst = some s)
    (hsrc : (g.nodes p.src).isSome) (hstart : p.body = messageStartElection) :
    ∃ g', cascadeStep resolve g l = some g' ∧ g'.Cascading roster ∧
      roster.load g'.flight < roster.load g.flight := by
  have hlists := h.lists _ _ hs
  obtain ⟨m, hm, hsender⟩ := List.mem_map.1 ((h.live p.src).1 hsrc)
  -- everybody in the list is a member, and the sender is in the list
  have hresolve : ∀ q ∈ s.participants, ∃ m ∈ roster.members, q.nickname = m.nickname ∧
      (g.env resolve []).getAddressFor q.ipAddress q.portNum = some m.address := by
    intro q hq
    obtain ⟨m, hm, hfields⟩ := hlists.exists_member hq
    exact ⟨m, hm, (Prod.mk.inj hfields).1, hresolved.of_fields hm hfields⟩
  have haddr : ∀ q ∈ s.participants,
      ((g.env resolve []).getAddressFor q.ipAddress q.portNum).isSome := by
    intro q hq
    obtain ⟨m, -, -, hq⟩ := hresolve q hq
    rw [hq]
    rfl
  obtain ⟨q, hq, hfields⟩ := hlists.exists_participant hm
  have hfound := hresolved.of_fields hm hfields
  rw [hsender] at hfound
  obtain ⟨s', hran, hlen⟩ : ∃ s', respondToLeaderElection (g.env resolve []) l.2
      { s with sent := [] } p.src = .ok s' ∧ s'.sent.length ≤ 0 + 1 + s.participants.length :=
    respondToLeaderElection_total haddr ⟨q, hq, hfound⟩
  have hstep : chatStep (g.env resolve []) l.2 { s with sent := [] } (.receive p.body p.src) =
      some (.ok s') := by rw [hstart, chatStep_startElection, hran]
  obtain ⟨q', hq', hq'addr, hcase⟩ :=
    respondToLeaderElection_ok (s := { s with sent := [] }) haddr hran
  obtain ⟨m', hm', hnick', haddr'⟩ := hresolve q' hq'
  obtain rfl : m' = m := Roster.address_inj hm' hm
    (Option.some.inj (haddr'.symm.trans hq'addr) |>.trans hsender.symm)
  obtain ⟨hpos, log, stop, -, hmessage, -, rfl, hlog⟩ | ⟨-, rfl⟩ := hcase
  · have hlog_le : log.length ≤ roster.members.length := by
      have hperm := hlists.agreeing.length_eq
      simp only [List.length_map] at hperm
      simp only [List.nil_append, List.length_cons] at hlen
      omega
    refine h.next hp hs hstep rfl rfl ?_ ?_
    · intro e he
      obtain rfl | he := List.mem_cons.1 he
      · exact .inr hmessage
      · exact .inl (hlog.entries e he).1
    · rw [List.nil_append, ← List.singleton_append, Group.posted_append]
      have hstops : ∀ q ∈ g.posted p.dst [stop], q.body = messageStopElection := by
        intro q hq
        obtain ⟨e, he, -, -, rfl⟩ := Group.mem_posted.1 hq
        exact List.mem_singleton.1 he ▸ hmessage
      have hstarts : ∀ q ∈ g.posted p.dst log, q.body = messageStartElection ∧ q.src = p.dst := by
        intro q hq
        obtain ⟨e, he, -, -, rfl⟩ := Group.mem_posted.1 hq
        exact ⟨(hlog.entries e he).1, rfl⟩
      unfold Roster.weight
      rw [if_pos hstart, ← hsender]
      exact Roster.load_answer_lt hm hlists.self (hnick' ▸ hpos) hstops
        (g.length_posted_le p.dst [stop]) hstarts ((g.length_posted_le p.dst log).trans hlog_le)
  · exact h.next hp hs hstep rfl rfl (by simp) (Roster.weight_pos p)

theorem Group.Cascading.step (hresolved : roster.Resolved resolve) (h : g.Cascading roster)
    {l : ℕ × Locals} (hl : l.1 < g.flight.length) :
    ∃ g', cascadeStep resolve g l = some g' ∧ g'.Cascading roster ∧
      roster.load g'.flight < roster.load g.flight := by
  have hp : g.flight[l.1]? = some g.flight[l.1] := List.getElem?_eq_getElem hl
  obtain ⟨hbody, hsrc, hdst⟩ := h.calls _ (List.getElem_mem hl)
  obtain ⟨s, hs⟩ := Option.isSome_iff_exists.1 hdst
  obtain hstart | hstop := hbody
  · exact h.start hresolved hp hs hsrc hstart
  · exact h.stop hp hs hstop

/-- **Election messages die out.** Whichever of the messages under way is processed next, each time,
it can be processed, and after finitely many steps nothing is under way. -/
theorem cascade_dies_out (hresolved : roster.Resolved resolve) (h : g.Cascading roster) :
    Inevitable (cascadeStep resolve) (fun g l => l.1 < g.flight.length) (fun g => g.flight = []) g := by
  refine Inevitable.of_measure (I := Group.Cascading roster) (fun g => roster.load g.flight) ?_ ?_ h
  · intro g _
    by_cases hflight : g.flight = []
    · exact .inl hflight
    · exact .inr ⟨(0, .blank), List.length_pos_iff.2 hflight⟩
  · intro g l hg hl
    exact hg.step hresolved hl

end Steps

/-- The two members of `twoMembers`, the first of them the leader and in an election, each with a
START_ELECTION of the other under way. -/
def crossing : Group :=
  { twoAtRest with flight := [⟨localHost 80, localHost 81, messageStartElection⟩,
      ⟨localHost 81, localHost 80, messageStartElection⟩,
      ⟨localHost 81, localHost 80, messageStopElection⟩] }

theorem cascade_dies_out_crossing :
    Inevitable (cascadeStep loopbackAddress) (fun g l => l.1 < g.flight.length)
      (fun g => g.flight = []) crossing := by
  have hresolved : twoMembers.Resolved loopbackAddress := by
    unfold Roster.Resolved
    decide
  refine cascade_dies_out hresolved ⟨led_twoAtRest.live, led_twoAtRest.lists, ?_⟩
  unfold crossing
  decide

end Dchat.Chat
