import Dchat.Chat.Group

/-!
# Elections against a leader that is alive

A non-leader starts an election when a heartbeat or a request to the leader times out. If the leader
is alive nevertheless, `leader_receive_message` lets it take part, and leaves it the role: it knows
neither ELECTION_STOP nor ELECTION_VICTORY, so that the leader never calls `set_new_leader`.

* `chatStep_isLeader`: `is_leader` is never given up, by no event.
* `not_singleLeader`: once anybody has declared victory, there are two leaders for the rest of the
  run, whatever arrives and whatever times out.
* `not_contested_singleLeader`: two nodes are enough for it.
-/

namespace Dchat.Chat

open CString Stdio RMP Links Runs

/-! ## The role is for life -/

section Role

variable {env : Env} {locals : Locals} {s s' : Node}

theorem leaderBroadcastMessage_isLeader {message : Bytes}
    (h : leaderBroadcastMessage env s message = .ok s') : s'.isLeader = s.isLeader := by
  obtain ⟨t, ht⟩ := broadcast_of_ok h
  exact ht.same.isLeader

theorem startElection_isLeader (h : startElection env s = .ok s') : s'.isLeader = s.isLeader := by
  obtain ⟨log, rfl, -⟩ := startElection_ok h
  rfl

theorem respondToLeaderElection_isLeader {src : RmpAddress}
    (h : respondToLeaderElection env locals s src = .ok s') : s'.isLeader = s.isLeader := by
  obtain ⟨nickname, -, ⟨-, h⟩ | ⟨-, rfl⟩⟩ := respondToLeaderElection_eq_ok h
  · exact (startElection_isLeader h).trans rfl
  · rfl

theorem incrClock_isLeader {clock : ℤ} (h : incrClock s = .ok (clock, s')) :
    s'.isLeader = s.isLeader := by
  unfold incrClock at h
  split at h
  · cases h
  · obtain ⟨-, rfl⟩ := Prod.mk.inj (Except.ok.inj h)
    rfl

theorem leaderReceiveAddMe_isLeader {restCommand : Bytes} {src : RmpAddress}
    (h : leaderReceiveAddMe env s restCommand src = .ok s') : s'.isLeader = s.isLeader := by
  obtain ⟨-, rfl⟩ | ⟨-, s₁, update, s₂, hinsert, -, hbroadcast, rfl⟩ := leaderReceiveAddMe_eq_ok h
  · rfl
  · obtain ⟨q, hq, -, -⟩ := inserted_of_insertParticipant hinsert none
    exact (leaderBroadcastMessage_isLeader hbroadcast).trans hq.role.isLeader

theorem leaderReceiveRequest_isLeader {restCommand : Bytes}
    (h : leaderReceiveRequest env locals s restCommand = .ok s') : s'.isLeader = s.isLeader := by
  obtain ⟨⟨nickname, payload⟩, -, h⟩ := Fault.bind_eq_ok.1 h
  obtain ⟨⟨clock, s₁⟩, hclock, h⟩ := Fault.bind_eq_ok.1 h
  obtain ⟨s₂, hbroadcast, h⟩ := Fault.bind_eq_ok.1 h
  obtain rfl := Except.ok.inj h
  exact (leaderBroadcastMessage_isLeader hbroadcast).trans (incrClock_isLeader hclock)

/-- No message makes a leader give up its role: there is no branch for ELECTION_VICTORY. -/
theorem leaderReceiveMessage_isLeader {buf : Bytes} {src : RmpAddress}
    (h : leaderReceiveMessage env locals s buf src = .ok s') : s'.isLeader = s.isLeader := by
  obtain ⟨⟨commandType, restCommand⟩, -, h⟩ := Fault.bind_eq_ok.1 h
  dsimp only at h
  split at h
  · exact leaderReceiveAddMe_isLeader h
  split at h
  · exact leaderReceiveRequest_isLeader h
  split at h
  · obtain rfl := Except.ok.inj h
    rfl
  split at h
  · exact respondToLeaderElection_isLeader h
  · obtain rfl := Except.ok.inj h
    rfl

theorem recvStdin_isLeader {buf : Bytes} (hl : s.isLeader = true)
    (h : recvStdin env locals s buf = .ok s') : s'.isLeader = true := by
  unfold recvStdin at h
  dsimp only at h
  rw [if_pos hl] at h
  obtain ⟨⟨clock, s₁⟩, hclock, h⟩ := Fault.bind_eq_ok.1 h
  obtain ⟨s₂, hbroadcast, h⟩ := Fault.bind_eq_ok.1 h
  obtain rfl := Except.ok.inj h
  exact (leaderBroadcastMessage_isLeader hbroadcast).trans ((incrClock_isLeader hclock).trans hl)

/-- **A leader stays one**, whatever the event. -/
theorem chatStep_isLeader {event : Event} (hl : s.isLeader = true)
    (h : chatStep env locals s event = some (.ok s')) : s'.isLeader = true := by
  cases event with
  | stdin buf =>
    simp only [chatStep] at h
    split at h
    · have h := Option.some.inj h
      split at h
      · exact recvStdin_isLeader hl h
      · obtain rfl := Except.ok.inj h
        exact hl
    · cases h
  | receive buf src =>
    simp only [chatStep, hl, if_true] at h
    exact (leaderReceiveMessage_isLeader (Option.some.inj h)).trans hl
  | heartbeat =>
    simp only [chatStep] at h
    split at h
    · cases h
    · have h := Option.some.inj h
      unfold sendHeartbeat at h
      rw [if_pos hl] at h
      exact (leaderBroadcastMessage_isLeader h).trans hl
  | victory =>
    simp only [chatStep, hl, Bool.true_eq_false, false_and, if_false] at h
    cases h
  | restart =>
    simp only [chatStep, hl, Bool.true_eq_false, false_and, if_false] at h
    cases h

/-- Only a node that is no leader declares victory, and then it is one. -/
theorem chatStep_victory (h : chatStep env locals s .victory = some (.ok s')) :
    s.isLeader = false ∧ s'.isLeader = true := by
  simp only [chatStep] at h
  split at h
  · next hguard =>
    refine ⟨hguard.1, ?_⟩
    obtain ⟨s₁, hvictory, h⟩ := Fault.bind_eq_ok.1 (Option.some.inj h)
    obtain ⟨update, -, h⟩ := Fault.bind_eq_ok.1 h
    obtain ⟨s₂, hupdate, h⟩ := Fault.bind_eq_ok.1 h
    obtain rfl := Except.ok.inj h
    have hl : s₂.isLeader = true :=
      (leaderBroadcastMessage_isLeader hupdate).trans (leaderBroadcastMessage_isLeader hvictory)
    split <;> exact hl
  · cases h

end Role

/-! ## Two leaders -/

/-- A group at rest with everyone alive: the lists agree, `leader` has the role and all follow
it. -/
structure Group.Led (roster : Roster) (leader : Member) (g : Group) : Prop where
  leader_mem : leader ∈ roster.members
  live : ∀ a, (g.nodes a).isSome ↔ a ∈ roster.members.map Member.address
  lists : ∀ a s, g.nodes a = some s → roster.Lists a s
  role : ∀ a s, g.nodes a = some s → s.isLeader = decide (a = leader.address)
  follows : ∀ a s, g.nodes a = some s → Follows s leader
  idle : ∀ a s, g.nodes a = some s → s.inElection = false ∧ s.startedElection = false
  flight : g.flight = []
  declared : g.declared = []

/-- The leader at `a` keeps the role, and every node that declared victory is another one and has it
too. -/
structure Group.Split (a : RmpAddress) (g : Group) : Prop where
  leader : ∃ s, g.nodes a = some s ∧ s.isLeader = true
  declared : ∀ b ∈ g.declared, b ≠ a ∧ ∃ s, g.nodes b = some s ∧ s.isLeader = true

theorem Group.Led.split {roster : Roster} {leader : Member} {g : Group} (h : g.Led roster leader) :
    g.Split leader.address := by
  constructor
  · have hlive := (h.live leader.address).2 (List.mem_map_of_mem h.leader_mem)
    obtain ⟨s, hs⟩ := Option.isSome_iff_exists.1 hlive
    refine ⟨s, hs, ?_⟩
    rw [h.role _ s hs]
    exact decide_eq_true rfl
  · intro b hb
    rw [h.declared] at hb
    cases hb

section Runs

variable {resolve : Bytes → Bytes → Option RmpAddress} {a : RmpAddress} {g g' : Group} {t : Turn}

/-- A turn takes the role from nobody. -/
theorem Group.Stepped.keeps_isLeader {s s' : Node} {event : Event}
    {rest : List (Packet RmpAddress Bytes)} (h : Group.Stepped resolve g t s s' event rest g')
    (ha : ∃ s, g.nodes a = some s ∧ s.isLeader = true) :
    ∃ s, g'.nodes a = some s ∧ s.isLeader = true := by
  obtain ⟨s₁, hs₁, hl⟩ := ha
  by_cases hat : a = t.node
  · rw [hat, h.live] at hs₁
    obtain rfl := Option.some.inj hs₁
    exact ⟨s', hat ▸ h.node_self, chatStep_isLeader (s := { s with sent := [] }) hl h.ran⟩
  · exact ⟨s₁, (h.node_ne hat).trans hs₁, hl⟩

theorem Group.Split.step (h : g.Split a) (hs : groupStep resolve g t = some g') : g'.Split a := by
  obtain ⟨s, s', event, rest, hstep⟩ := stepped_of_groupStep hs
  refine ⟨hstep.keeps_isLeader h.leader, fun b hb => ?_⟩
  have hold : b ∈ g.declared → b ≠ a ∧ ∃ s, g'.nodes b = some s ∧ s.isLeader = true :=
    fun hb => ⟨(h.declared b hb).1, hstep.keeps_isLeader (h.declared b hb).2⟩
  rw [hstep.declared] at hb
  split at hb
  · next htrigger =>
    obtain hb | hb := List.mem_append.1 hb
    · exact hold hb
    -- the node that declares victory was no leader, the one at `a` is
    obtain rfl := List.mem_singleton.1 hb
    have hread := hstep.read
    rw [htrigger] at hread
    obtain ⟨rfl, -⟩ := Prod.mk.inj (Option.some.inj hread)
    obtain ⟨hnot, hl⟩ := chatStep_victory hstep.ran
    refine ⟨?_, s', hstep.node_self, hl⟩
    rintro rfl
    obtain ⟨s₁, hs₁, hl₁⟩ := h.leader
    rw [hstep.live] at hs₁
    obtain rfl := Option.some.inj hs₁
    exact absurd hl₁ (by simpa using hnot)
  · exact hold hb

theorem split_of_reach {roster : Roster} {leader : Member} {ok : Group → Turn → Prop}
    (h : Reach (groupStep resolve) ok (Group.Led roster leader) g) : g.Split leader.address :=
  h.invariant (fun _ h0 => h0.split) fun _ _ _ hI _ hs => hI.step hs

/-- **Two leaders after a contested election.** In every run from a group at rest, whatever turns
are allowed, there is more than one leader from the first declaration of victory on. -/
theorem not_singleLeader {roster : Roster} {leader : Member} {ok : Group → Turn → Prop}
    (h : Reach (groupStep resolve) ok (Group.Led roster leader) g) (hd : g.declared ≠ []) :
    ¬ g.SingleLeader := by
  intro hsingle
  have hsplit := split_of_reach h
  obtain ⟨b, hb⟩ := List.exists_mem_of_ne_nil _ hd
  obtain ⟨s, hs, hl⟩ := hsplit.leader
  obtain ⟨hne, s', hs', hl'⟩ := hsplit.declared b hb
  exact hne ((hsingle _ s hs hl b s' hs').1 hl')

end Runs

/-! ## A run -/

/-- The triggers on which a non-leader sends to the leader first. -/
def Trigger.asksLeader : Trigger → Bool
  | .heartbeat => true
  | .stdin _ => true
  | _ => false

/-- Nothing fails but a heartbeat or a request of a non-leader to the leader, which is the first
call of `RMP_sendTo` in its turn and may time out. -/
def Mistaken (g : Group) (t : Turn) : Prop :=
  t.faults = [] ∨ t.faults = [(0, rmpETimeout)] ∧ t.trigger.asksLeader = true ∧
    (g.nodes t.node).map Node.isLeader = some false

instance (g : Group) (t : Turn) : Decidable (Mistaken g t) :=
  inferInstanceAs (Decidable (_ ∨ _ ∧ _ ∧ _))

/-- The leader `a` and `b`. -/
def twoMembers : Roster where
  members := [⟨localHost 80, str "a"⟩, ⟨localHost 81, str "b"⟩]
  addresses_nodup := by decide
  nicknames_nodup := by decide
  no_nul := by decide

/-- The two at rest. -/
def twoAtRest : Group := Group.ofList
  [(localHost 80, twoMembers.atRest ⟨localHost 80, str "a"⟩ true),
    (localHost 81, twoMembers.atRest ⟨localHost 81, str "b"⟩ false)]

/-- `b` takes `a` for crashed, `a` heeds the election, and `b` declares victory. -/
def usurpation : List Turn :=
  [⟨localHost 81, .heartbeat, [(0, rmpETimeout)], .blank⟩,
    ⟨localHost 80, .receive (localHost 81), [], .blank⟩,
    ⟨localHost 81, .victory, [], .blank⟩,
    ⟨localHost 80, .receive (localHost 81), [], .blank⟩,
    ⟨localHost 80, .receive (localHost 81), [], .blank⟩]

theorem led_twoAtRest : twoAtRest.Led twoMembers ⟨localHost 80, str "a"⟩ where
  leader_mem := by decide
  live := Group.isSome_ofList
  lists := by
    apply Group.forall_ofList
    simp only [List.forall_mem_cons]
    exact ⟨⟨by decide, by decide⟩, ⟨by decide, by decide⟩, by simp⟩
  role := Group.forall_ofList (by decide)
  follows := by
    apply Group.forall_ofList
    simp only [List.forall_mem_cons]
    exact ⟨⟨_, rfl, rfl⟩, ⟨_, rfl, rfl⟩, by simp⟩
  idle := Group.forall_ofList (by decide)
  flight := rfl
  declared := rfl

/-- Afterwards both have the role. -/
theorem usurped : ∃ g, Reach (groupStep loopbackAddress) Mistaken
      (Group.Led twoMembers ⟨localHost 80, str "a"⟩) g ∧
    g.flight = [] ∧ g.declared = [localHost 81] ∧
    (g.nodes (localHost 80)).map Node.isLeader = some true ∧
    (g.nodes (localHost 81)).map Node.isLeader = some true := by
  obtain ⟨g, hg, hres⟩ := Option.map_eq_some_iff.1
    (show (exec (groupStep loopbackAddress) Mistaken twoAtRest usurpation).map
        (fun g => (g.flight, g.declared, (g.nodes (localHost 80)).map Node.isLeader,
          (g.nodes (localHost 81)).map Node.isLeader)) =
      some ([], [localHost 81], some true, some true) by decide)
  obtain ⟨hflight, hdeclared, ha, hb⟩ : g.flight = [] ∧ g.declared = [localHost 81] ∧
      (g.nodes (localHost 80)).map Node.isLeader = some true ∧
      (g.nodes (localHost 81)).map Node.isLeader = some true := by simpa using hres
  exact ⟨g, reach_exec _ (.start led_twoAtRest) hg, hflight, hdeclared, by simpa using ha,
    by simpa using hb⟩

theorem not_singleLeader_usurpation :
    ∃ g : Group, g.flight = [] ∧ g.declared = [localHost 81] ∧ ¬ g.SingleLeader := by
  obtain ⟨g, hreach, hflight, hdeclared, -, -⟩ := usurped
  exact ⟨g, hflight, hdeclared, not_singleLeader hreach (by rw [hdeclared]; simp)⟩

/-- With nothing under way and nothing failed but one heartbeat to the leader, there are two
leaders. -/
theorem not_contested_singleLeader :
    ¬ ∀ (roster : Roster) (leader : Member) (resolve : Bytes → Bytes → Option RmpAddress),
      roster.Resolved resolve → ∀ g, Reach (groupStep resolve) Mistaken (Group.Led roster leader) g →
        g.flight = [] → g.declared ≠ [] → g.SingleLeader := by
  intro h
  obtain ⟨g, hreach, hflight, hdeclared, ha, hb⟩ := usurped
  obtain ⟨s, hs, hl⟩ := Option.map_eq_some_iff.1 ha
  obtain ⟨s', hs', hl'⟩ := Option.map_eq_some_iff.1 hb
  have hresolved : twoMembers.Resolved loopbackAddress := by
    unfold Roster.Resolved
    decide
  have hsingle := h twoMembers _ loopbackAddress hresolved g hreach hflight (by rw [hdeclared]; simp)
  exact absurd ((hsingle _ s hs hl _ s' hs').1 hl') (by decide)

end Dchat.Chat
