import Dchat.Chat.Nickname
import Dchat.Chat.Session

/-!
# What every round keeps

A rule for invariants of participant lists. `Kept` asks of a property of nodes, and of one of the
PARTICIPANT_UPDATEs for a node, that the operations on lists keep them: the broadcast of a leader,
the insertion of a participant, the two ways to a new leader, a list that is taken over, and a list
that is announced. `inOrder_of_reach` says that then every node has the first and every
PARTICIPANT_UPDATE under way the second, in every session whose joining nicknames are `Proper`.
-/

namespace Dchat.Chat

open CString Stdio RMP Links Runs

/-- A nickname that `main` admits, not empty, and without `=` and white space. -/
structure Proper (nickname : Bytes) : Prop where
  admitted : Admitted nickname
  ne_nil : nickname ≠ []
  no_equals : 61 ∉ nickname
  no_space : ∀ c ∈ nickname, isSpace c = false

instance : DecidablePred Proper := fun s =>
  decidable_of_iff ((0 ∉ s ∧ s.length ≤ maxNicknameLen ∧ ¬ strcspn s (str ":@ ") < s.length) ∧
      s ≠ [] ∧ 61 ∉ s ∧ (s.all fun c => !isSpace c) = true) <| by
    rw [List.all_eq_true]
    constructor
    · rintro ⟨⟨h0, hlen, hsep⟩, hne, h61, hspace⟩
      exact ⟨⟨h0, hlen, hsep⟩, hne, h61, fun c hc => by simpa using hspace c hc⟩
    · rintro ⟨⟨h0, hlen, hsep⟩, hne, h61, hspace⟩
      exact ⟨⟨h0, hlen, hsep⟩, hne, h61, fun c hc => by simp [hspace c hc]⟩

/-- Processes are started with proper nicknames, and at addresses that `RMP_getAddressFor` reads
back from their texts. -/
def Admissible (resolve : Bytes → Bytes → Option RmpAddress) (_ : Session) : Action → Prop
  | .join address nickname _ _ =>
    Proper nickname ∧ resolve (inetNtoa address) (portText address) = some address
  | _ => True

instance (resolve : Bytes → Bytes → Option RmpAddress) (g : Session) :
    (action : Action) → Decidable (Admissible resolve g action)
  | .join .. => inferInstanceAs (Decidable (_ ∧ _))
  | .round .. | .crash .. | .lose .. | .copy .. => inferInstanceAs (Decidable True)

/-- `N` is kept by what is done to the list of the node at an address, and `C` holds of the
PARTICIPANT_UPDATEs for an address that are announced. -/
structure Kept (resolve : Bytes → Bytes → Option RmpAddress) (roll : List Member)
    (N : RmpAddress → Node → Prop) (C : RmpAddress → Bytes → Prop) : Prop where
  congr {a : RmpAddress} {s s' : Node} : N a s → s'.participants = s.participants →
    s'.leader = s.leader → s'.numParticipants = s.numParticipants → s'.nextPtr = s.nextPtr →
    s'.thisNickname = s.thisNickname → s'.isLeader = s.isLeader → N a s'
  enrolled {a : RmpAddress} {s : Node} : N a s → ⟨a, s.thisNickname⟩ ∈ roll
  broadcast {a : RmpAddress} {env : Env} {s s' : Node} {message : Bytes} : N a s →
    s.isLeader = true → leaderBroadcastMessage env s message = .ok s' → N a s'
  insert {a address : RmpAddress} {s s' : Node} {nickname : Bytes} : N a s → s.isLeader = true →
    ⟨address, nickname⟩ ∈ roll → Proper nickname → s.containsParticipant nickname = false →
    s.insertParticipant nickname (inetNtoa address) (portText address) false = .ok s' → N a s'
  victorious {a : RmpAddress} {s : Node} : N a s → s.isLeader = false → N a s.victorious
  followed {a src : RmpAddress} {s : Node} : N a s → s.isLeader = false → N a (setNewLeader s src)
  update {a : RmpAddress} {s s' : Node} {message : Bytes} {joining : Bool} : C a message →
    ⟨a, s.thisNickname⟩ ∈ roll → s.isLeader = false →
    processParticipantUpdate s message joining = .ok s' → N a s'
  announce {a dst : RmpAddress} {s : Node} {message : Bytes} {p : Participant} : N a s →
    s.isLeader = true → Notice s message p → resolve p.ipAddress p.portNum = some dst →
    C dst message

/-- An ADD_ME of a member, a PARTICIPANT_UPDATE with the property, or another message. -/
def Authentic (C : RmpAddress → Bytes → Prop) (roll : List Member) (x : Packet RmpAddress Bytes) :
    Prop :=
  ∃ word ∈ commands, Carries x.body word ∧
    (word = messageAddMe → ∃ nickname, ⟨x.src, nickname⟩ ∈ roll ∧ Proper nickname ∧
      x.body = addMeCmd nickname) ∧
    (word = messageParticipantUpdate → C x.dst x.body)

/-- A node with the property, or a process that will get its list from a leader. -/
def InOrder (N : RmpAddress → Node → Prop) (roll : List Member) (a : RmpAddress) : Process → Prop
  | .joining j => (j.node.isLeader = false ∧ j.node.participants = [] ∧ j.node.numParticipants = 0) ∧
      Proper j.node.thisNickname ∧ ⟨a, j.node.thisNickname⟩ ∈ roll
  | .chatting s => N a s

/-! ## Messages -/

section Messages

variable {C : RmpAddress → Bytes → Prop} {roll : List Member} {src dst : RmpAddress} {locals : Locals}
  {buf rest : Bytes}

/-- The nickname in an ADD_ME. -/
theorem Authentic.addMe (h : Authentic C roll ⟨src, dst, buf⟩)
    (hreads : Reads locals buf messageAddMe rest) : ⟨src, rest⟩ ∈ roll ∧ Proper rest := by
  obtain ⟨word, hword, hcarries, haddMe, -⟩ := h
  have hcommand := hreads.command_eq (by decide) hword hcarries
  obtain ⟨nickname, hmem, hproper, rfl⟩ := haddMe hcommand.symm
  have hnoline : 10 ∉ nickname := fun h10 => absurd (hproper.no_space 10 h10) (by decide)
  have hstop : Stops isSpace nickname := fun c hc => hproper.no_space c (List.mem_of_mem_head? hc)
  obtain ⟨read, hscan, -⟩ := hreads
  rw [scanCommand_addMe hproper.admitted.length_le hproper.ne_nil hnoline hstop] at hscan
  obtain ⟨-, rfl⟩ := Prod.mk.inj (Except.ok.inj hscan)
  exact ⟨hmem, hproper⟩

theorem Authentic.update (h : Authentic C roll ⟨src, dst, buf⟩)
    (hreads : Reads locals buf messageParticipantUpdate rest) : C dst buf := by
  obtain ⟨word, hword, hcarries, -, hupdate⟩ := h
  exact hupdate (hreads.command_eq (by decide) hword hcarries).symm

theorem Authentic.entry (h : Authentic C roll ⟨src, dst, buf⟩)
    (hreads : JoinReads buf messageParticipantUpdate) : C dst buf := by
  obtain ⟨word, hword, hcarries, -, hupdate⟩ := h
  exact hupdate (hreads.command_eq (by decide) hword hcarries).symm

theorem authentic_addMeCmd {nickname : Bytes} (hself : ⟨src, nickname⟩ ∈ roll)
    (hproper : Proper nickname) (dst : RmpAddress) :
    Authentic C roll ⟨src, dst, addMeCmd nickname⟩ :=
  ⟨messageAddMe, by decide, carries_addMeCmd nickname, fun _ => ⟨nickname, hself, hproper, rfl⟩,
    fun h => absurd h (by decide)⟩

theorem Numbered.authentic {env : Env} {s s' : Node} {numbers : List Sent}
    (h : Numbered env s s' numbers) {e : Sent} (he : e ∈ numbers) :
    Authentic C roll ⟨src, e.dst, e.message⟩ :=
  ⟨messageBroadcast, by decide, h.carries he, fun h => absurd h (by decide),
    fun h => absurd h (by decide)⟩

end Messages

/-! ## Rounds -/

section Rounds

variable {resolve : Bytes → Bytes → Option RmpAddress} {roll : List Member}
  {N : RmpAddress → Node → Prop} {C : RmpAddress → Bytes → Prop} {a : RmpAddress} {weather : Weather}
  {env : Env} {locals : Locals} {s s' base : Node} {event : Event}

/-- The node whose list is announced. -/
theorem Kept.announcer (hk : Kept resolve roll N C) (h : N a s)
    (hread : ∀ buf src, event = .receive buf src → Authentic C roll ⟨src, a, buf⟩)
    (hbase : Announcer locals s event base) : N a base ∧ base.isLeader = true := by
  cases hbase with
  | leader hl => exact ⟨h, hl⟩
  | host hl hreads hnew hinsert =>
    obtain ⟨hmem, hproper⟩ := (hread _ _ rfl).addMe hreads
    exact ⟨hk.insert h hl hmem hproper hnew hinsert, (insertParticipant_role hinsert).isLeader.trans hl⟩
  | winner hl _ => exact ⟨hk.victorious h hl, rfl⟩

/-- **What a node sends** is authentic. -/
theorem Kept.dispatched {e : Sent} (hk : Kept resolve roll N C) (h : N a s)
    (hread : ∀ buf src, event = .receive buf src → Authentic C roll ⟨src, a, buf⟩)
    (he : Dispatched (Session.env resolve weather) locals s event s' e) :
    Authentic C roll ⟨a, e.dst, e.message⟩ := by
  cases he with
  | start _ _ hmessage _ _ _ =>
    refine ⟨messageStartElection, by decide, hmessage ▸ carries_self _, fun hword => ?_, fun hword => ?_⟩
    · exact absurd hword (by decide)
    · exact absurd hword (by decide)
  | update hbase hnotice haddr =>
    obtain ⟨hN, hl⟩ := hk.announcer h hread hbase
    have hcarries : Carries e.message messageParticipantUpdate := by
      obtain ⟨leader, ps, notice, -, hmessage, -⟩ := hnotice
      exact hmessage ▸ carries_updateText leader ps notice
    refine ⟨messageParticipantUpdate, by decide, hcarries, fun hword => ?_, fun _ => ?_⟩
    · exact absurd hword (by decide)
    · exact hk.announce hN hl hnotice haddr
  | other hword hcarries hother =>
    exact ⟨_, hword, hcarries, fun h => absurd h hother.1, fun h => absurd h hother.2.1⟩

/-- **Every reaction keeps the property of the node.** -/
theorem Kept.reaction (hk : Kept resolve roll N C) (h : N a s)
    (hread : ∀ buf src, event = .receive buf src → Authentic C roll ⟨src, a, buf⟩)
    (hr : Reaction env locals s event s') : N a s' := by
  cases hr with
  | silent lines => exact hk.congr h rfl rfl rfl rfl rfl rfl
  | numbered hl _ _ hb =>
    have hclock : N a { s with clockNum := s.clockNum + 1 } := hk.congr h rfl rfl rfl rfl rfl rfl
    exact hk.congr (hk.broadcast hclock hl hb) rfl rfl rfl rfl rfl rfl
  | refused _ _ _ => exact hk.congr h rfl rfl rfl rfl rfl rfl
  | admitted hl hreads hnew hinsert _ hb =>
    have hbase : Announcer locals s _ _ := .host hl hreads hnew hinsert
    obtain ⟨hN, hl₁⟩ := hk.announcer h hread hbase
    exact hk.congr (hk.broadcast hN hl₁ hb) rfl rfl rfl rfl rfl rfl
  | responded _ hrespond =>
    obtain ⟨log, started, rfl⟩ := respondToLeaderElection_frame hrespond
    exact hk.congr h rfl rfl rfl rfl rfl rfl
  | heard _ _ _ => exact hk.congr h rfl rfl rfl rfl rfl rfl
  | updated hl hreads hu => exact hk.update ((hread _ _ rfl).update hreads) (hk.enrolled h) hl hu
  | referred _ _ _ => exact hk.congr h rfl rfl rfl rfl rfl rfl
  | stopped _ _ => exact hk.congr h rfl rfl rfl rfl rfl rfl
  | followed hl _ => exact hk.followed h hl
  | asked _ _ => exact hk.congr h rfl rfl rfl rfl rfl rfl
  | suspected _ _ _ _ _ he =>
    obtain ⟨log, rfl, -⟩ := startElection_ok he
    exact hk.congr h rfl rfl rfl rfl rfl rfl
  | beaten hl _ hb => exact hk.broadcast h hl hb
  | declared hl _ _ hd =>
    obtain ⟨s₁, s₂, notice, update, lines, hvictory, -, hupdate, rfl⟩ := declareVictory_broadcasts hd
    have hl₁ : s₁.isLeader = true := (leaderBroadcastMessage_same hvictory).isLeader
    have h₁ := hk.broadcast (hk.victorious h hl) rfl hvictory
    exact hk.congr (hk.broadcast h₁ hl₁ hupdate) rfl rfl rfl rfl rfl rfl
  | restarted _ _ he =>
    obtain ⟨log, rfl, -⟩ := startElection_ok he
    exact hk.congr h rfl rfl rfl rfl rfl rfl

/-- **Every round keeps the process in order**, and what it sends is authentic. -/
theorem Kept.round {p p' : Process} (hk : Kept resolve roll N C) (h : InOrder N roll a p)
    (hread : ∀ buf src, event = .receive buf src → Authentic C roll ⟨src, a, buf⟩)
    (hround : Round (Session.env resolve weather) locals p event p') :
    InOrder N roll a p' ∧ ∀ e ∈ p'.node.sent, Authentic C roll ⟨a, e.dst, e.message⟩ := by
  have hquiet : ∀ s, N a s → N a { s with sent := [] } :=
    fun s hs => hk.congr hs rfl rfl rfl rfl rfl rfl
  refine ⟨?_, fun e he => ?_⟩
  · cases hround with
    | asked hnode _ =>
      rw [InOrder, hnode]
      exact h
    | entered hrole _ hreads hu =>
      obtain ⟨⟨hl, -⟩, -, hself⟩ := h
      obtain ⟨hnick, hl₁, -⟩ := hrole
      exact hk.update ((hread _ _ rfl).entry hreads) (hnick ▸ hself) (hl₁.trans hl) hu
    | @reacted s s' _ hr => exact hk.reaction (hquiet s h) hread hr
  · obtain ⟨j, rfl, hmessage⟩ | ⟨s, s', rfl, -, ⟨numbers, hnumbers, he⟩ | he⟩ :=
      hround.sent_cases he
    · obtain ⟨-, hproper, hself⟩ := h
      exact hmessage ▸ authentic_addMeCmd hself hproper e.dst
    · exact hnumbers.authentic he
    · exact hk.dispatched (hquiet s h) hread he

end Rounds

/-! ## Runs -/

/-- **The rule for lists**: properties that are kept, whoever has been started, hold in every
session if they hold of the founder. -/
theorem inOrder_of_reach {resolve : Bytes → Bytes → Option RmpAddress} {founder : Member}
    {N : List Member → RmpAddress → Node → Prop} {C : List Member → RmpAddress → Bytes → Prop}
    (hkept : ∀ g, Reach (sessionStep resolve) (Admissible resolve) (Founded founder) g →
      Kept resolve g.roll (N g.roll) (C g.roll))
    (hinit : ∀ s, startChat founder.nickname (inetNtoa founder.address) (portText founder.address) =
      .ok s → N [founder] founder.address s)
    (hgrow : ∀ roll m a, (∀ s, N roll a s → N (roll ++ [m]) a s) ∧
      ∀ body, C roll a body → C (roll ++ [m]) a body)
    {g : Session} (h : Reach (sessionStep resolve) (Admissible resolve) (Founded founder) g) :
    g.All (InOrder (N g.roll) g.roll) (Authentic (C g.roll) g.roll) := by
  refine Session.all_of_reach (P := fun roll => InOrder (N roll) roll)
    (Q := fun roll => Authentic (C roll) roll) hkept ?_
    (fun roll m => ⟨fun a p hp => ?_, fun x hx => ?_⟩) ?_ ?_ h
  · intro g hg
    have hroll : g.roll = [founder] := by
      obtain ⟨s, -, rfl⟩ := hg
      rfl
    exact hg.all fun s hs => hroll ▸ hinit s hs
  · cases p with
    | joining j => exact ⟨hp.1, hp.2.1, List.mem_append_left _ hp.2.2⟩
    | chatting s => exact (hgrow roll m a).1 s hp
  · obtain ⟨word, hword, hcarries, haddMe, hupdate⟩ := hx
    refine ⟨word, hword, hcarries, fun hw => ?_, fun hw => (hgrow roll m x.dst).2 _ (hupdate hw)⟩
    obtain ⟨nickname, hmem, hrest⟩ := haddMe hw
    exact ⟨nickname, List.mem_append_left _ hmem, hrest⟩
  · intro g address nickname addrPort weather j _ hok hj
    obtain ⟨_, lines, hnode, -⟩ := joinChat_ok hj
    have hmem : (⟨address, nickname⟩ : Member) ∈ g.roll ++ [⟨address, nickname⟩] := by simp
    refine ⟨by rw [InOrder, hnode]; exact ⟨⟨rfl, rfl, rfl⟩, hok.1, hmem⟩, fun e he => ?_⟩
    rw [message_of_joinChat hj he]
    exact authentic_addMeCmd hmem hok.1 e.dst
  · intro g address cue weather locals p event p' hk _ hp hread hround
    exact hk.round hp hread hround

end Dchat.Chat
