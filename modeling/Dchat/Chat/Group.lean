import Dchat.Chat.Receive
import Dchat.Foundations.Links
import Dchat.Foundations.Runs
import Mathlib.Logic.Function.Basic

/-!
# Groups of chat nodes

Any number of processes in the loop of `chat`, one at each address, with RMP between them taken at
its word: the messages from one node to another arrive exactly once and in order, and `RMP_sendTo`
fails exactly on the addresses without a process. A `Turn` may in addition make calls of
`RMP_sendTo` fail that need not. A message is in `flight` from `RMP_sendTo` until the reaction to
it, and a process that exits or reads or writes outside its memory takes no turn: nobody crashes
in a run of `groupStep`.

`Group.Stepped` is what a turn does. A `Roster` says who is in the group, and `Roster.Lists` that a
node has exactly these participants in its list.
-/

namespace Dchat.Chat

open CString Stdio RMP Links Runs

/-! ## The system -/

/-- The processes, the messages under way, and, for statements about runs only, the nodes that
declared victory. -/
structure Group where
  nodes : RmpAddress → Option Node
  flight : List (Packet RmpAddress Bytes)
  declared : List RmpAddress

/-- What makes a process run: the oldest message from `src`, a line from standard input, or a
timer. -/
inductive Trigger
  | receive (src : RmpAddress)
  | stdin (buf : Bytes)
  | heartbeat
  | victory
  | restart
  deriving DecidableEq

/-- A round of the loop of the process at `node`: what it reacts to, the calls of `RMP_sendTo` that
fail, by their number in the round and with their results, and what the locals hold. -/
structure Turn where
  node : RmpAddress
  trigger : Trigger
  faults : List (ℕ × ℤ)
  locals : Locals

namespace Group

/-- RMP, for one turn. `resolve` is `RMP_getAddressFor`. -/
def env (resolve : Bytes → Bytes → Option RmpAddress) (g : Group) (faults : List (ℕ × ℤ)) : Env where
  getAddressFor := resolve
  sendTo k dst message :=
    (faults.lookup k).getD (if (g.nodes dst).isSome then message.length + 1 else rmpETimeout)

/-- The messages of a log of calls of `RMP_sendTo` that are delivered. -/
def posted (g : Group) (src : RmpAddress) (log : List Sent) : List (Packet RmpAddress Bytes) :=
  (log.filter fun e => 0 ≤ e.result ∧ (g.nodes e.dst).isSome).map fun e => ⟨src, e.dst, e.message⟩

/-- The event that a trigger stands for, and what is left under way. -/
def read (g : Group) (node : RmpAddress) :
    Trigger → Option (Event × List (Packet RmpAddress Bytes))
  | .receive src => (takeFirst src node g.flight).map fun (m, rest) => (.receive m src, rest)
  | .stdin buf => some (.stdin buf, g.flight)
  | .heartbeat => some (.heartbeat, g.flight)
  | .victory => some (.victory, g.flight)
  | .restart => some (.restart, g.flight)

end Group

/-- A turn of one process. -/
def groupStep (resolve : Bytes → Bytes → Option RmpAddress) (g : Group) (t : Turn) :
    Option Group := do
  let s ← g.nodes t.node
  let (event, rest) ← g.read t.node t.trigger
  let result ← chatStep (g.env resolve t.faults) t.locals { s with sent := [] } event
  let s' ← result.toOption
  some {
    nodes := Function.update g.nodes t.node (some s')
    flight := rest ++ g.posted t.node s'.sent
    declared := if t.trigger = .victory then g.declared ++ [t.node] else g.declared }

/-- **What a turn does**: the process at `t.node` goes from `s` to `s'`. -/
structure Group.Stepped (resolve : Bytes → Bytes → Option RmpAddress) (g : Group) (t : Turn)
    (s s' : Node) (event : Event) (rest : List (Packet RmpAddress Bytes)) (g' : Group) : Prop where
  live : g.nodes t.node = some s
  read : g.read t.node t.trigger = some (event, rest)
  ran : chatStep (g.env resolve t.faults) t.locals { s with sent := [] } event = some (.ok s')
  nodes : g'.nodes = Function.update g.nodes t.node (some s')
  flight : g'.flight = rest ++ g.posted t.node s'.sent
  declared : g'.declared = if t.trigger = .victory then g.declared ++ [t.node] else g.declared

section Turns

variable {resolve : Bytes → Bytes → Option RmpAddress} {g g' : Group} {t : Turn} {s s' : Node}
  {event : Event} {rest : List (Packet RmpAddress Bytes)}

theorem stepped_of_groupStep (h : groupStep resolve g t = some g') :
    ∃ s s' event rest, Group.Stepped resolve g t s s' event rest g' := by
  obtain ⟨s, hs, h⟩ := Option.bind_eq_some_iff.1 h
  obtain ⟨⟨event, rest⟩, hread, h⟩ := Option.bind_eq_some_iff.1 h
  obtain ⟨result, hran, h⟩ := Option.bind_eq_some_iff.1 h
  obtain ⟨s', hok, h⟩ := Option.bind_eq_some_iff.1 h
  obtain rfl := Option.some.inj h
  obtain rfl := Fault.toOption_eq_some.1 hok
  exact ⟨s, s', event, rest, hs, hread, hran, rfl, rfl, rfl⟩

namespace Group.Stepped

variable (h : Group.Stepped resolve g t s s' event rest g')

include h

theorem node_self : g'.nodes t.node = some s' := by rw [h.nodes, Function.update_self]

theorem node_ne {a : RmpAddress} (ha : a ≠ t.node) : g'.nodes a = g.nodes a := by
  rw [h.nodes, Function.update_of_ne ha]

/-- A turn neither ends nor starts a process. -/
theorem isSome_nodes (a : RmpAddress) : (g'.nodes a).isSome = (g.nodes a).isSome := by
  by_cases ha : a = t.node
  · rw [ha, h.node_self, h.live]
    rfl
  · rw [h.node_ne ha]

/-- A property of every process holds after a turn if it holds of the one whose turn it is. -/
theorem forall_nodes {P : RmpAddress → Node → Prop} (hself : P t.node s')
    (hother : ∀ a s, g.nodes a = some s → a ≠ t.node → P a s) :
    ∀ a s, g'.nodes a = some s → P a s := by
  intro a s₁ hs₁
  by_cases ha : a = t.node
  · rw [ha, h.node_self] at hs₁
    obtain rfl := Option.some.inj hs₁
    exact ha ▸ hself
  · rw [h.node_ne ha] at hs₁
    exact hother a s₁ hs₁ ha

end Group.Stepped

theorem Group.read_receive {src node : RmpAddress}
    (h : g.read node (.receive src) = some (event, rest)) :
    ∃ m, event = .receive m src ∧ takeFirst src node g.flight = some (m, rest) := by
  obtain ⟨⟨m, rest'⟩, htake, heq⟩ := Option.map_eq_some_iff.1 h
  obtain ⟨rfl, rfl⟩ := Prod.mk.inj heq
  exact ⟨m, rfl, htake⟩

theorem Group.mem_posted {src : RmpAddress} {log : List Sent} {p : Packet RmpAddress Bytes} :
    p ∈ g.posted src log ↔
      ∃ e ∈ log, 0 ≤ e.result ∧ (g.nodes e.dst).isSome ∧ p = ⟨src, e.dst, e.message⟩ := by
  unfold Group.posted
  simp only [List.mem_map, List.mem_filter, decide_eq_true_eq]
  constructor
  · rintro ⟨e, ⟨he, hres, hlive⟩, rfl⟩
    exact ⟨e, he, hres, hlive, rfl⟩
  · rintro ⟨e, he, hres, hlive, rfl⟩
    exact ⟨e, ⟨he, hres, hlive⟩, rfl⟩

theorem Group.posted_append (src : RmpAddress) (log log' : List Sent) :
    g.posted src (log ++ log') = g.posted src log ++ g.posted src log' := by simp [Group.posted]

@[simp] theorem Group.env_getAddressFor (faults : List (ℕ × ℤ)) :
    (g.env resolve faults).getAddressFor = resolve := rfl

/-- A call of `RMP_sendTo` to a process succeeds. -/
theorem Group.sendTo_live {k : ℕ} {dst : RmpAddress} {message : Bytes}
    (h : (g.nodes dst).isSome) : (g.env resolve []).sendTo k dst message = message.length + 1 := by
  simp [Group.env, h]

/-- A call of `RMP_sendTo` to an address without a process times out. -/
theorem Group.sendTo_dead {k : ℕ} {dst : RmpAddress} {message : Bytes}
    (h : g.nodes dst = none) : (g.env resolve []).sendTo k dst message = rmpETimeout := by
  simp [Group.env, h]

/-- The processes at the start of a run are there to its end. -/
theorem isSome_nodes_of_reach {ok : Group → Turn → Prop} {init : Group → Prop}
    {live : RmpAddress → Prop} (hinit : ∀ g, init g → ∀ a, (g.nodes a).isSome ↔ live a)
    (h : Reach (groupStep resolve) ok init g) (a : RmpAddress) : (g.nodes a).isSome ↔ live a := by
  refine h.invariant (I := fun g => (g.nodes a).isSome ↔ live a) (fun g hg => hinit g hg a) ?_
  intro g t g' hlive _ hs
  obtain ⟨s, s', event, rest, hstep⟩ := stepped_of_groupStep hs
  rw [hstep.isSome_nodes]
  exact hlive

end Turns

/-! ## Who is in the group -/

/-- A member of a group: its address and its nickname. -/
structure Member where
  address : RmpAddress
  nickname : Bytes
  deriving DecidableEq

/-- What the entry of a member in a participant list says. -/
def Member.fields (m : Member) : Bytes × Bytes × Bytes :=
  (m.nickname, inetNtoa m.address, portText m.address)

/-- The members of a group. Addresses and nicknames are distinct. -/
structure Roster where
  members : List Member
  addresses_nodup : (members.map Member.address).Nodup
  nicknames_nodup : (members.map Member.nickname).Nodup
  no_nul : ∀ m ∈ members, 0 ∉ m.nickname

/-- `leader` points to the entry of a member. -/
def Follows (s : Node) (m : Member) : Prop := ∃ q, s.leader = some q ∧ q.fields = m.fields

namespace Roster

variable (roster : Roster)

/-- `RMP_getAddressFor` reads the addresses of the members back from their texts. -/
def Resolved (resolve : Bytes → Bytes → Option RmpAddress) : Prop :=
  ∀ m ∈ roster.members, resolve (inetNtoa m.address) (portText m.address) = some m.address

/-- The node at `a` is a member, and its list is that of the group. -/
structure Lists (a : RmpAddress) (s : Node) : Prop where
  self : ⟨a, s.thisNickname⟩ ∈ roster.members
  agreeing : (s.participants.map fun p => p.fields).Perm (roster.members.map Member.fields)

variable {roster}

theorem address_inj {m m' : Member} (hm : m ∈ roster.members) (hm' : m' ∈ roster.members)
    (h : m.address = m'.address) : m = m' :=
  List.inj_on_of_nodup_map roster.addresses_nodup hm hm' h

theorem nickname_inj {m m' : Member} (hm : m ∈ roster.members) (hm' : m' ∈ roster.members)
    (h : m.nickname = m'.nickname) : m = m' :=
  List.inj_on_of_nodup_map roster.nicknames_nodup hm hm' h

/-- The entry of a member leads to it. -/
theorem Resolved.of_fields {resolve : Bytes → Bytes → Option RmpAddress}
    (h : roster.Resolved resolve) {m : Member} (hm : m ∈ roster.members) {p : Peer}
    (hp : p.fields = m.fields) : resolve p.ipAddress p.portNum = some m.address := by
  obtain ⟨-, hip, hport⟩ : p.nickname = m.nickname ∧ p.ipAddress = inetNtoa m.address ∧
      p.portNum = portText m.address := by simpa [Peer.fields, Member.fields] using hp
  rw [hip, hport]
  exact h m hm

namespace Lists

variable {a : RmpAddress} {s s' : Node}

theorem exists_member (h : roster.Lists a s) {p : Participant} (hp : p ∈ s.participants) :
    ∃ m ∈ roster.members, p.fields = m.fields := by
  obtain ⟨m, hm, he⟩ := List.mem_map.1 (h.agreeing.subset (List.mem_map_of_mem hp))
  exact ⟨m, hm, he.symm⟩

theorem exists_participant (h : roster.Lists a s) {m : Member} (hm : m ∈ roster.members) :
    ∃ p ∈ s.participants, p.fields = m.fields := by
  obtain ⟨p, hp, he⟩ := List.mem_map.1 (h.agreeing.symm.subset (List.mem_map_of_mem hm))
  exact ⟨p, hp, he⟩

theorem congr (h : roster.Lists a s) (hnick : s'.thisNickname = s.thisNickname)
    (hps : s'.participants = s.participants) : roster.Lists a s' :=
  ⟨hnick ▸ h.self, hps ▸ h.agreeing⟩

/-- Only the flags of a list change when a leader is set. -/
theorem setLeaderBy (h : roster.Lists a s) (test : Participant → Bool) :
    roster.Lists a (s.setLeaderBy test) := by
  refine ⟨h.self, ?_⟩
  have hfields : ((s.setLeaderBy test).participants.map fun p => p.fields) =
      s.participants.map fun p => p.fields := by
    rw [Node.setLeaderBy, List.map_map]
    rfl
  rw [hfields]
  exact h.agreeing

/-- The participants that `declare_victory` takes for the node itself are those with its entry. -/
theorem strcmp_self (h : roster.Lists a s) {p : Participant} {m : Member} (hm : m ∈ roster.members)
    (hp : p.fields = m.fields) :
    strcmp s.thisNickname p.nickname = 0 ↔ m = ⟨a, s.thisNickname⟩ := by
  rw [show p.nickname = m.nickname from (Prod.mk.inj hp).1,
    strcmp_eq_zero (roster.no_nul _ h.self) (roster.no_nul m hm)]
  constructor
  · exact fun heq => nickname_inj hm h.self heq.symm
  · rintro rfl
    rfl

/-- A node that declares victory follows itself. -/
theorem victorious_leader (h : roster.Lists a s) : ∃ q ∈ s.participants,
    s.victorious.leader = some q.toPeer ∧ q.fields = (⟨a, s.thisNickname⟩ : Member).fields := by
  let test : Participant → Bool := fun p => strcmp s.thisNickname p.nickname = 0
  obtain ⟨p, hp, hfields⟩ := h.exists_participant h.self
  have htest : test p = true := decide_eq_true ((h.strcmp_self h.self hfields).2 rfl)
  obtain ⟨q, hq, hqtest, hleader⟩ := Node.setLeaderBy_leader hp htest
  obtain ⟨m, hm, hqfields⟩ := h.exists_member hq
  rw [(h.strcmp_self hm hqfields).1 (of_decide_eq_true hqtest)] at hqfields
  exact ⟨q, hq, hleader, hqfields⟩

/-- It takes the others for non-leaders. -/
theorem mem_others_victorious (h : roster.Lists a s) :
    (∀ p ∈ others s.victorious.participants,
      ∃ m ∈ roster.members, m ≠ ⟨a, s.thisNickname⟩ ∧ p.fields = m.fields) ∧
    ∀ m ∈ roster.members, m ≠ ⟨a, s.thisNickname⟩ →
      ∃ p ∈ others s.victorious.participants, p.fields = m.fields := by
  have hps : s.victorious.participants = s.participants.map fun p =>
      { p with isLeader := decide (strcmp s.thisNickname p.nickname = 0) } := rfl
  constructor
  · intro p hp
    obtain ⟨hp, hflag⟩ := mem_others.1 hp
    rw [hps] at hp
    obtain ⟨p₀, hp₀, rfl⟩ := List.mem_map.1 hp
    obtain ⟨m, hm, hfields⟩ := h.exists_member hp₀
    exact ⟨m, hm, fun heq => of_decide_eq_false hflag ((h.strcmp_self hm hfields).2 heq), hfields⟩
  · intro m hm hne
    obtain ⟨p, hp, hfields⟩ := h.exists_participant hm
    have hmem : { p with isLeader := decide (strcmp s.thisNickname p.nickname = 0) } ∈
        s.victorious.participants := hps ▸ List.mem_map.2 ⟨p, hp, rfl⟩
    refine ⟨_, mem_others.2 ⟨hmem, ?_⟩, hfields⟩
    exact decide_eq_false fun heq => hne ((h.strcmp_self hm hfields).1 heq)

/-- A node that sets its leader by the address of a member follows this member. -/
theorem follows_setLeaderByAddr {resolve : Bytes → Bytes → Option RmpAddress}
    (hresolved : roster.Resolved resolve) (h : roster.Lists a s) {m : Member}
    (hm : m ∈ roster.members) :
    Follows (s.setLeaderByAddr (inetNtoa m.address) (portText m.address)) m := by
  let test : Participant → Bool := fun p =>
    strcmp (inetNtoa m.address) p.ipAddress = 0 ∧ strcmp (portText m.address) p.portNum = 0
  have htest : ∀ {p : Participant} {m' : Member}, m' ∈ roster.members → p.fields = m'.fields →
      (test p = true ↔ m' = m) := by
    intro p m' hm' hp
    obtain ⟨-, hip, hport⟩ : p.nickname = m'.nickname ∧ p.ipAddress = inetNtoa m'.address ∧
        p.portNum = portText m'.address := by simpa [Peer.fields, Member.fields] using hp
    rw [decide_eq_true_iff, hip, hport,
      strcmp_eq_zero (zero_not_mem_inetNtoa _) (zero_not_mem_inetNtoa _),
      strcmp_eq_zero (zero_not_mem_portText _) (zero_not_mem_portText _)]
    constructor
    · rintro ⟨heq, heq'⟩
      have haddr := hresolved m hm
      rw [heq, heq', hresolved m' hm'] at haddr
      exact address_inj hm' hm (Option.some.inj haddr)
    · rintro rfl
      exact ⟨rfl, rfl⟩
  obtain ⟨p, hp, hfields⟩ := h.exists_participant hm
  obtain ⟨q, hq, hqtest, hleader⟩ := Node.setLeaderBy_leader hp ((htest hm hfields).2 rfl)
  obtain ⟨m', hm', hqfields⟩ := h.exists_member hq
  obtain rfl := (htest hm' hqfields).1 hqtest
  exact ⟨q.toPeer, hleader, hqfields⟩

end Lists

end Roster

/-- A group of the given processes, before any turn. -/
def Group.ofList (l : List (RmpAddress × Node)) : Group := ⟨fun a => l.lookup a, [], []⟩

theorem Group.forall_ofList {l : List (RmpAddress × Node)} {P : RmpAddress → Node → Prop}
    (h : ∀ x ∈ l, P x.1 x.2) : ∀ a s, (Group.ofList l).nodes a = some s → P a s := by
  intro a s hs
  obtain ⟨l₁, l₂, rfl, -⟩ := List.lookup_eq_some_iff.1 hs
  exact h (a, s) (by simp)

theorem Group.isSome_ofList {l : List (RmpAddress × Node)} (a : RmpAddress) :
    ((Group.ofList l).nodes a).isSome ↔ a ∈ l.map Prod.fst := by
  rw [Group.ofList, List.lookup_isSome_iff, List.mem_map]
  refine exists_congr fun p => and_congr_right fun _ => ?_
  rw [beq_iff_eq, eq_comm]

/-- A process at rest in a group that is led by the first member of the roster. -/
def Roster.atRest (roster : Roster) (m : Member) (isLeader : Bool) : Node :=
  let participants := roster.members.mapIdx fun i m =>
    ⟨⟨i, m.nickname, inetNtoa m.address, portText m.address⟩, i == 0⟩
  { Node.modelInit m.nickname isLeader with
    leader := participants.head?.map Participant.toPeer
    participants := participants
    numParticipants := participants.length }

/-- An address of the local host. -/
def localHost (port : BitVec 16) : RmpAddress := ⟨0x0100007F#32, port⟩

/-- Locals that hold nothing yet. -/
def Locals.blank : Locals := ⟨[], [], [], [], [], 0, ⟨0, 0⟩⟩

/-- At most one process has `is_leader`, and `get_leader` of every process names it. -/
def Group.SingleLeader (g : Group) : Prop :=
  ∀ a s, g.nodes a = some s → s.isLeader = true → ∀ b s', g.nodes b = some s' →
    (s'.isLeader = true → b = a) ∧ ∃ q, s'.leader = some q ∧ q.nickname = s.thisNickname

end Dchat.Chat
