import Dchat.Chat.Dispatch
import Dchat.Chat.Group

/-!
# Sessions

All the processes of a chat from its foundation on: processes are started to join it, they come to
`chat` or not, they take rounds, they crash. The messages are under way in one list, oldest first; a
message may be lost or arrive twice, and any message under way may be the next that its process
receives. What the calls of `RMP_sendTo` return is up to the environment, and so is whether the
message is under way afterwards.

A message is handed over under the address of its sender. RMP does so between hosts with distinct IP
addresses that draw distinct message ids, and between processes of one host it need not.

A process that exits, or reads or writes outside its memory, takes no round: it crashes, and nothing
of what it had sent in this round is under way. One that stops in the middle of a round takes a
round in which the later messages get lost, and crashes.

`Session.Moved` is what a round does to the session.
-/

namespace Dchat.Chat

open CString Stdio RMP Links Runs

/-! ## The system -/

/-- The processes, the messages under way, everybody who was ever started, and, for statements about
runs only, the numbers of the MESSAGE_BROADCASTs that were received, by their receivers. -/
structure Session where
  procs : RmpAddress → Option Process
  flight : List (Packet RmpAddress Bytes)
  roll : List Member
  heard : List (RmpAddress × ℤ)

/-- What the calls of `RMP_sendTo` in a round return, by their number, their destination and the
message, and which of the messages are under way afterwards. -/
structure Weather where
  sendTo : ℕ → RmpAddress → Bytes → ℤ
  arrives : ℕ → RmpAddress → Bool

/-- What makes a process run: the message at an index of those under way, a line from standard
input, or a timer. -/
inductive Cue
  | receive (k : ℕ)
  | stdin (buf : Bytes)
  | heartbeat
  | victory
  | restart
  deriving DecidableEq

/-- What can happen in a session. -/
inductive Action
  /-- A process is started with the arguments of `join_chat`. -/
  | join (address : RmpAddress) (nickname addrPort : Bytes) (weather : Weather)
  /-- A process takes a round. -/
  | round (address : RmpAddress) (cue : Cue) (weather : Weather) (locals : Locals)
  | crash (address : RmpAddress)
  /-- A message gets lost. -/
  | lose (k : ℕ)
  /-- A message will arrive once more. -/
  | copy (k : ℕ)

/-- The node of a process. -/
def Process.node : Process → Node
  | .joining j => j.node
  | .chatting s => s

/-- The process with an empty log of what it has sent. -/
def Process.quiet : Process → Process
  | .joining j => .joining { j with node := { j.node with sent := [] } }
  | .chatting s => .chatting { s with sent := [] }

/-- The number in a MESSAGE_BROADCAST, as `sscanf` reads it. -/
def numberOf (locals : Locals) (buf : Bytes) : Option ℤ := do
  let (messageType, restMessage) ← (scanCommand locals buf).toOption
  if strcmp messageBroadcast messageType = 0 then
    let (messageId, _, _) ← (scanBroadcast locals restMessage).toOption
    some messageId
  else none

/-- The number that a process receives with a message. -/
def Process.hears (locals : Locals) : Process → Event → Option ℤ
  | .chatting _, .receive buf _ => numberOf locals buf
  | _, _ => none

namespace Session

/-- RMP, for one round. `resolve` is `RMP_getAddressFor`. -/
def env (resolve : Bytes → Bytes → Option RmpAddress) (weather : Weather) : Env where
  getAddressFor := resolve
  sendTo := weather.sendTo

/-- The messages of a log of calls of `RMP_sendTo` that are under way afterwards. -/
def posted (weather : Weather) (src : RmpAddress) (log : List Sent) :
    List (Packet RmpAddress Bytes) :=
  ((log.zipIdx.filter fun (e, k) => weather.arrives k e.dst).map Prod.fst).map
    fun e => ⟨src, e.dst, e.message⟩

/-- The event that a cue stands for, and what is left under way. A message is handed over under the
address of its sender. -/
def read (g : Session) (address : RmpAddress) :
    Cue → Option (Event × List (Packet RmpAddress Bytes))
  | .receive k => do
    let p ← g.flight[k]?
    if p.dst = address then some (.receive p.body p.src, g.flight.eraseIdx k) else none
  | .stdin buf => some (.stdin buf, g.flight)
  | .heartbeat => some (.heartbeat, g.flight)
  | .victory => some (.victory, g.flight)
  | .restart => some (.restart, g.flight)

end Session

/-- What happens in a session. A round that ends in a fault is not one: nothing of what the process
had sent in it is under way. -/
def sessionStep (resolve : Bytes → Bytes → Option RmpAddress) (g : Session) : Action → Option Session
  | .join address nickname addrPort weather =>
    if address ∈ g.roll.map Member.address then none
    else do
      let j ← (joinChat (Session.env resolve weather) nickname (inetNtoa address) (portText address)
        addrPort).toOption
      some {
        procs := Function.update g.procs address (some (.joining j))
        flight := g.flight ++ Session.posted weather address j.node.sent
        roll := g.roll ++ [⟨address, nickname⟩]
        heard := g.heard }
  | .round address cue weather locals => do
    let p ← g.procs address
    let (event, rest) ← g.read address cue
    let result ← processStep (Session.env resolve weather) locals p.quiet event
    let p' ← result.toOption
    some {
      procs := Function.update g.procs address (some p')
      flight := rest ++ Session.posted weather address p'.node.sent
      roll := g.roll
      heard := g.heard ++ ((p.hears locals event).map fun id => (address, id)).toList }
  | .crash address => some { g with procs := Function.update g.procs address none }
  | .lose k => some { g with flight := g.flight.eraseIdx k }
  | .copy k => (g.flight[k]?).map fun p => { g with flight := g.flight ++ [p] }

/-- The session of a process that has just started a chat. -/
def Founded (founder : Member) (g : Session) : Prop :=
  ∃ s, startChat founder.nickname (inetNtoa founder.address) (portText founder.address) = .ok s ∧
    g = ⟨fun a => if a = founder.address then some (.chatting s) else none, [], [founder], []⟩

/-- **What a round does**: the process at `address` goes from `p` to `p'`. -/
structure Session.Moved (resolve : Bytes → Bytes → Option RmpAddress) (g : Session)
    (address : RmpAddress) (cue : Cue) (weather : Weather) (locals : Locals) (p p' : Process)
    (event : Event) (rest : List (Packet RmpAddress Bytes)) (g' : Session) : Prop where
  live : g.procs address = some p
  read : g.read address cue = some (event, rest)
  ran : processStep (Session.env resolve weather) locals p.quiet event = some (.ok p')
  procs : g'.procs = Function.update g.procs address (some p')
  flight : g'.flight = rest ++ Session.posted weather address p'.node.sent
  roll : g'.roll = g.roll
  heard : g'.heard = g.heard ++ ((p.hears locals event).map fun id => (address, id)).toList

section Steps

variable {resolve : Bytes → Bytes → Option RmpAddress} {g g' : Session} {address : RmpAddress}
  {cue : Cue} {weather : Weather} {locals : Locals} {p p' : Process} {event : Event}
  {rest : List (Packet RmpAddress Bytes)}

theorem moved_of_round (h : sessionStep resolve g (.round address cue weather locals) = some g') :
    ∃ p p' event rest, g.Moved resolve address cue weather locals p p' event rest g' := by
  obtain ⟨p, hp, h⟩ := Option.bind_eq_some_iff.1 h
  obtain ⟨⟨event, rest⟩, hread, h⟩ := Option.bind_eq_some_iff.1 h
  obtain ⟨result, hran, h⟩ := Option.bind_eq_some_iff.1 h
  obtain ⟨p', hok, h⟩ := Option.bind_eq_some_iff.1 h
  obtain rfl := Option.some.inj h
  obtain rfl := Fault.toOption_eq_some.1 hok
  exact ⟨p, p', event, rest, hp, hread, hran, rfl, rfl, rfl, rfl⟩

/-- A process is started. -/
theorem joined_of_join {nickname addrPort : Bytes}
    (h : sessionStep resolve g (.join address nickname addrPort weather) = some g') :
    ∃ j, address ∉ g.roll.map Member.address ∧
      joinChat (Session.env resolve weather) nickname (inetNtoa address) (portText address) addrPort =
        .ok j ∧
      g' = ⟨Function.update g.procs address (some (.joining j)),
        g.flight ++ Session.posted weather address j.node.sent, g.roll ++ [⟨address, nickname⟩],
        g.heard⟩ := by
  rw [sessionStep] at h
  split at h
  · cases h
  next hnew =>
  obtain ⟨j, hj, h⟩ := Option.bind_eq_some_iff.1 h
  exact ⟨j, hnew, Fault.toOption_eq_some.1 hj, (Option.some.inj h).symm⟩

theorem Session.posted_sublist (weather : Weather) (src : RmpAddress) (log : List Sent) :
    (Session.posted weather src log).Sublist (log.map fun e => ⟨src, e.dst, e.message⟩) := by
  have hlog : (log.zipIdx.map Prod.fst).Sublist log := by rw [List.zipIdx_map_fst]
  exact ((List.filter_sublist.map _).trans hlog).map _

theorem Session.mem_posted {src : RmpAddress} {log : List Sent} {p : Packet RmpAddress Bytes}
    (h : p ∈ Session.posted weather src log) :
    ∃ e ∈ log, p = ⟨src, e.dst, e.message⟩ ∧ ∃ k, weather.arrives k e.dst = true := by
  obtain ⟨e, he, rfl⟩ := List.mem_map.1 h
  obtain ⟨⟨e, k⟩, hk, rfl⟩ := List.mem_map.1 he
  obtain ⟨hmem, harrives⟩ := List.mem_filter.1 hk
  have hlog : e ∈ log.zipIdx.map Prod.fst := List.mem_map_of_mem hmem
  rw [List.zipIdx_map_fst] at hlog
  exact ⟨e, hlog, rfl, k, harrives⟩

end Steps

/-! ## What a process does -/

/-- **The rounds of a process**: in `join_chat` it asks again or is let in, in `chat` it reacts. -/
inductive Round (env : Env) (locals : Locals) : Process → Event → Process → Prop
  | asked {j j' : Joining} {e : Sent} {buf : Bytes} {src : RmpAddress}
    (hnode : j'.node = { j.node with sent := [e] })
    (hmessage : e.message = addMeCmd j.node.thisNickname) :
    Round env locals (.joining j) (.receive buf src) (.joining j')
  | entered {j : Joining} {s₁ s' : Node} {buf : Bytes} {src : RmpAddress}
    (hrole : s₁.thisNickname = j.node.thisNickname ∧ s₁.isLeader = j.node.isLeader ∧
      s₁.clockNum = j.node.clockNum)
    (hsent : s'.sent = []) (hreads : JoinReads buf messageParticipantUpdate)
    (h : processParticipantUpdate s₁ buf true = .ok s') :
    Round env locals (.joining j) (.receive buf src) (.chatting s')
  | reacted {s s' : Node} {event : Event}
    (h : Reaction env locals { s with sent := [] } event s') :
    Round env locals (.chatting s) event (.chatting s')

section Rounds

variable {env : Env} {nickname ipAddress portNum addrPort : Bytes} {j : Joining}

/-- The node of a process that has just asked to be let in. -/
theorem joinChat_ok (h : joinChat env nickname ipAddress portNum addrPort = .ok j) :
    ∃ e lines, j.node = { Node.modelInit nickname false with sent := [e], printed := lines } ∧
      e.message = addMeCmd nickname := by
  unfold joinChat at h
  dsimp only at h
  split at h
  · cases h
  split at h
  · cases h
  split at h
  · cases h
  split at h
  · cases h
  obtain ⟨e, rfl, -, hmessage, -⟩ := sendAddMe_ok h
  exact ⟨e, _, rfl, hmessage⟩

/-- It has sent one message. -/
theorem message_of_joinChat (h : joinChat env nickname ipAddress portNum addrPort = .ok j) {e : Sent}
    (he : e ∈ j.node.sent) : e.message = addMeCmd nickname := by
  obtain ⟨e', lines, hnode, hmessage⟩ := joinChat_ok h
  rw [hnode] at he
  obtain rfl := List.mem_singleton.1 he
  exact hmessage

/-- The node of a process that has just started a chat. -/
theorem startChat_ok {s : Node} (h : startChat nickname ipAddress portNum = .ok s) :
    ∃ q lines, s = { Node.modelInit nickname true with
        leader := some q.toPeer, participants := [q], numParticipants := 1, nextPtr := 1,
        printed := lines } ∧
      q.fields = (nickname, ipAddress, portNum) := by
  obtain ⟨s₁, hinsert, h⟩ := Fault.bind_eq_ok.1 h
  unfold Node.insertParticipant at hinsert
  dsimp only at hinsert
  split at hinsert
  · cases hinsert
  obtain rfl := Except.ok.inj hinsert
  obtain rfl := Except.ok.inj h
  exact ⟨⟨⟨0, nickname, ipAddress, portNum⟩, true⟩, _, rfl, rfl⟩

/-- A process that reacts and goes on takes a round. -/
theorem round_of_processStep {locals : Locals} {p p' : Process} {event : Event}
    (h : processStep env locals p.quiet event = some (.ok p')) : Round env locals p event p' := by
  cases p with
  | joining j =>
    cases event with
    | receive buf src =>
      obtain ⟨j₁, j', rfl, hnode, hsend⟩ | ⟨s', hreads, rfl, hupdate⟩ :=
        joinReceive_ok (Option.some.inj h)
      · obtain ⟨e, rfl, -, hmessage, -⟩ := sendAddMe_ok hsend
        refine .asked (e := e) ?_ ?_
        · rw [hnode]
          rfl
        · rw [hmessage, hnode]
      · refine .entered ?_ (processParticipantUpdate_role hupdate).sent hreads hupdate
        exact ⟨rfl, rfl, rfl⟩
    | stdin buf => cases h
    | heartbeat => cases h
    | victory => cases h
    | restart => cases h
  | chatting s =>
    obtain ⟨r, hr, hp'⟩ := Option.map_eq_some_iff.1 h
    cases r with
    | error e => cases hp'
    | ok s' =>
      obtain rfl := Except.ok.inj hp'
      exact .reacted (reaction_of_chatStep hr)

theorem Session.Moved.round {resolve : Bytes → Bytes → Option RmpAddress} {g g' : Session}
    {address : RmpAddress} {cue : Cue} {weather : Weather} {locals : Locals} {p p' : Process}
    {event : Event} {rest : List (Packet RmpAddress Bytes)}
    (h : g.Moved resolve address cue weather locals p p' event rest g') :
    Round (Session.env resolve weather) locals p event p' :=
  round_of_processStep h.ran

/-- **What a process sends in a round**: an ADD_ME, a MESSAGE_BROADCAST, or what else
a node sends. -/
theorem Round.sent_cases {locals : Locals} {p p' : Process} {event : Event} {e : Sent}
    (h : Round env locals p event p') (he : e ∈ p'.node.sent) :
    (∃ j, p = .joining j ∧ e.message = addMeCmd j.node.thisNickname) ∨
      ∃ s s', p = .chatting s ∧ p' = .chatting s' ∧
        ((∃ numbers, Numbered env { s with sent := [] } s' numbers ∧ e ∈ numbers) ∨
          Dispatched env locals { s with sent := [] } event s' e) := by
  cases h with
  | @asked j j' e' _ _ hnode hmessage =>
    rw [Process.node, hnode] at he
    obtain rfl := List.mem_singleton.1 he
    exact .inl ⟨j, rfl, hmessage⟩
  | entered _ hsent _ _ =>
    rw [Process.node, hsent] at he
    cases he
  | @reacted s s' _ hr =>
    obtain ⟨numbers, log, hsent, hnumbers, hlog⟩ := hr.dispatched
    rw [Process.node, hsent, List.nil_append] at he
    refine .inr ⟨s, s', rfl, rfl, ?_⟩
    obtain he | he := List.mem_append.1 he
    · exact .inl ⟨numbers, hnumbers, he⟩
    · exact .inr (hlog e he)

end Rounds

/-! ## Properties of all processes and all messages -/

/-- `P` holds of every process and `Q` of every message under way. -/
structure Session.All (P : RmpAddress → Process → Prop) (Q : Packet RmpAddress Bytes → Prop)
    (g : Session) : Prop where
  procs : ∀ a p, g.procs a = some p → P a p
  flight : ∀ x ∈ g.flight, Q x

section Everywhere

variable {resolve : Bytes → Bytes → Option RmpAddress} {g g' : Session} {address : RmpAddress}
  {cue : Cue} {weather : Weather} {locals : Locals} {p p' : Process} {event : Event}
  {rest : List (Packet RmpAddress Bytes)} {P : RmpAddress → Process → Prop}
  {Q : Packet RmpAddress Bytes → Prop}

/-- The founder alone. -/
theorem Founded.all {founder : Member} (h : Founded founder g)
    (hp : ∀ s, startChat founder.nickname (inetNtoa founder.address) (portText founder.address) =
      .ok s → P founder.address (.chatting s)) : g.All P Q := by
  obtain ⟨s, hs, rfl⟩ := h
  refine ⟨fun a p hap => ?_, fun x hx => by cases hx⟩
  dsimp only at hap
  split at hap
  · next ha =>
    obtain rfl := Option.some.inj hap
    exact ha ▸ hp s hs
  · cases hap

/-- The message that a process receives is under way, and what is left was. -/
theorem Session.mem_of_read (h : g.read address cue = some (event, rest)) :
    (∀ buf src, event = .receive buf src → (⟨src, address, buf⟩ : Packet RmpAddress Bytes) ∈ g.flight) ∧
      rest.Sublist g.flight := by
  cases cue with
  | receive k =>
    obtain ⟨x, hx, h⟩ := Option.bind_eq_some_iff.1 h
    split at h
    · next hdst =>
      obtain ⟨rfl, rfl⟩ := Prod.mk.inj (Option.some.inj h)
      refine ⟨?_, List.eraseIdx_sublist _ _⟩
      intro buf src hevent
      obtain ⟨rfl, rfl⟩ := Event.receive.inj hevent
      exact hdst ▸ List.mem_of_getElem? hx
    · cases h
  | stdin buf | heartbeat | victory | restart =>
    obtain ⟨rfl, rfl⟩ := Prod.mk.inj (Option.some.inj h)
    refine ⟨fun buf src hevent => ?_, List.Sublist.refl _⟩
    cases hevent

/-- A process after another one has been replaced. -/
theorem live_of_update {q : Option Process} {a : RmpAddress}
    (h : Function.update g.procs address q a = some p) :
    a = address ∧ q = some p ∨ a ≠ address ∧ g.procs a = some p := by
  by_cases ha : a = address
  · rw [ha, Function.update_self] at h
    exact .inl ⟨ha, h⟩
  · rw [Function.update_of_ne ha] at h
    exact .inr ⟨ha, h⟩

/-- The new state of one process, and what it has sent. -/
theorem Session.All.update (h : g.All P Q) {flight : List (Packet RmpAddress Bytes)}
    {roll : List Member} {heard : List (RmpAddress × ℤ)} (hsub : flight.Sublist g.flight)
    (hp : P address p) (hsent : ∀ e ∈ p.node.sent, Q ⟨address, e.dst, e.message⟩) :
    (⟨Function.update g.procs address (some p),
      flight ++ Session.posted weather address p.node.sent, roll, heard⟩ : Session).All P Q := by
  refine ⟨fun a p₁ hp₁ => ?_, fun x hx => ?_⟩
  · obtain ⟨rfl, hq⟩ | ⟨-, hold⟩ := live_of_update hp₁
    · exact Option.some.inj hq ▸ hp
    · exact h.procs a p₁ hold
  · obtain hx | hx := List.mem_append.1 hx
    · exact h.flight x (hsub.subset hx)
    · obtain ⟨e, he, rfl, -⟩ := Session.mem_posted hx
      exact hsent e he

end Everywhere

section Rules

variable {resolve : Bytes → Bytes → Option RmpAddress} {ok : Session → Action → Prop}
  {init J : Session → Prop} {P : List Member → RmpAddress → Process → Prop}
  {Q : List Member → Packet RmpAddress Bytes → Prop}

/-- **The rule for properties of all processes and all messages**, which may depend on the roll. A
process that is started has them, and a round keeps them; `J` is known of every state reached. -/
theorem Session.all_of_moved (hJ : ∀ g, Reach (sessionStep resolve) ok init g → J g)
    (hinit : ∀ g, init g → g.All (P g.roll) (Q g.roll))
    (hgrow : ∀ roll m, (∀ a p, P roll a p → P (roll ++ [m]) a p) ∧ ∀ x, Q roll x → Q (roll ++ [m]) x)
    (hjoin : ∀ (g : Session) address nickname addrPort weather j, J g →
      ok g (.join address nickname addrPort weather) →
      joinChat (Session.env resolve weather) nickname (inetNtoa address) (portText address) addrPort =
        .ok j →
      P (g.roll ++ [⟨address, nickname⟩]) address (.joining j) ∧
        ∀ e ∈ j.node.sent, Q (g.roll ++ [⟨address, nickname⟩]) ⟨address, e.dst, e.message⟩)
    (hround : ∀ (g g' : Session) address cue weather locals p p' event rest, J g →
      ok g (.round address cue weather locals) →
      g.Moved resolve address cue weather locals p p' event rest g' → P g.roll address p →
      (∀ buf src, event = .receive buf src → Q g.roll ⟨src, address, buf⟩) →
      P g.roll address p' ∧ ∀ e ∈ p'.node.sent, Q g.roll ⟨address, e.dst, e.message⟩)
    {g : Session} (h : Reach (sessionStep resolve) ok init g) : g.All (P g.roll) (Q g.roll) := by
  refine h.invariant_of (I := fun g => g.All (P g.roll) (Q g.roll)) hJ hinit ?_
  intro g action g' hg hI hok hs
  cases action with
  | join address nickname addrPort weather =>
    obtain ⟨j, -, hj, rfl⟩ := joined_of_join hs
    obtain ⟨hp, hsent⟩ := hjoin g address nickname addrPort weather j hg hok hj
    obtain ⟨hgrowP, hgrowQ⟩ := hgrow g.roll ⟨address, nickname⟩
    have hgrown : g.All (P (g.roll ++ [⟨address, nickname⟩])) (Q (g.roll ++ [⟨address, nickname⟩])) :=
      ⟨fun a p hap => hgrowP a p (hI.procs a p hap), fun x hx => hgrowQ x (hI.flight x hx)⟩
    exact hgrown.update (List.Sublist.refl _) hp hsent
  | round address cue weather locals =>
    obtain ⟨p, p', event, rest, hm⟩ := moved_of_round hs
    obtain ⟨hread, hsub⟩ := Session.mem_of_read hm.read
    obtain ⟨hp, hsent⟩ := hround g g' address cue weather locals p p' event rest hg hok hm
      (hI.procs _ _ hm.live) fun buf src hevent => hI.flight _ (hread buf src hevent)
    have hg' : g' = ⟨_, _, _, _⟩ := rfl
    rw [hm.procs, hm.flight, hm.roll] at hg'
    rw [hg']
    exact hI.update hsub hp hsent
  | crash address =>
    obtain rfl := Option.some.inj hs
    refine ⟨fun a p hp => ?_, hI.flight⟩
    obtain ⟨-, hnone⟩ | ⟨-, hold⟩ := live_of_update hp
    · cases hnone
    · exact hI.procs a p hold
  | lose k =>
    obtain rfl := Option.some.inj hs
    exact ⟨hI.procs, fun x hx => hI.flight x (List.mem_of_mem_eraseIdx hx)⟩
  | copy k =>
    obtain ⟨x, hx, rfl⟩ := Option.map_eq_some_iff.1 hs
    refine ⟨hI.procs, fun y hy => ?_⟩
    obtain hy | hy := List.mem_append.1 hy
    · exact hI.flight y hy
    · exact List.mem_singleton.1 hy ▸ hI.flight x (List.mem_of_getElem? hx)

/-- The rule, for properties that are kept by every `Round`. -/
theorem Session.all_of_reach (hJ : ∀ g, Reach (sessionStep resolve) ok init g → J g)
    (hinit : ∀ g, init g → g.All (P g.roll) (Q g.roll))
    (hgrow : ∀ roll m, (∀ a p, P roll a p → P (roll ++ [m]) a p) ∧ ∀ x, Q roll x → Q (roll ++ [m]) x)
    (hjoin : ∀ (g : Session) address nickname addrPort weather j, J g →
      ok g (.join address nickname addrPort weather) →
      joinChat (Session.env resolve weather) nickname (inetNtoa address) (portText address) addrPort =
        .ok j →
      P (g.roll ++ [⟨address, nickname⟩]) address (.joining j) ∧
        ∀ e ∈ j.node.sent, Q (g.roll ++ [⟨address, nickname⟩]) ⟨address, e.dst, e.message⟩)
    (hround : ∀ (g : Session) address cue weather locals p event p', J g →
      ok g (.round address cue weather locals) → P g.roll address p →
      (∀ buf src, event = .receive buf src → Q g.roll ⟨src, address, buf⟩) →
      Round (Session.env resolve weather) locals p event p' →
      P g.roll address p' ∧ ∀ e ∈ p'.node.sent, Q g.roll ⟨address, e.dst, e.message⟩)
    {g : Session} (h : Reach (sessionStep resolve) ok init g) : g.All (P g.roll) (Q g.roll) := by
  refine Session.all_of_moved hJ hinit hgrow hjoin ?_ h
  intro g g' address cue weather locals p p' event rest hg hok hm hp hread
  exact hround g address cue weather locals p event p' hg hok hp hread hm.round

end Rules

/-! ## Runs on given actions -/

/-- The session of a process right after `start_chat`. -/
def founding (founder : Member) : Option Session :=
  (startChat founder.nickname (inetNtoa founder.address) (portText founder.address)).toOption.map
    fun s => ⟨fun a => if a = founder.address then some (.chatting s) else none, [], [founder], []⟩

/-- What a session looks like after a list of actions from its foundation. -/
theorem exists_session_of_exec {resolve : Bytes → Bytes → Option RmpAddress}
    {ok : Session → Action → Prop} [∀ g l, Decidable (ok g l)] {founder : Member}
    {actions : List Action} {β : Type} {f : Session → β} {b : β}
    (h : ((founding founder).bind fun g => exec (sessionStep resolve) ok g actions).map f = some b) :
    ∃ g, Reach (sessionStep resolve) ok (Founded founder) g ∧ f g = b := by
  obtain ⟨g, hg, hb⟩ := Option.map_eq_some_iff.1 h
  obtain ⟨g₀, hg₀, hrun⟩ := Option.bind_eq_some_iff.1 hg
  obtain ⟨s, hs, rfl⟩ := Option.map_eq_some_iff.1 hg₀
  exact ⟨g, reach_exec actions (.start ⟨s, Fault.toOption_eq_some.1 hs, rfl⟩) hrun, hb⟩

/-- Every send succeeds. -/
def fairWeather : Weather := ⟨fun _ _ message => message.length + 1, fun _ _ => true⟩

/-- The sends to `a` time out, and their messages do not arrive. -/
def deafWeather (a : RmpAddress) : Weather where
  sendTo _ dst message := if dst = a then rmpETimeout else message.length + 1
  arrives _ dst := dst ≠ a

/-- The process `a` at port 80 of the local host. -/
def host : Member := ⟨localHost 80, str "a"⟩

/-- The oldest message is received by the process at a port of the local host, and
all sends succeed. -/
def receiveAt (port : BitVec 16) : Action :=
  .round (localHost port) (.receive 0) fairWeather .blank

/-- `a` lets in `b` at port 81 and `c` at port 82. -/
def gathering : List Action :=
  [.join (localHost 81) (str "b") (str "127.0.0.1:80") fairWeather, receiveAt 80, receiveAt 81,
    .join (localHost 82) (str "c") (str "127.0.0.1:80") fairWeather, receiveAt 80, receiveAt 81,
    receiveAt 82]

end Dchat.Chat
