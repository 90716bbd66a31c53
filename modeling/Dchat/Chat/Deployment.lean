import Dchat.Chat.Texts
import Dchat.RMP.Whole

/-!
# A chat over RMP over UDP

The processes of a chat, each of them with the state of the RMP library in it, and the datagrams
under way between them: a deployment. A process reacts to a line, a timer or a message, and makes
the calls of `RMP_sendTo` of its reaction one after the other, each of which waits for its ACK and
sends again while the other processes go on; a message comes to it out of `RMP_listen`. The network
loses, duplicates and reorders datagrams as it likes.

A reaction is computed when it begins, with what its calls will return, and a step in which a call
returns anything else is refused. A process that exits, or reads or writes outside its memory, is
gone when the reaction begins, with nothing of what it would have sent; one that a call of
`RMP_sendTo` makes exit is one that crashes in this call.

* `exists_session`: as long as `RMP_listen` reports every message under the address of a process
  that has sent it (`Attributed`), a run of a deployment is one of a session. Whatever a call of
  `RMP_sendTo` was given is under way in the session, and what RMP makes of it (a loss, a second
  copy, another order) is something that a session may do.
* `attributed_of_regular`: RMP does so between hosts with distinct IP addresses that draw distinct
  message ids.
* `session_of_deployment`: between these, a run of a deployment is one of a session.
* `beliefs_of_deployment`: what holds of the processes of a session holds over RMP over UDP, for the
  lists and the leaders that they have.
-/

namespace Dchat.Chat

open CString Stdio RMP RMP.Network Links Runs

/-! ## The system -/

/-- A process: the state in which the reaction that it is in will leave it, and the calls of
`RMP_sendTo` of that reaction that have not returned, with what they will return. -/
structure Host where
  process : Process
  calls : List Sent

/-- The RMP processes with the datagrams under way, the hosts, and all who were ever started. -/
structure Deployment where
  network : Network
  hosts : RmpAddress → Option Host
  roll : List Member

/-- What a reaction gets from outside: what its calls of `RMP_sendTo` return, and what the locals
hold, `recv_buff` in `join_chat` among them. -/
structure Surroundings where
  sendTo : ℕ → RmpAddress → Bytes → ℤ
  locals : Locals
  recvBuff : Bytes

/-- What can happen in a deployment. -/
inductive Happening
  /-- A process is started with the arguments of `join_chat`. -/
  | join (address : RmpAddress) (nickname addrPort : Bytes) (sendTo : ℕ → RmpAddress → Bytes → ℤ)
  /-- A process reacts to a line or to a timer. -/
  | react (address : RmpAddress) (event : Event) (o : Surroundings)
  /-- A process takes a step in the RMP library, and reacts to the message that it may return. -/
  | library (address : RmpAddress) (i : Input) (o : Surroundings)
  | crash (address : RmpAddress)
  /-- A datagram gets lost. -/
  | lose (k : ℕ)
  /-- A datagram will arrive once more. -/
  | copy (k : ℕ)

/-- The bytes that are passed to `RMP_sendTo` for a message: the NUL comes with it. The size that
`respond_to_leader_election` gives for ELECTION_STOP has one byte more. -/
def Wraps (message buffer : Bytes) : Prop :=
  buffer = message ++ [0] ∨
    message = messageStopElection ∧ buffer.dropLast = message ++ [0]

instance (message buffer : Bytes) : Decidable (Wraps message buffer) :=
  inferInstanceAs (Decidable (_ = _ ∨ _ = _ ∧ _ = _))

/-- What makes a process react to a line or to a timer; `none` for a message. -/
def Event.cue : Event → Option Cue
  | .receive _ _ => none
  | .stdin buf => some (.stdin buf)
  | .heartbeat => some .heartbeat
  | .victory => some .victory
  | .restart => some .restart

/-- The string in the buffer in which `RMP_listen` has left `bytes`: `chat` ends it at its last
byte, `join_chat` takes it as it comes. -/
def Process.received (recvBuff : Bytes) (bytes : Bytes) : Process → Bytes
  | .joining _ => cString (bytes ++ recvBuff.drop bytes.length)
  | .chatting _ => cString (bytes.dropLast ++ [0])

namespace Host

/-- The calls of RMP that the process makes: those of its reaction, in their order, and after them
`RMP_listen` with a buffer of `MAX_BUFFER_LEN` bytes. -/
def Permits (h : Host) : Input → Prop
  | .rmpListen len _ _ => h.calls = [] ∧ len = maxBufferLen
  | .rmpSendTo destination buffer _ _ =>
    ∃ e ∈ h.calls.head?, destination = e.dst ∧ Wraps e.message buffer
  | _ => True

instance (h : Host) : DecidablePred h.Permits
  | .rmpListen len _ _ => inferInstanceAs (Decidable (h.calls = [] ∧ len = maxBufferLen))
  | .rmpSendTo destination buffer _ _ => inferInstanceAs
      (Decidable (∃ e ∈ h.calls.head?, destination = e.dst ∧ Wraps e.message buffer))
  | .loop .. | .recvfrom .. => inferInstanceAs (Decidable True)

/-- The process reacts to an event, and is gone if it stops in its reaction, with nothing of what it
would have sent. -/
def react (resolve : Bytes → Bytes → Option RmpAddress) (o : Surroundings) (h : Host) (event : Event) :
    Option (Option Host) :=
  (processStep ⟨resolve, o.sendTo⟩ o.locals h.process.quiet event).map fun result =>
    result.toOption.map fun p => ⟨p, p.node.sent⟩

/-- The process after a step in the library. The result of `RMP_sendTo` is the one foretold. An
`RMP_listen` that fails, or has written behind the buffer, ends it, and one that returns 0 leaves it
as it was. -/
def proceed (resolve : Bytes → Bytes → Option RmpAddress) (o : Surroundings) (h : Host) :
    Option Return → Option (Option Host)
  | none => some (some h)
  | some (.sendTo result) =>
    match h.calls with
    | [] => none
    | e :: calls => if result = e.result then some (some { h with calls := calls }) else none
  | some (.listen result src _ bytes _) =>
    if result = 0 then some (some h)
    else if result = bytes.length then
      h.react resolve o (.receive (h.process.received o.recvBuff bytes) src)
    else some none

end Host

/-- What happens in a deployment. -/
def deploymentStep (resolve : Bytes → Bytes → Option RmpAddress) (d : Deployment) :
    Happening → Option Deployment
  | .join address nickname addrPort sendTo =>
    if address ∈ d.roll.map Member.address then none
    else do
      let j ← (joinChat ⟨resolve, sendTo⟩ nickname (inetNtoa address) (portText address)
        addrPort).toOption
      some { d with
        hosts := Function.update d.hosts address (some ⟨.joining j, j.node.sent⟩)
        roll := d.roll ++ [⟨address, nickname⟩] }
  | .react address event o => do
    let h ← d.hosts address
    if (d.network.proc address).call = .idle ∧ h.calls = [] ∧ event.cue.isSome then
      (h.react resolve o event).map fun h' =>
        { d with hosts := Function.update d.hosts address h' }
    else none
  | .library address i o => do
    let h ← d.hosts address
    if h.Permits i then
      let r ← rmpStep (d.network.proc address) i
      let network ← udpStep d.network (.step address i)
      (h.proceed resolve o r.ret).map fun h' =>
        { d with network := network, hosts := Function.update d.hosts address h' }
    else none
  | .crash address => some { d with hosts := Function.update d.hosts address none }
  | .lose k => (udpStep d.network (.lose k)).map fun network => { d with network := network }
  | .copy k => (udpStep d.network (.copy k)).map fun network => { d with network := network }

/-- A step in the library. -/
theorem of_library {resolve : Bytes → Bytes → Option RmpAddress} {d d' : Deployment}
    {address : RmpAddress} {i : Input} {o : Surroundings}
    (h : deploymentStep resolve d (.library address i o) = some d') :
    ∃ host r network h', d.hosts address = some host ∧ host.Permits i ∧
      rmpStep (d.network.proc address) i = some r ∧
      udpStep d.network (.step address i) = some network ∧
      host.proceed resolve o r.ret = some h' ∧
      d' = ⟨network, Function.update d.hosts address h', d.roll⟩ := by
  obtain ⟨host, hhost, h⟩ := Option.bind_eq_some_iff.1 h
  split at h
  · next hpermits =>
    obtain ⟨r, hr, h⟩ := Option.bind_eq_some_iff.1 h
    obtain ⟨network, hstep, h⟩ := Option.bind_eq_some_iff.1 h
    obtain ⟨h', hproceed, rfl⟩ := Option.map_eq_some_iff.1 h
    exact ⟨host, r, network, h', hhost, hpermits, hr, hstep, hproceed, rfl⟩
  · cases h

namespace Deployment

/-- The processes of `nodes` take part, no message id is drawn twice, and the nicknames and what the
arrays for texts hold are strings. -/
def Regular (nodes : Finset RmpAddress) (d : Deployment) : Happening → Prop
  | .join _ nickname _ _ => 0 ∉ nickname
  | .react _ _ o => o.locals.Strings
  | .library address i o => Distinct nodes d.network (.step address i) ∧ o.locals.Strings
  | _ => True

instance (nodes : Finset RmpAddress) (d : Deployment) : DecidablePred (Regular nodes d)
  | .join _ nickname _ _ => inferInstanceAs (Decidable (0 ∉ nickname))
  | .react _ _ o => inferInstanceAs (Decidable o.locals.Strings)
  | .library address i o => inferInstanceAs
      (Decidable (Distinct nodes d.network (.step address i) ∧ o.locals.Strings))
  | .crash _ | .lose _ | .copy _ => inferInstanceAs (Decidable True)

/-- The nicknames and what the arrays for texts hold are strings. -/
def Spelled : Happening → Prop
  | .join _ nickname _ _ => 0 ∉ nickname
  | .react _ _ o | .library _ _ o => o.locals.Strings
  | _ => True

instance : DecidablePred Spelled
  | .join _ nickname _ _ => inferInstanceAs (Decidable (0 ∉ nickname))
  | .react _ _ o | .library _ _ o => inferInstanceAs (Decidable o.locals.Strings)
  | .crash _ | .lose _ | .copy _ => inferInstanceAs (Decidable True)

/-- A message that `RMP_listen` returns to the process at `R` is one that the process at the address
it reports has passed to `RMP_sendTo` for `R`. -/
def Sourced (history : List (RmpAddress × LocalEvent)) (R : RmpAddress) : Option Return → Prop
  | some (.listen result src _ bytes _) =>
    0 < result → bytes ∈ (called src R history).map Outgoing.message
  | _ => True

instance (history : List (RmpAddress × LocalEvent)) (R : RmpAddress) : DecidablePred (Sourced history R)
  | some (.listen result src _ bytes _) => inferInstanceAs
      (Decidable (0 < result → bytes ∈ (called src R history).map Outgoing.message))
  | none | some (.sendTo _) => inferInstanceAs (Decidable True)

/-- **The messages are handed over under the addresses of their senders.** -/
def Attributed (d : Deployment) : Happening → Prop
  | .library address i _ =>
    ∀ r ∈ rmpStep (d.network.proc address) i, Sourced d.network.history address r.ret
  | _ => True

instance (d : Deployment) : DecidablePred (Attributed d)
  | .library address i _ => inferInstanceAs
      (Decidable (∀ r ∈ rmpStep (d.network.proc address) i, Sourced d.network.history address r.ret))
  | .join .. | .react .. | .crash _ | .lose _ | .copy _ => inferInstanceAs (Decidable True)

/-- The nicknames are proper, `RMP_getAddressFor` reads the addresses back, and only processes in
`L` declare victory. -/
def Decent (resolve : Bytes → Bytes → Option RmpAddress) (L : Set RmpAddress) : Happening → Prop
  | .join address nickname _ _ =>
    Proper nickname ∧ resolve (inetNtoa address) (portText address) = some address
  | .react address .victory _ => address ∈ L
  | _ => True

instance (resolve : Bytes → Bytes → Option RmpAddress) (L : Set RmpAddress)
    [DecidablePred (· ∈ L)] : DecidablePred (Decent resolve L)
  | .join .. => inferInstanceAs (Decidable (_ ∧ _ = _))
  | .react address .victory _ => inferInstanceAs (Decidable (address ∈ L))
  | .react _ (.stdin _) _ | .react _ (.receive _ _) _ | .react _ .heartbeat _ | .react _ .restart _ =>
    inferInstanceAs (Decidable True)
  | .library .. | .crash _ | .lose _ | .copy _ => inferInstanceAs (Decidable True)

/-- A process has just started a chat. -/
def Founded (founder : Member) (d : Deployment) : Prop :=
  ∃ s, startChat founder.nickname (inetNtoa founder.address) (portText founder.address) = .ok s ∧
    d.network.Initial ∧
    d.hosts = (fun a => if a = founder.address then some ⟨.chatting s, []⟩ else none) ∧
    d.roll = [founder]

/-- **What a deployment is as a session**: the same processes, and every message that RMP has been
given or will be given is under way. -/
structure Refines (d : Deployment) (g : Session) : Prop where
  roll : g.roll = d.roll
  procs : ∀ a, g.procs a = (d.hosts a).map Host.process
  called : ∀ S R, ∀ m ∈ called S R d.network.history,
    ∃ message, Wraps message m.message ∧ ⟨S, R, message⟩ ∈ g.flight
  pending : ∀ a h, d.hosts a = some h → ∀ e ∈ h.calls, ⟨a, e.dst, e.message⟩ ∈ g.flight

end Deployment

/-! ## Messages and their bytes -/

section Bytes

variable {message buffer : Bytes}

/-- The bytes of a message fit the buffers of the other end. -/
theorem Wraps.length_le (h : Wraps message buffer) (hm : Sendable message) :
    buffer.length ≤ maxBufferLen := by
  obtain rfl | ⟨rfl, hlast⟩ := h
  · rw [List.length_append, List.length_singleton]
    exact hm.length_lt
  · have hlen := congrArg List.length hlast
    rw [List.length_dropLast] at hlen
    have hshort : (messageStopElection ++ [0]).length + 1 ≤ maxBufferLen := by decide
    omega

theorem cString_append_zero (h : 0 ∉ message) (rest : Bytes) :
    cString (message ++ 0 :: rest) = message := by
  have hne : ∀ c ∈ message, (c != 0) = true := fun c hc => bne_iff_ne.2 fun h0 => h (h0 ▸ hc)
  rw [cString, List.takeWhile_append_of_pos hne]
  simp

/-- **The message is what the other end reads** in its buffer. -/
theorem Wraps.received (h : Wraps message buffer) (hm : 0 ∉ message) (recvBuff : Bytes) (p : Process) :
    p.received recvBuff buffer = message := by
  obtain ⟨rest, rfl⟩ : ∃ rest, buffer = message ++ 0 :: rest := by
    obtain rfl | ⟨-, hlast⟩ := h
    · exact ⟨[], rfl⟩
    · have hne : buffer ≠ [] := fun hnil => by simp [hnil] at hlast
      have hsplit := List.dropLast_append_getLast hne
      rw [hlast, List.append_assoc] at hsplit
      exact ⟨[buffer.getLast hne], hsplit.symm⟩
  cases p with
  | joining j =>
    rw [Process.received, List.append_assoc, List.cons_append]
    exact cString_append_zero hm _
  | chatting s =>
    rw [Process.received]
    cases rest with
    | nil =>
      rw [List.dropLast_concat]
      exact cString_append_zero hm []
    | cons x rest =>
      rw [List.dropLast_append_of_ne_nil (by simp), List.dropLast_cons_cons, List.append_assoc,
        List.cons_append]
      exact cString_append_zero hm _

end Bytes

/-! ## Deployments are sessions -/

/-- Whatever is sent will be under way. -/
def certain (sendTo : ℕ → RmpAddress → Bytes → ℤ) : Weather := ⟨sendTo, fun _ _ => true⟩

section Sessions

variable {resolve : Bytes → Bytes → Option RmpAddress} {founder : Member} {g : Session}
  {d : Deployment} {address : RmpAddress} {h : Host} {h' : Option Host} {event : Event}
  {o : Surroundings} {K : Action → Prop}

theorem Session.posted_certain (sendTo : ℕ → RmpAddress → Bytes → ℤ) (src : RmpAddress)
    (log : List Sent) :
    Session.posted (certain sendTo) src log = log.map fun e => ⟨src, e.dst, e.message⟩ := by
  have hfilter : ∀ p : Sent × ℕ → Bool, (∀ x, p x = true) → log.zipIdx.filter p = log.zipIdx :=
    fun p hp => List.filter_eq_self.2 fun x _ => hp x
  rw [Session.posted, hfilter, List.zipIdx_map_fst]
  exact fun _ => rfl

/-- A condition on what happens in a session, which says nothing about crashes, copies and the
messages that are received. -/
structure Ambient (K : Action → Prop) : Prop where
  crash : ∀ address, K (.crash address)
  copy : ∀ k, K (.copy k)
  receive : ∀ address k weather locals, K (.round address (.receive k) weather locals)

/-- The same condition on what happens in a deployment. -/
def Deployment.Meets (K : Action → Prop) : Happening → Prop
  | .join address nickname addrPort sendTo => K (.join address nickname addrPort (certain sendTo))
  | .react address event o => ∀ cue ∈ event.cue, K (.round address cue (certain o.sendTo) o.locals)
  | _ => True

/-- The runs of sessions that a deployment is compared with. -/
abbrev Lived (resolve : Bytes → Bytes → Option RmpAddress) (K : Action → Prop) (founder : Member)
    (g : Session) : Prop :=
  Reach (sessionStep resolve) (fun _ action => Tidy action ∧ K action) (Dchat.Chat.Founded founder) g

/-- An event can come up, and everything that was under way still is. A message is copied before. -/
theorem exists_cue (hK : Ambient K) (hg : Lived resolve K founder g)
    (hmeets : ∀ cue ∈ event.cue, K (.round address cue (certain o.sendTo) o.locals))
    (hevent : ∀ buf src, event = .receive buf src → ⟨src, address, buf⟩ ∈ g.flight) :
    ∃ cue g₁, Lived resolve K founder g₁ ∧ g₁.procs = g.procs ∧ g₁.roll = g.roll ∧
      g₁.read address cue = some (event, g.flight) ∧
      K (.round address cue (certain o.sendTo) o.locals) := by
  cases event with
  | receive buf src =>
    obtain ⟨k, hk⟩ := List.mem_iff_getElem?.1 (hevent buf src rfl)
    have hcopy : sessionStep resolve g (.copy k) =
        some { g with flight := g.flight ++ [⟨src, address, buf⟩] } := by rw [sessionStep, hk]; rfl
    refine ⟨.receive g.flight.length, _, hg.next (l := .copy k) ⟨trivial, hK.copy k⟩ hcopy, rfl,
      rfl, ?_, hK.receive ..⟩
    simp [Session.read, List.eraseIdx_append_of_length_le]
  | stdin buf => exact ⟨.stdin buf, g, hg, rfl, rfl, rfl, hmeets _ rfl⟩
  | heartbeat => exact ⟨.heartbeat, g, hg, rfl, rfl, rfl, hmeets _ rfl⟩
  | victory => exact ⟨.victory, g, hg, rfl, rfl, rfl, hmeets _ rfl⟩
  | restart => exact ⟨.restart, g, hg, rfl, rfl, rfl, hmeets _ rfl⟩

namespace Deployment.Refines

/-- Steps of the library that are given no message that is not under way. -/
theorem network {network : Network} (hR : d.Refines g)
    (hcalled : ∀ S R, ∀ m ∈ Network.called S R network.history,
      ∃ message, Wraps message m.message ∧ ⟨S, R, message⟩ ∈ g.flight) :
    ({ d with network := network } : Deployment).Refines g :=
  ⟨hR.roll, hR.procs, hcalled, hR.pending⟩

/-- The process at an address is another one, which has called for what is under way. -/
theorem update {g' : Session} (hR : d.Refines g) (hroll : g'.roll = g.roll)
    (hprocs : g'.procs = Function.update g.procs address (h'.map Host.process))
    (hflight : g.flight ⊆ g'.flight)
    (hcalls : ∀ h ∈ h', ∀ e ∈ h.calls, ⟨address, e.dst, e.message⟩ ∈ g'.flight) :
    ({ d with hosts := Function.update d.hosts address h' } : Deployment).Refines g' := by
  refine ⟨hroll.trans hR.roll, fun a => ?_, fun S R m hm => ?_, fun a h₁ hh₁ e he => ?_⟩
  · dsimp only
    rw [hprocs, Function.update_apply, Function.update_apply, hR.procs a]
    split <;> rfl
  · obtain ⟨message, hwraps, hmem⟩ := hR.called S R m hm
    exact ⟨message, hwraps, hflight hmem⟩
  · dsimp only at hh₁
    rw [Function.update_apply] at hh₁
    split at hh₁
    · next ha => exact ha ▸ hcalls h₁ hh₁ e he
    · exact hflight (hR.pending a h₁ hh₁ e he)

/-- A process is gone. -/
theorem gone (hK : Ambient K) (hg : Lived resolve K founder g) (hR : d.Refines g)
    (address : RmpAddress) :
    ∃ g', Lived resolve K founder g' ∧
      ({ d with hosts := Function.update d.hosts address none } : Deployment).Refines g' :=
  ⟨_, hg.next (l := .crash address) ⟨trivial, hK.crash address⟩ rfl,
    hR.update rfl rfl (fun _ hx => hx) fun _ hh => by cases hh⟩

/-- **A reaction is a round**, after the message that is received has been copied. -/
theorem react (hK : Ambient K) (hg : Lived resolve K founder g) (hR : d.Refines g)
    (hh : d.hosts address = some h) (hlocals : o.locals.Strings)
    (hmeets : ∀ cue ∈ event.cue, K (.round address cue (certain o.sendTo) o.locals))
    (hevent : ∀ buf src, event = .receive buf src → ⟨src, address, buf⟩ ∈ g.flight)
    (hreact : h.react resolve o event = some h') :
    ∃ g', Lived resolve K founder g' ∧
      ({ d with hosts := Function.update d.hosts address h' } : Deployment).Refines g' := by
  obtain ⟨result, hran, rfl⟩ := Option.map_eq_some_iff.1 hreact
  cases result with
  | error e => exact hR.gone hK hg address
  | ok p =>
    have hlive : g.procs address = some h.process := by
      rw [hR.procs, hh]
      rfl
    obtain ⟨cue, g₁, hg₁, hprocs, hroll, hread, hcue⟩ := exists_cue hK hg hmeets hevent
    have hround : sessionStep resolve g₁ (.round address cue (certain o.sendTo) o.locals) = some
        ⟨Function.update g₁.procs address (some p),
          g.flight ++ Session.posted (certain o.sendTo) address p.node.sent, g₁.roll,
          g₁.heard ++ ((h.process.hears o.locals event).map fun id => (address, id)).toList⟩ := by
      have hran : processStep (Session.env resolve (certain o.sendTo)) o.locals h.process.quiet event =
        some (.ok p) := hran
      rw [sessionStep, hprocs, hlive]
      simp only [Option.bind_eq_bind, Option.bind_some, hread, hran, Except.toOption]
    refine ⟨_, hg₁.next (l := .round ..) ⟨hlocals, hcue⟩ hround, hR.update hroll ?_ ?_ ?_⟩
    · rw [hprocs]
      rfl
    · exact List.subset_append_left _ _
    · intro h₁ hh₁ e he
      obtain rfl := Option.some.inj hh₁
      rw [Session.posted_certain]
      exact List.mem_append_right _ (List.mem_map.2 ⟨e, he, rfl⟩)

/-- A step of the library is given messages that are under way, with room in the buffers. -/
theorem permitted (hg : g.All (fun _ p => p.node.Strings) fun x => Sendable x.body)
    (hR : d.Refines g) {i : Input} (hh : d.hosts address = some h) (hpermits : h.Permits i) :
    Roomy maxBufferLen (.step address i) ∧ ∀ m r, .call m ∈ localEvents i r →
      ∃ message, Wraps message m.message ∧ ⟨address, m.dest, message⟩ ∈ g.flight := by
  cases i with
  | rmpListen len recvSrcAddress c =>
    refine ⟨hpermits.2 ▸ le_refl _, fun m r hm => ?_⟩
    obtain ⟨_, heq⟩ := input_of_call hm
    cases heq
  | rmpSendTo destination buffer newId o =>
    obtain ⟨e, he, rfl, hwraps⟩ := hpermits
    have hmem := hR.pending address h hh e (List.mem_of_mem_head? he)
    refine ⟨hwraps.length_le (hg.flight _ hmem), fun m r hm => ?_⟩
    obtain ⟨_, heq⟩ := input_of_call hm
    obtain ⟨hdst, rfl, -, -⟩ := Input.rmpSendTo.inj heq
    exact ⟨e.message, hwraps, hdst ▸ hmem⟩
  | loop | recvfrom =>
    refine ⟨trivial, fun m r hm => ?_⟩
    obtain ⟨_, heq⟩ := input_of_call hm
    cases heq

/-- A process that is started. -/
theorem join {nickname addrPort : Bytes} {sendTo : ℕ → RmpAddress → Bytes → ℤ} {j : Joining}
    (hg : Lived resolve K founder g) (hR : d.Refines g) (hnickname : 0 ∉ nickname)
    (hmeets : K (.join address nickname addrPort (certain sendTo)))
    (hnew : address ∉ d.roll.map Member.address)
    (hj : joinChat ⟨resolve, sendTo⟩ nickname (inetNtoa address) (portText address) addrPort = .ok j) :
    ∃ g', Lived resolve K founder g' ∧ Deployment.Refines
      ⟨d.network, Function.update d.hosts address (some ⟨.joining j, j.node.sent⟩),
        d.roll ++ [⟨address, nickname⟩]⟩ g' := by
  have hjoin : sessionStep resolve g (.join address nickname addrPort (certain sendTo)) = some
      ⟨Function.update g.procs address (some (.joining j)),
        g.flight ++ Session.posted (certain sendTo) address j.node.sent,
        g.roll ++ [⟨address, nickname⟩], g.heard⟩ := by
    have hj : joinChat (Session.env resolve (certain sendTo)) nickname (inetNtoa address)
      (portText address) addrPort = .ok j := hj
    rw [sessionStep, if_neg (hR.roll ▸ hnew), hj]
    rfl
  have hkept : Deployment.Refines
      { d with hosts := Function.update d.hosts address (some ⟨.joining j, j.node.sent⟩) }
      ⟨Function.update g.procs address (some (.joining j)),
        g.flight ++ Session.posted (certain sendTo) address j.node.sent, g.roll, g.heard⟩ := by
    refine hR.update rfl rfl (List.subset_append_left _ _) fun h₁ hh₁ e he => ?_
    obtain rfl := Option.some.inj hh₁
    rw [Session.posted_certain]
    exact List.mem_append_right _ (List.mem_map.2 ⟨e, he, rfl⟩)
  exact ⟨_, hg.next (l := .join ..) ⟨hnickname, hmeets⟩ hjoin, congrArg (· ++ _) hR.roll, hkept.procs,
    hkept.called, hkept.pending⟩

/-- **A step in the library**: a message that `RMP_listen` returns is under way. -/
theorem library {i : Input} {r : StepResult} {network : Network} (hK : Ambient K)
    (hg : Lived resolve K founder g) (hR : d.Refines g)
    (hstrings : g.All (fun _ p => p.node.Strings) fun x => Sendable x.body)
    (hh : d.hosts address = some h) (hpermits : h.Permits i) (hlocals : o.locals.Strings)
    (hsourced : Sourced d.network.history address r.ret)
    (hhist : network.history =
      d.network.history ++ (localEvents i r).map fun e => (address, e))
    (hproceed : h.proceed resolve o r.ret = some h') :
    ∃ g', Lived resolve K founder g' ∧
      Deployment.Refines ⟨network, Function.update d.hosts address h', d.roll⟩ g' := by
  have hcalled : ∀ S R, ∀ m ∈ Network.called S R network.history,
      ∃ message, Wraps message m.message ∧ ⟨S, R, message⟩ ∈ g.flight := by
    intro S R m hm
    rw [hhist, called_append] at hm
    obtain hm | hm := List.mem_append.1 hm
    · exact hR.called S R m hm
    · obtain ⟨hmem, rfl⟩ := mem_called.1 hm
      obtain ⟨e, he, heq⟩ := List.mem_map.1 hmem
      obtain ⟨rfl, rfl⟩ := Prod.mk.inj heq
      exact (hR.permitted hstrings hh hpermits).2 m r he
  have hR' := hR.network hcalled
  have hprocs : ∀ h₁ : Host, h₁.process = h.process →
      g.procs = Function.update g.procs address ((some h₁).map Host.process) := by
    intro h₁ hprocess
    rw [Option.map_some, hprocess, ← Option.map_some (f := Host.process), ← hh, ← hR.procs,
      Function.update_eq_self]
  unfold Host.proceed at hproceed
  split at hproceed
  · obtain rfl := Option.some.inj hproceed
    exact ⟨g, hg, hR'.update rfl (hprocs h rfl) (fun _ hx => hx) fun h₁ hh₁ =>
      Option.some.inj hh₁ ▸ hR.pending address h hh⟩
  · next result _ =>
    split at hproceed
    · cases hproceed
    next e calls hcalls =>
    split at hproceed
    · obtain rfl := Option.some.inj hproceed
      refine ⟨g, hg, hR'.update rfl (hprocs _ rfl) (fun _ hx => hx) fun h₁ hh₁ e' he' => ?_⟩
      obtain rfl := Option.some.inj hh₁
      exact hR.pending address h hh e' (hcalls ▸ .tail _ he')
    · cases hproceed
  · next result src id bytes delivered hret =>
    split at hproceed
    · obtain rfl := Option.some.inj hproceed
      exact ⟨g, hg, hR'.update rfl (hprocs h rfl) (fun _ hx => hx) fun h₁ hh₁ =>
        Option.some.inj hh₁ ▸ hR.pending address h hh⟩
    split at hproceed
    · next hzero hlen =>
      rw [hret] at hsourced
      obtain ⟨m, hm, rfl⟩ := List.mem_map.1 (hsourced (by omega))
      obtain ⟨message, hwraps, hmem⟩ := hR.called src address m hm
      have hsendable := hstrings.flight _ hmem
      rw [hwraps.received hsendable.no_nul] at hproceed
      refine hR'.react hK hg hh hlocals (fun _ hcue => by cases hcue) (fun buf src' hevent => ?_)
        hproceed
      obtain ⟨rfl, rfl⟩ := Event.receive.inj hevent
      exact hmem
    · obtain rfl := Option.some.inj hproceed
      exact hR'.gone hK hg address

/-- **A step of a deployment** is a run of the session. -/
theorem step {d' : Deployment} {action : Happening} (hfounder : 0 ∉ founder.nickname) (hK : Ambient K)
    (hg : Lived resolve K founder g) (hR : d.Refines g) (hok : Spelled action ∧ Attributed d action)
    (hmeets : Meets K action) (hs : deploymentStep resolve d action = some d') :
    ∃ g', Lived resolve K founder g' ∧ d'.Refines g' := by
  cases action with
  | join address nickname addrPort sendTo =>
    rw [deploymentStep] at hs
    split at hs
    · cases hs
    next hnew =>
    obtain ⟨j, hj, hs⟩ := Option.bind_eq_some_iff.1 hs
    obtain rfl := Option.some.inj hs
    exact hR.join hg hok.1 hmeets hnew (Fault.toOption_eq_some.1 hj)
  | react address event o =>
    obtain ⟨h, hh, hs⟩ := Option.bind_eq_some_iff.1 hs
    split at hs
    · next hcond =>
      obtain ⟨h', hreact, rfl⟩ := Option.map_eq_some_iff.1 hs
      refine hR.react hK hg hh hok.1 hmeets ?_ hreact
      rintro buf src rfl
      cases hcond.2.2
    · cases hs
  | library address i o =>
    obtain ⟨h, r, network, h', hh, hpermits, hr, hstep, hproceed, rfl⟩ := of_library hs
    have hstrings := strings_of_reach hfounder (hg.mono fun _ _ _ hok hs => ⟨hok.1, hs⟩)
    obtain ⟨r', -, hr', -, -, hhist, -⟩ := result_of_udpStep hstep
    obtain rfl := Option.some.inj (hr'.symm.trans hr)
    exact hR.library hK hg hstrings hh hpermits hok.1 (hok.2 _ hr) hhist hproceed
  | crash address =>
    obtain rfl := Option.some.inj hs
    exact hR.gone hK hg address
  | lose k =>
    obtain rfl := Option.some.inj hs
    exact ⟨g, hg, hR.network hR.called⟩
  | copy k =>
    obtain rfl := Option.some.inj hs
    exact ⟨g, hg, hR.network hR.called⟩

end Deployment.Refines

/-- The founder alone. -/
theorem Deployment.Founded.refines (h : Deployment.Founded founder d) :
    ∃ g, Dchat.Chat.Founded founder g ∧ d.Refines g := by
  obtain ⟨s, hs, hinit, hhosts, hroll⟩ := h
  refine ⟨_, ⟨s, hs, rfl⟩, ⟨hroll.symm, fun a => ?_, fun S R m hm => ?_, fun a h hh e he => ?_⟩⟩
  · rw [hhosts]
    dsimp only
    split <;> rfl
  · rw [hinit.2.2] at hm
    cases hm
  · rw [hhosts] at hh
    dsimp only at hh
    split at hh
    · obtain rfl := Option.some.inj hh
      cases he
    · cases hh

/-- **A deployment as a session** that meets the same condition. -/
theorem exists_session (hfounder : 0 ∉ founder.nickname) (hK : Ambient K)
    (h : Reach (deploymentStep resolve) (fun d action =>
        (Deployment.Spelled action ∧ Deployment.Attributed d action) ∧ Deployment.Meets K action)
      (Deployment.Founded founder) d) :
    ∃ g, Lived resolve K founder g ∧ d.Refines g := by
  refine h.refine (fun d hd => ?_) fun d g action d' hg hR hok hs =>
    hR.step hfounder hK hg hok.1 hok.2 hs
  obtain ⟨g, hg, hR⟩ := hd.refines
  exact ⟨g, hg, hR⟩

/-- A condition that says nothing. -/
theorem ambient_true : Ambient fun _ => True :=
  ⟨fun _ => trivial, fun _ => trivial, fun _ _ _ _ => trivial⟩

theorem Deployment.meets_true (action : Happening) : Deployment.Meets (fun _ => True) action := by
  cases action with
  | react => exact fun _ _ => trivial
  | join | library | crash | lose | copy => trivial

end Sessions

/-! ## Hosts with distinct IP addresses -/

section Regular

variable {resolve : Bytes → Bytes → Option RmpAddress} {founder : Member} {d d' : Deployment}
  {nodes : Finset RmpAddress} {C : Deployment → Happening → Prop}

theorem Deployment.Regular.spelled {action : Happening} (h : Deployment.Regular nodes d action) :
    Deployment.Spelled action := by
  cases action with
  | join | react => exact h
  | library => exact h.2
  | crash | lose | copy => trivial

/-- The runs of the network in which the ids are distinct and nothing is cut off. -/
abbrev Spacious (nodes : Finset RmpAddress) (network : Network) : Prop :=
  Reach udpStep (fun s a => Distinct nodes s a ∧ Roomy maxBufferLen a) Initial network

/-- `RMP_sendTo` does not return from `RMP_listen`. -/
theorem ret_rmpSendTo {st : RmpState} {destination : RmpAddress} {buffer : Bytes} {newId : MessageId}
    {o : SendInput} {result : ℤ} {src : RmpAddress} {id : MessageId} {bytes : Bytes}
    {delivered : Bool} :
    (rmpSendTo st destination buffer newId o).ret ≠ some (.listen result src id bytes delivered) := by
  unfold rmpSendTo attemptSend
  dsimp only
  split
  · simp [sendReturn]
  split
  · simp [sendReturn]
  · simp

/-- A step in the library, with the messages whole: what `RMP_listen` returns was sent by the
process at the address that it reports. -/
theorem sourced_of_whole {address : RmpAddress} {i : Input} {r : StepResult} {network : Network}
    (hwhole : Whole nodes maxBufferLen network) (hr : rmpStep (d.network.proc address) i = some r)
    (hstep : udpStep d.network (.step address i) = some network) :
    Deployment.Sourced d.network.history address r.ret := by
  obtain ⟨r', -, hr', -, -, hhist, -⟩ := result_of_udpStep hstep
  obtain rfl := Option.some.inj (hr'.symm.trans hr)
  unfold Deployment.Sourced
  split
  · next result src id bytes delivered hret =>
    intro hpos
    have hlistened : (address, .listened result src id bytes delivered) ∈ network.history := by
      rw [hhist]
      refine List.mem_append_right _ (List.mem_map.2 ⟨_, ?_, rfl⟩)
      simp [localEvents, hret]
    obtain ⟨⟨m, hm, -, rfl⟩, -⟩ := hwhole.listened address result src id bytes delivered hlistened hpos
    refine List.mem_map_of_mem ?_
    rw [hhist, called_append] at hm
    refine (List.mem_append.1 hm).resolve_right fun hnew => ?_
    -- a step that returns from `RMP_listen` is no call of `RMP_sendTo`
    obtain ⟨e, he, heq⟩ := List.mem_map.1 (mem_called.1 hnew).1
    obtain ⟨-, rfl⟩ := Prod.mk.inj heq
    obtain ⟨o, rfl⟩ := input_of_call he
    rw [rmpStep] at hr
    split at hr
    · obtain rfl := Option.some.inj hr
      exact ret_rmpSendTo hret
    · cases hr
  · trivial

/-- What a regular step does on the network. -/
theorem Deployment.Refines.spacious {g : Session} {action : Happening}
    (hnodes : Set.InjOn RmpAddress.sinAddr nodes) (hR : d.Refines g)
    (hstrings : g.All (fun _ p => p.node.Strings) fun x => Sendable x.body)
    (hnet : Spacious nodes d.network) (hok : Deployment.Regular nodes d action)
    (hs : deploymentStep resolve d action = some d') :
    Spacious nodes d'.network ∧ Deployment.Attributed d action := by
  cases action with
  | join address nickname addrPort sendTo =>
    rw [deploymentStep] at hs
    split at hs
    · cases hs
    obtain ⟨j, -, hs⟩ := Option.bind_eq_some_iff.1 hs
    exact ⟨Option.some.inj hs ▸ hnet, trivial⟩
  | react address event o =>
    obtain ⟨h, -, hs⟩ := Option.bind_eq_some_iff.1 hs
    split at hs
    · obtain ⟨h', -, rfl⟩ := Option.map_eq_some_iff.1 hs
      exact ⟨hnet, trivial⟩
    · cases hs
  | library address i o =>
    obtain ⟨h, r, network, h', hh, hpermits, hr, hstep, -, rfl⟩ := of_library hs
    have hnet' := hnet.next ⟨hok.1, (hR.permitted hstrings hh hpermits).1⟩ hstep
    refine ⟨hnet', fun r' hr' => ?_⟩
    obtain rfl := Option.some.inj (hr.symm.trans hr')
    exact sourced_of_whole (whole_of_reach hnodes (by decide) hnet') hr hstep
  | crash address => exact ⟨Option.some.inj hs ▸ hnet, trivial⟩
  | lose k => exact ⟨Option.some.inj hs ▸ hnet.next (l := .lose k) ⟨trivial, trivial⟩ rfl, trivial⟩
  | copy k => exact ⟨Option.some.inj hs ▸ hnet.next (l := .copy k) ⟨trivial, trivial⟩ rfl, trivial⟩

/-- **Between hosts with distinct IP addresses that draw distinct message ids every message
is handed over under the address of its sender**, whatever the network does, and nothing of
it is cut off. -/
theorem attributed_of_regular (hnodes : Set.InjOn RmpAddress.sinAddr nodes)
    (hfounder : 0 ∉ founder.nickname)
    (h : Reach (deploymentStep resolve)
      (fun d action => Deployment.Regular nodes d action ∧ C d action) (Deployment.Founded founder) d) :
    Reach (deploymentStep resolve)
      (fun d action => (Deployment.Spelled action ∧ Deployment.Attributed d action) ∧ C d action)
      (Deployment.Founded founder) d ∧ Spacious nodes d.network := by
  induction h with
  | start h =>
    obtain ⟨s, -, hinit, -⟩ := id h
    exact ⟨.start h, .start hinit⟩
  | @next d d' action h hok hs ih =>
    obtain ⟨hreach, hnet⟩ := ih
    obtain ⟨g, hg, hR⟩ := exists_session hfounder ambient_true
      (hreach.mono fun _ action _ hok hs => ⟨⟨hok.1, Deployment.meets_true action⟩, hs⟩)
    have hstrings := strings_of_reach hfounder (hg.mono fun _ _ _ hok hs => ⟨hok.1, hs⟩)
    obtain ⟨hnet', hattributed⟩ := hR.spacious hnodes hstrings hnet hok.1 hs
    exact ⟨hreach.next ⟨⟨hok.1.spelled, hattributed⟩, hok.2⟩ hs, hnet'⟩

/-- **Whatever `RMP_listen` has returned is a message that its source has sent**: byte for byte
what the source passed to `RMP_sendTo`, with the number of the bytes for its result, and read
as the message. -/
def Deployment.Heard (d : Deployment) (g : Session) : Prop :=
  ∀ R result src id bytes delivered,
    (R, .listened result src id bytes delivered) ∈ d.network.history → 0 < result →
      result = bytes.length ∧ (∃ m ∈ called src R d.network.history, m.id = id ∧ m.message = bytes) ∧
      ∃ message, ⟨src, R, message⟩ ∈ g.flight ∧
        ∀ recvBuff (p : Process), p.received recvBuff bytes = message

/-- **A chat over RMP over UDP is a session**: between hosts with distinct IP addresses that draw
distinct message ids, over a network that loses, duplicates and reorders datagrams, the processes
are in states in which those of a session are, whatever is passed to `RMP_sendTo` is a message that
is under way in the session, and what `RMP_listen` has returned is one of these. -/
theorem session_of_deployment (hnodes : Set.InjOn RmpAddress.sinAddr nodes)
    (hfounder : 0 ∉ founder.nickname)
    (h : Reach (deploymentStep resolve) (Deployment.Regular nodes) (Deployment.Founded founder) d) :
    ∃ g, Reach (sessionStep resolve) (fun _ action => Tidy action) (Founded founder) g ∧
      d.Refines g ∧ d.Heard g := by
  obtain ⟨hreach, hnet⟩ := attributed_of_regular (C := fun _ _ => True) hnodes hfounder
    (h.mono fun _ _ _ hok hs => ⟨⟨hok, trivial⟩, hs⟩)
  obtain ⟨g, hg, hR⟩ := exists_session hfounder ambient_true
    (hreach.mono fun _ action _ hok hs => ⟨⟨hok.1, Deployment.meets_true action⟩, hs⟩)
  have htidy : Reach (sessionStep resolve) (fun _ action => Tidy action) (Founded founder) g :=
    hg.mono fun _ _ _ hok hs => ⟨hok.1, hs⟩
  refine ⟨g, htidy, hR, fun R result src id bytes delivered hmem hpos => ?_⟩
  obtain ⟨⟨m, hm, hid, rfl⟩, hlen⟩ :=
    (whole_of_reach hnodes (by decide) hnet).listened R result src id bytes delivered hmem hpos
  obtain ⟨message, hwraps, hflight⟩ := hR.called src R m hm
  have hsendable := (strings_of_reach hfounder htidy).flight _ hflight
  exact ⟨hlen, ⟨m, hm, hid, rfl⟩, message, hflight, hwraps.received hsendable.no_nul⟩

/-- **What a process believes of the others**, over RMP over UDP: the names on its list are
distinct, and they are counted; every entry is that of a process that was started, and is resolved
to its address; and what it has for its leader, to send to it, is a process in `L`. -/
theorem beliefs_of_deployment {L : Set RmpAddress} {address : RmpAddress}
    (hnodes : Set.InjOn RmpAddress.sinAddr nodes) (hfounder : founder.Listable resolve)
    (hL : founder.address ∈ L)
    (hd : Reach (deploymentStep resolve)
      (fun d action => Deployment.Regular nodes d action ∧ Deployment.Decent resolve L action)
      (Deployment.Founded founder) d) {s : Node}
    (hs : (d.hosts address).map Host.process = some (.chatting s)) :
    s.numParticipants = s.participants.length ∧
      (s.participants.map fun p => p.nickname).Nodup ∧
      (∀ p ∈ s.participants, ∃ m ∈ d.roll, p.fields = m.fields ∧
        resolve p.ipAddress p.portNum = some m.address) ∧
      (s.isLeader = true → address ∈ L) ∧
      ∃ m ∈ d.roll, m.address ∈ L ∧ ∀ env locals, env.getAddressFor = resolve →
        getLeaderAddr env locals s = .ok m.address := by
  have hmeets : ∀ action, Deployment.Decent resolve L action →
      Deployment.Meets (fun action => ∀ g, Admissible resolve g action ∧ ClaimedBy L action) action := by
    intro action hdecent
    cases action with
    | join => exact fun _ => ⟨hdecent, trivial⟩
    | react address event o =>
      intro cue hcue g
      refine ⟨trivial, ?_⟩
      cases event with
      | receive => cases hcue
      | victory =>
        obtain rfl := Option.some.inj hcue
        exact hdecent
      | stdin | heartbeat | restart =>
        obtain rfl := Option.some.inj hcue
        trivial
    | library | crash | lose | copy => trivial
  obtain ⟨hreach, -⟩ := attributed_of_regular hnodes hfounder.admitted.no_nul hd
  obtain ⟨g, hg, hR⟩ := exists_session hfounder.admitted.no_nul
    ⟨fun _ _ => ⟨trivial, trivial⟩, fun _ _ => ⟨trivial, trivial⟩,
      fun _ _ _ _ _ => ⟨trivial, trivial⟩⟩
    (hreach.mono fun _ action _ hok hs => ⟨⟨hok.1, hmeets action hok.2⟩, hs⟩)
  have hclaimed : Reach (sessionStep resolve)
      (fun g action => Admissible resolve g action ∧ ClaimedBy L action) (Founded founder) g :=
    hg.mono fun g _ _ hok hs => ⟨hok.2 g, hs⟩
  have hadmissible : Reach (sessionStep resolve) (Admissible resolve) (Founded founder) g :=
    hclaimed.mono fun _ _ _ hok hs => ⟨hok.1, hs⟩
  have hroll := enrolled_of_reach hfounder hadmissible
  have hlive : g.procs address = some (.chatting s) := (hR.procs address).trans hs
  have hnode : Consistent g.roll address s :=
    (consistent_of_reach hfounder hadmissible).procs address _ hlive
  have hpointing : Pointing L g.roll address s :=
    (directed_of_reach hfounder hL hclaimed).procs address _ hlive
  rw [hR.roll] at hroll hnode hpointing
  refine ⟨hnode.counted, hnode.distinct, fun p hp => ?_, hpointing.leads, ?_⟩
  · obtain ⟨m, hm, hfields⟩ := hnode.enrolled p hp
    exact ⟨m, hm, hfields, (hroll.listable m hm).getAddressFor hfields⟩
  · obtain ⟨q, hq, m, hm, hmL, hfields⟩ := hpointing.pointer
    refine ⟨m, hm, hmL, fun env locals henv => ?_⟩
    rw [getLeaderAddr, hq]
    simp only [henv, (hroll.listable m hm).getAddressFor hfields, Option.getD_some]

end Regular

/-! ## A run -/

/-- Two hosts of the loopback network. -/
def twoLoopback : Finset RmpAddress := {localHost 80, ⟨0x0200007F#32, 80#16⟩}

theorem twoLoopback_injOn : Set.InjOn RmpAddress.sinAddr twoLoopback := by
  intro a ha b hb h
  simp only [twoLoopback, Finset.coe_insert, Finset.coe_singleton, Set.mem_insert_iff,
    Set.mem_singleton_iff] at ha hb
  rcases ha with rfl | rfl <;> rcases hb with rfl | rfl <;> simp_all [localHost]

/-- `RMP_getAddressFor` on these two and a third one. -/
def loopbackNetwork (ip port : Bytes) : Option RmpAddress :=
  if ip = str "127.0.0.1" then some ⟨0x0100007F#32, BitVec.ofNat 16 (digitsValue port)⟩
  else if ip = str "127.0.0.2" then some ⟨0x0200007F#32, BitVec.ofNat 16 (digitsValue port)⟩
  else if ip = str "127.0.0.3" then some ⟨0x0300007F#32, BitVec.ofNat 16 (digitsValue port)⟩
  else none

/-- Every call returns the number of its bytes. -/
def Surroundings.fair : Surroundings := ⟨fun _ _ message => message.length + 1, .blank, []⟩

/-- A message with an id goes from one host to another, which holds and acknowledges it. -/
def deposited (src dst : RmpAddress) (id : MessageId) (message : Bytes) : List Happening :=
  [.library src (.sendTo dst (message ++ [0]) id) .fair, .library dst (.listen maxBufferLen) .fair,
    .library dst (.receive src .data id (message ++ [0])) .fair, .library src .wait .fair,
    .library src (.receive dst .ack id []) .fair]

/-- `RMP_listen` reads the SYN_ACK of a message. -/
def collected (src dst : RmpAddress) (id : MessageId) : List Happening :=
  [.library dst (.listen maxBufferLen) .fair, .library dst (.receive src .synAck id []) .fair]

/-- A message goes from one host to another, all the way through. -/
def carried (src dst : RmpAddress) (id : MessageId) (message : Bytes) : List Happening :=
  deposited src dst id message ++ collected src dst id

/-- `RMP_sendTo` gives up: nothing comes back. -/
def givenUp (src dst : RmpAddress) (id : MessageId) (message : Bytes) : List Happening :=
  .library src (.sendTo dst (message ++ [0]) id) .fair :: [1, 2, 3].map fun now =>
    .library src (.loop (some ⟨now, 0⟩) .still { SendInput.still with timestamp := some ⟨now, 0⟩ }) .fair

/-- The calls for an address time out. -/
def Surroundings.deafTo (a : RmpAddress) : Surroundings :=
  ⟨fun _ dst message => if dst = a then rmpETimeout else message.length + 1, .blank, []⟩

/-- The second host, and a third one. -/
def secondHost (port : BitVec 16) : RmpAddress := ⟨0x0200007F#32, port⟩

def thirdHost : RmpAddress := ⟨0x0300007F#32, 80#16⟩

/-- A process is started and asks `a` to be let in. -/
def Happening.asks (address : RmpAddress) (nickname : String) : Happening :=
  .join address (str nickname) (str "127.0.0.1:80") Surroundings.fair.sendTo

/-- `b` at the second host is let in by `a`. A second copy of the DATA of its ADD_ME
stays under way. -/
def entrance : List Happening :=
  .join ⟨0x0200007F#32, 80#16⟩ (str "b") (str "127.0.0.1:80") Surroundings.fair.sendTo ::
    (carried ⟨0x0200007F#32, 80#16⟩ (localHost 80) 1 (str "ADD_ME b")).insertIdx 1 (.copy 0) ++
    carried (localHost 80) ⟨0x0200007F#32, 80#16⟩ 2
      (str "PARTICIPANT_UPDATE @a:127.0.0.1:80 b:127.0.0.2:80 = NOTICE b joined on 127.0.0.2:80")

/-- The deployment of `a` alone. -/
def launch : Option Deployment :=
  (startChat host.nickname (inetNtoa host.address) (portText host.address)).toOption.map fun s =>
    ⟨.start, fun a => if a = host.address then some ⟨.chatting s, []⟩ else none, [host]⟩

/-- What a deployment looks like after a list of actions from its foundation. -/
theorem exists_deployment_of_exec {ok : Deployment → Happening → Prop} [∀ d l, Decidable (ok d l)]
    {actions : List Happening} {β : Type} {f : Deployment → β} {b : β}
    (h : (launch.bind fun d => exec (deploymentStep loopbackNetwork) ok d actions).map f = some b) :
    ∃ d, Reach (deploymentStep loopbackNetwork) ok (Deployment.Founded host) d ∧ f d = b := by
  obtain ⟨d, hd, hb⟩ := Option.map_eq_some_iff.1 h
  obtain ⟨d₀, hd₀, hrun⟩ := Option.bind_eq_some_iff.1 hd
  obtain ⟨s, hs, rfl⟩ := Option.map_eq_some_iff.1 hd₀
  exact ⟨d, reach_exec actions (.start ⟨s, Fault.toOption_eq_some.1 hs, initial_start, rfl, rfl⟩) hrun,
    hb⟩

/-- `b` has come to `chat` with both names on its list. -/
theorem session_of_deployment_entrance : ∃ (d : Deployment) (g : Session),
    ((d.hosts ⟨0x0200007F#32, 80#16⟩).bind fun h => h.process.node?).map
      (fun s => s.participants.map fun p => p.nickname) = some [str "a", str "b"] ∧
    Reach (sessionStep loopbackNetwork) (fun _ action => Tidy action) (Founded host) g ∧
    d.Refines g ∧ d.Heard g := by
  have hrun : (launch.bind fun d => exec (deploymentStep loopbackNetwork)
      (Deployment.Regular twoLoopback) d entrance).map (fun d =>
        ((d.hosts ⟨0x0200007F#32, 80#16⟩).bind fun h => h.process.node?).map
          fun s => s.participants.map fun p => p.nickname) = some (some [str "a", str "b"]) := by
    decide
  obtain ⟨d, hd, hlist⟩ := exists_deployment_of_exec hrun
  obtain ⟨g, hg, hR⟩ := session_of_deployment twoLoopback_injOn (by decide) hd
  exact ⟨d, g, hlist, hg, hR⟩

/-- `b` believes in `a`, and would send its heartbeats to it. -/
theorem beliefs_of_deployment_entrance : ∃ (d : Deployment) (s : Node),
    (s.participants.map fun p => p.nickname) = [str "a", str "b"] ∧
    (d.hosts ⟨0x0200007F#32, 80#16⟩).map Host.process = some (.chatting s) ∧
    s.numParticipants = s.participants.length ∧
    (s.participants.map fun p => p.nickname).Nodup ∧
    (∀ p ∈ s.participants, ∃ m ∈ d.roll, p.fields = m.fields ∧
      loopbackNetwork p.ipAddress p.portNum = some m.address) ∧
    (s.isLeader = true → ⟨0x0200007F#32, 80#16⟩ ∈ {a : RmpAddress | a ∈ [localHost 80]}) ∧
    ∃ m ∈ d.roll, m.address ∈ {a : RmpAddress | a ∈ [localHost 80]} ∧
      ∀ env locals, env.getAddressFor = loopbackNetwork → getLeaderAddr env locals s = .ok m.address := by
  let _ : DecidablePred (· ∈ {a : RmpAddress | a ∈ [localHost 80]}) :=
    fun a => inferInstanceAs (Decidable (a ∈ [localHost 80]))
  have hrun : (launch.bind fun d => exec (deploymentStep loopbackNetwork)
      (fun d action => Deployment.Regular twoLoopback d action ∧
        Deployment.Decent loopbackNetwork {a : RmpAddress | a ∈ [localHost 80]} action) d entrance).map
      (fun d => ((d.hosts ⟨0x0200007F#32, 80#16⟩).bind fun h => h.process.node?).map
          fun s => s.participants.map fun p => p.nickname) = some (some [str "a", str "b"]) := by
    decide
  obtain ⟨d, hd, hlist⟩ := exists_deployment_of_exec hrun
  obtain ⟨s, hs, hlist⟩ := Option.map_eq_some_iff.1 hlist
  obtain ⟨h, hh, hnode⟩ := Option.bind_eq_some_iff.1 hs
  have hprocess : (d.hosts ⟨0x0200007F#32, 80#16⟩).map Host.process = some (.chatting s) := by
    rw [hh, Option.map_some, Process.eq_chatting hnode]
  have hfounder : host.Listable loopbackNetwork :=
    ⟨⟨by decide, by decide, by decide⟩, by decide, by decide, by decide⟩
  exact ⟨d, s, hlist, hprocess, beliefs_of_deployment twoLoopback_injOn hfounder
    (List.mem_cons_self ..) hd hprocess⟩

end Dchat.Chat
