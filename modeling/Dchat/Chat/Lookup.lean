import Dchat.Chat.Bookkeeping
import Dchat.Chat.Cascade
import Dchat.Chat.Deployment

/-!
# Who receives a START_ELECTION

A node sends START_ELECTION to its own list, and the receiver looks for the sender in its list, by
the address that `RMP_listen` reports. The lists of two nodes need not name each other: a leader
that cannot reach a participant takes it out and announces the shorter list, and the participant
does not hear of it. The search then leaves a null pointer, which `respond_to_leader_election`
reports and compares all the same; a process that is still in `join_chat` exits.

* `handled_of_deployment`: nothing of this happens between hosts with distinct IP addresses that
  draw distinct message ids, when each election is started before nodes that name the one that
  starts it, and no node loses the sender of a START_ELECTION that is under way to it (`Careful`).
* `not_handled_of_deployment`: a participant that was taken out starts an election.

`Coming` is where a START_ELECTION is on its way: the call of its sender has not returned, its
DATA is under way, or its receiver holds it. It gets there by a call and moves on from one place
to the next (`Coming.of_network`), so that `Safe`, that its receiver names its sender, is kept as
long as the lists are.
-/

namespace Dchat.Chat

open CString Stdio RMP RMP.Network Links Runs

/-- The process is in `chat` and has an entry that leads to `a`. -/
def Process.lists (resolve : Bytes → Bytes → Option RmpAddress) (a : RmpAddress) : Process → Bool
  | .joining _ => false
  | .chatting s => s.participants.any fun p => resolve p.ipAddress p.portNum = some a

/-- The list in a PARTICIPANT_UPDATE has an entry that leads to `a`. -/
def Names (resolve : Bytes → Bytes → Option RmpAddress) (a : RmpAddress) (command : Bytes) : Prop :=
  ∀ s s' joining, processParticipantUpdate s command joining = .ok s' →
    (Process.chatting s').lists resolve a = true

namespace Deployment

/-- The process at an address. -/
def process (d : Deployment) (a : RmpAddress) : Option Process := (d.hosts a).map Host.process

/-- **A START_ELECTION of `S` is under way to `R`**: a call of `RMP_sendTo` has not returned, its
DATA is under way, or it is held for the IP address of `S`. -/
inductive Coming (d : Deployment) (S R : RmpAddress) : Prop
  | called {h : Host} {e : Sent} (hh : d.hosts S = some h) (he : e ∈ h.calls) (hdst : e.dst = R)
    (hmessage : e.message = messageStartElection)
  | data {p : Flight} (hp : p ∈ d.network.inFlight) (hsrc : p.src = S) (hdst : p.dst = R)
    (htype : p.body.type = .data) (hbody : p.body.payload = messageStartElection ++ [0])
  | held {id : MessageId}
    (hslot : (d.network.view R).slot (rmpAddressHash S) = some (id, messageStartElection ++ [0]))

/-- The text that `RMP_listen` returns in a step of the process at an address, and the address
that it reports. -/
def returned (d : Deployment) (address : RmpAddress) (i : Input) (recvBuff : Bytes) :
    Option (Bytes × RmpAddress) := do
  let h ← d.hosts address
  if h.Permits i ∧ (udpStep d.network (.step address i)).isSome then
    let r ← rmpStep (d.network.proc address) i
    match r.ret with
    | some (.listen result src _ bytes _) =>
      if 0 < result then some (h.process.received recvBuff bytes, src) else none
    | _ => none
  else none

/-- Whatever message is returned next, if it is a START_ELECTION its sender is found. -/
structure Handled (resolve : Bytes → Bytes → Option RmpAddress) (d : Deployment) : Prop where
  chatting : ∀ address s i buf src, d.process address = some (.chatting s) →
    ∀ o : Surroundings, d.returned address i o.recvBuff = some (buf, src) →
    ∀ rest, Reads o.locals buf messageStartElection rest →
      ∃ nickname, findSender ⟨resolve, o.sendTo⟩ src o.locals.address s.participants = some nickname
  joining : ∀ address j i recvBuff buf src, d.process address = some (.joining j) →
    d.returned address i recvBuff = some (buf, src) → ¬ JoinReads buf messageStartElection

/-- A reaction of the node at `a` in which no START_ELECTION goes astray. -/
structure Considerate (resolve : Bytes → Bytes → Option RmpAddress) (nodes : Finset RmpAddress)
    (d : Deployment) (a : RmpAddress) (o : Surroundings) (s : Node) (event : Event) : Prop where
  /-- A node starts an election when every live process on its list is in `chat` and lists it. -/
  named : Starts ⟨resolve, o.sendTo⟩ o.locals s event → ∀ q ∈ s.participants,
    strcmp s.thisNickname q.nickname ≠ 0 → ∀ b, resolve q.ipAddress q.portNum = some b →
      ∀ p, d.process b = some p → p.lists resolve a = true
  /-- A list that is taken over names the callers. -/
  remembered : ∀ buf src rest, event = .receive buf src → s.isLeader = false →
    Reads o.locals buf messageParticipantUpdate rest → ∀ b ∈ nodes, d.Coming b a → Names resolve b buf
  /-- A leader reaches the callers. -/
  reached : s.isLeader = true ∨ event = .victory → ∀ b ∈ nodes, d.Coming b a → ∀ k message,
    0 ≤ o.sendTo k b message

/-- A step in which no START_ELECTION goes astray. -/
def Careful (resolve : Bytes → Bytes → Option RmpAddress) (nodes : Finset RmpAddress)
    (d : Deployment) : Happening → Prop
  | .join address _ _ _ => ∀ b ∈ nodes, ¬ d.Coming b address
  | .react address event o => ∀ s, d.process address = some (.chatting s) →
      Considerate resolve nodes d address o { s with sent := [] } event
  | .library address i o => ∀ s buf src, d.process address = some (.chatting s) →
      d.returned address i o.recvBuff = some (buf, src) →
      Considerate resolve nodes d address o { s with sent := [] } (.receive buf src)
  | _ => True

/-- The sender of every START_ELECTION under way is named by its receiver. -/
def Safe (resolve : Bytes → Bytes → Option RmpAddress) (nodes : Finset RmpAddress) (d : Deployment) :
    Prop :=
  ∀ S ∈ nodes, ∀ R p, d.Coming S R → d.process R = some p → p.lists resolve S = true

end Deployment

/-! ## Entries that stay -/

section Entries

variable {resolve : Bytes → Bytes → Option RmpAddress} {a b : RmpAddress} {s s' : Node}

theorem lists_chatting : (Process.chatting s).lists resolve a = true ↔
    ∃ p ∈ s.participants, resolve p.ipAddress p.portNum = some a := by
  rw [Process.lists, List.any_eq_true]
  simp only [decide_eq_true_eq]

theorem lists_congr (hps : s'.participants = s.participants) :
    (Process.chatting s').lists resolve a = (Process.chatting s).lists resolve a := by
  rw [Process.lists, Process.lists, hps]

theorem lists_setLeaderBy (s : Node) (test : Participant → Bool) :
    (Process.chatting (s.setLeaderBy test)).lists resolve a = (Process.chatting s).lists resolve a := by
  rw [Process.lists, Process.lists, Node.setLeaderBy, List.any_map]
  rfl

/-- **A broadcast keeps the entries** of those it reaches. -/
theorem lists_broadcast {sendTo : ℕ → RmpAddress → Bytes → ℤ} {message : Bytes} (hlinked : Linked s)
    (hreached : ∀ k message, 0 ≤ sendTo k a message)
    (hs : leaderBroadcastMessage ⟨resolve, sendTo⟩ s message = .ok s')
    (h : (Process.chatting s).lists resolve a = true) :
    (Process.chatting s').lists resolve a = true := by
  obtain ⟨t, ht⟩ := broadcast_of_ok hs
  obtain ⟨p, hp, haddr⟩ := lists_chatting.1 h
  refine lists_chatting.2 ⟨p, ?_, haddr⟩
  rw [ht.participants]
  refine List.mem_filter.2 ⟨hp, decide_eq_true fun hlost => ?_⟩
  obtain ⟨q, hq, hptr⟩ := List.mem_map.1 hlost
  obtain ⟨attempt, hattempt, rfl⟩ := List.mem_map.1 hq
  obtain ⟨hmem, hneg⟩ := List.mem_filter.1 hattempt
  obtain ⟨hrec, hdst⟩ := ht.addressed attempt hmem
  obtain ⟨k, hresult⟩ := ht.results attempt hmem
  have hsame : attempt.recipient = p :=
    List.inj_on_of_nodup_map hlinked ((others_sublist _).subset hrec) hp hptr
  have hdst : attempt.sent.dst = a := by
    rw [hsame] at hdst
    exact Option.some.inj (hdst.symm.trans haddr)
  have hneg : attempt.sent.result < 0 := of_decide_eq_true hneg
  rw [hresult, hdst] at hneg
  exact absurd (hreached k attempt.sent.message) (Int.not_le.2 hneg)

/-- **A considerate reaction keeps the entries** of the callers. -/
theorem Deployment.Considerate.lists {nodes : Finset RmpAddress} {d : Deployment} {o : Surroundings}
    {event : Event} (h : Considerate resolve nodes d a o s event) (hsound : Sound s) (hnode : b ∈ nodes)
    (hb : d.Coming b a) (hr : Reaction ⟨resolve, o.sendTo⟩ o.locals s event s')
    (hs : (Process.chatting s).lists resolve b = true) :
    (Process.chatting s').lists resolve b = true := by
  cases hr with
  | silent lines => exact hs
  | numbered hl _ _ hbroadcast =>
    have hclock : Sound { s with clockNum := s.clockNum + 1 } := hsound.congr rfl rfl
    have hkept := lists_broadcast hclock.linked (h.reached (.inl hl) b hnode hb) hbroadcast hs
    exact hkept
  | refused _ _ _ => exact hs
  | @admitted _ _ _ _ s₁ s₂ hl _ _ hinsert _ hbroadcast =>
    have hinserted : (Process.chatting s₁).lists resolve b = true := by
      obtain ⟨q, hq, -⟩ := inserted_of_insertParticipant hinsert none
      have hps : s₁.participants = s.participants ++ [q] := hq.participants
      obtain ⟨p, hp, haddr⟩ := lists_chatting.1 hs
      exact lists_chatting.2 ⟨p, hps ▸ List.mem_append_left _ hp, haddr⟩
    have hkept := lists_broadcast (hsound.insertParticipant hinsert).linked
      (h.reached (.inl hl) b hnode hb) hbroadcast hinserted
    exact hkept
  | responded _ hrespond =>
    obtain ⟨log, started, rfl⟩ := respondToLeaderElection_frame hrespond
    exact hs
  | heard _ _ _ => exact hs
  | updated hl hreads hu => exact h.remembered _ _ _ rfl hl hreads b hnode hb s s' false hu
  | referred _ _ _ => exact hs
  | stopped _ _ => exact hs
  | followed _ _ => exact (lists_setLeaderBy s _).trans hs
  | asked _ _ => exact hs
  | suspected _ _ _ _ _ he =>
    obtain ⟨log, rfl, -⟩ := startElection_ok he
    exact hs
  | beaten hl _ hbroadcast =>
    exact lists_broadcast hsound.linked (h.reached (.inl hl) b hnode hb) hbroadcast hs
  | declared _ _ _ hd =>
    obtain ⟨s₁, s₂, notice, update, lines, hvictory, -, hupdate, rfl⟩ := declareVictory_broadcasts hd
    have hreached := h.reached (.inr rfl) b hnode hb
    have hvictorious : Sound s.victorious := (hsound.setLeaderBy _).congr rfl rfl
    have hlists := lists_broadcast hvictorious.linked hreached hvictory
      ((lists_setLeaderBy s _).trans hs)
    have hkept := lists_broadcast (hvictorious.broadcast hvictory).linked hreached hupdate hlists
    exact hkept
  | restarted _ _ he =>
    obtain ⟨log, rfl, -⟩ := startElection_ok he
    exact hs

end Entries

/-! ## What is known of a deployment -/

/-- A message carries a command, and a START_ELECTION is nothing but its command. -/
def Legible (message : Bytes) : Prop :=
  ∃ word ∈ commands, Carries message word ∧
    (word = messageStartElection → message = messageStartElection)

/-- The messages and the lists of a deployment: every message comes from a call, nothing of it is
cut off, and it is a string that carries a command; the structs of a list are different. -/
structure Deployment.Grounded (nodes : Finset RmpAddress) (d : Deployment) : Prop where
  authentic : Network.Authentic nodes d.network
  bare : d.network.BareHeaders
  whole : Whole nodes maxBufferLen d.network
  sound : ∀ a s, d.process a = some (.chatting s) → Sound s
  called : ∀ S R, ∀ m ∈ called S R d.network.history,
    ∃ message, Wraps message m.message ∧ 0 ∉ message ∧ Legible message

/-- Every process was started, one that was not has never called the library, and what a process
sends in `attemptSend` is the message of its first call. -/
structure Deployment.Engaged (d : Deployment) : Prop where
  enrolled : ∀ a h, d.hosts a = some h → a ∈ d.roll.map Member.address
  idle : ∀ a, a ∉ d.roll.map Member.address → (d.network.view a).mode = .idle
  waiting : ∀ a h m, d.hosts a = some h → (d.network.view a).mode = .waiting m →
    ∃ e ∈ h.calls.head?, m.dest = e.dst ∧ Wraps e.message m.message

section Known

variable {resolve : Bytes → Bytes → Option RmpAddress} {ok : Session → Action → Prop}
  {founder : Member} {g : Session} {nodes : Finset RmpAddress} {d d' : Deployment}
  {C : Deployment → Happening → Prop}

/-- A message of a node carries a command, and a START_ELECTION is nothing but its command. -/
theorem legible_of_sent {env : Env} {locals : Locals} {p p' : Process} {event : Event} {e : Sent}
    (h : Round env locals p event p') (he : e ∈ p'.node.sent) :
    Legible e.message := by
  obtain ⟨j, -, hmessage⟩ | ⟨s, s', -, -, ⟨numbers, hnumbers, he⟩ | he⟩ := h.sent_cases he
  · exact ⟨messageAddMe, by decide, hmessage ▸ carries_addMeCmd _, fun h => absurd h (by decide)⟩
  · exact ⟨messageBroadcast, by decide, hnumbers.carries he, fun h => absurd h (by decide)⟩
  · obtain ⟨word, hword, hcarries, -, -, hstart⟩ := he.carries
    exact ⟨word, hword, hcarries, hstart⟩

/-- The structs of a list are different, and a START_ELECTION is nothing but its command. -/
theorem legible_of_reach (h : Reach (sessionStep resolve) ok (Founded founder) g) :
    g.All (fun _ p => ∀ s, p = .chatting s → Sound s) fun x => Legible x.body := by
  refine Session.all_of_reach (J := fun _ => True) (P := fun _ _ p => ∀ s, p = .chatting s → Sound s)
    (Q := fun _ x => Legible x.body) (fun _ _ => trivial) ?_
    (fun _ _ => ⟨fun _ _ hp => hp, fun _ hx => hx⟩) ?_ ?_ h
  · intro g hg
    refine hg.all fun s hs s' hs' => ?_
    obtain rfl := Process.chatting.inj hs'
    exact (recorded_of_started (.founder hs)).1
  · intro g address nickname addrPort weather j _ _ hj
    refine ⟨fun s hs => (by cases hs), fun e he => ?_⟩
    rw [message_of_joinChat hj he]
    exact ⟨messageAddMe, by decide, carries_addMeCmd nickname, fun h => absurd h (by decide)⟩
  · intro g address cue weather locals p event p' _ _ hp _ hround
    refine ⟨fun s hs => ?_, fun e he => legible_of_sent hround he⟩
    cases hround with
    | asked _ _ => cases hs
    | entered _ _ _ hu => exact Process.chatting.inj hs ▸ Sound.processParticipantUpdate hu
    | reacted hr => exact Process.chatting.inj hs ▸ hr.sound ((hp _ rfl).congr rfl rfl)


theorem Deployment.Refines.process (hR : d.Refines g) (a : RmpAddress) : d.process a = g.procs a :=
  (hR.procs a).symm

theorem Deployment.grounded_of_reach (hnodes : Set.InjOn RmpAddress.sinAddr nodes)
    (hfounder : 0 ∉ founder.nickname)
    (h : Reach (deploymentStep resolve) (fun d action => Regular nodes d action ∧ C d action)
      (Deployment.Founded founder) d) : d.Grounded nodes := by
  obtain ⟨hreach, hnet⟩ := attributed_of_regular hnodes hfounder h
  obtain ⟨g, hg, hR⟩ := exists_session hfounder ambient_true
    (hreach.mono fun _ action _ hok hs => ⟨⟨hok.1, meets_true action⟩, hs⟩)
  have hlegible := legible_of_reach hg
  have hstrings := strings_of_reach hfounder (hg.mono fun _ _ _ hok hs => ⟨hok.1, hs⟩)
  refine ⟨?_, ?_, whole_of_reach hnodes (by decide) hnet, fun a s hs => ?_, fun S R m hm => ?_⟩
  · exact authentic_of_reach hnodes (hnet.mono fun _ _ _ hok hs => ⟨hok.1, hs⟩)
  · exact hnet.invariant (fun _ => bareHeaders_initial) fun _ _ _ hI _ => bareHeaders_step hI
  · exact hlegible.procs a _ ((hR.process a).symm.trans hs) s rfl
  · obtain ⟨message, hwraps, hmem⟩ := hR.called S R m hm
    exact ⟨message, hwraps, (hstrings.flight _ hmem).no_nul, hlegible.flight _ hmem⟩

/-- The process at another address is the same. -/
theorem Deployment.process_update {network : Network} {roll : List Member} {address a : RmpAddress}
    {h : Option Host} {p : Process}
    (hp : Deployment.process ⟨network, Function.update d.hosts address h, roll⟩ a = some p) :
    a = address ∧ h.map Host.process = some p ∨ a ≠ address ∧ d.process a = some p := by
  unfold process at hp
  dsimp only at hp
  rw [Function.update_apply] at hp
  split at hp
  · next ha => exact .inl ⟨ha, hp⟩
  · next ha => exact .inr ⟨ha, hp⟩

/-- A step of the library in a deployment, seen from the network. -/
theorem Deployment.view_of_library {network : Network} {address : RmpAddress} {i : Input}
    {r : StepResult} (hr : rmpStep (d.network.proc address) i = some r)
    (hstep : udpStep d.network (.step address i) = some network) (a : RmpAddress) :
    network.view a = if a = address then r.state.view else d.network.view a := by
  obtain ⟨r', -, hr', hproc, -⟩ := result_of_udpStep hstep
  obtain rfl := Option.some.inj (hr'.symm.trans hr)
  rw [view, hproc, Function.update_apply]
  split <;> rfl

/-- **What waits is the first call.** -/
theorem Deployment.Engaged.library {network : Network} {address : RmpAddress} {i : Input}
    {o : Surroundings} {r : StepResult} {h : Host} {h' : Option Host} (hd : d.Engaged)
    (hvalid : d.network.Valid) (hh : d.hosts address = some h) (hpermits : h.Permits i)
    (hr : rmpStep (d.network.proc address) i = some r)
    (hstep : udpStep d.network (.step address i) = some network)
    (hproceed : h.proceed resolve o r.ret = some h') :
    Deployment.Engaged ⟨network, Function.update d.hosts address h', d.roll⟩ := by
  have hview := view_of_library hr hstep
  have hmem := hd.enrolled address h hh
  refine ⟨fun a h₁ hh₁ => ?_, fun a ha => ?_, fun a h₁ m hh₁ hmode => ?_⟩
  · dsimp only at hh₁
    rw [Function.update_apply] at hh₁
    split at hh₁
    · next ha => exact ha ▸ hmem
    · exact hd.enrolled a h₁ hh₁
  · dsimp only at ha ⊢
    rw [hview, if_neg (fun heq : a = address => ha (heq ▸ hmem))]
    exact hd.idle a ha
  · dsimp only at hh₁ hmode
    rw [hview] at hmode
    rw [Function.update_apply] at hh₁
    split at hmode
    · next ha =>
      rw [if_pos ha] at hh₁
      rw [ret_of_waiting (hvalid address) hr hmode, Host.proceed] at hproceed
      obtain rfl := Option.some.inj ((Option.some.inj hproceed).trans hh₁)
      obtain ⟨hmove, -⟩ := rmpStep_move (hvalid address) hr
      obtain ⟨-, -, hcall, -⟩ | ⟨hwaiting, -⟩ := hmove.waiting_cases hmode
      · obtain ⟨o', rfl⟩ := input_of_call (i := i) (r := r) (m := m) (by simp [hcall])
        exact hpermits
      · exact hd.waiting address h m hh hwaiting
    · next ha =>
      rw [if_neg ha] at hh₁
      exact hd.waiting a h₁ m hh₁ hmode

/-- The process at an address that is not in `attemptSend` is another one. -/
theorem Deployment.Engaged.update {address : RmpAddress} {h' : Option Host} {roll : List Member}
    (hd : d.Engaged) (hroll : d.roll ⊆ roll)
    (hnew : ∀ h ∈ h', address ∈ roll.map Member.address ∧ (d.network.view address).mode = .idle) :
    Deployment.Engaged ⟨d.network, Function.update d.hosts address h', roll⟩ := by
  have hgrow : ∀ a ∈ d.roll.map Member.address, a ∈ roll.map Member.address :=
    fun a ha => List.map_subset _ hroll ha
  refine ⟨fun a h hh => ?_, fun a ha => hd.idle a fun hmem => ha (hgrow a hmem),
    fun a h m hh hmode => ?_⟩
  · dsimp only at hh
    rw [Function.update_apply] at hh
    split at hh
    · next ha => exact ha ▸ (hnew h hh).1
    · exact hgrow a (hd.enrolled a h hh)
  · dsimp only at hh hmode
    rw [Function.update_apply] at hh
    split at hh
    · next ha =>
      rw [ha, (hnew h hh).2] at hmode
      cases hmode
    · exact hd.waiting a h m hh hmode

theorem Deployment.Engaged.step {action : Happening} (hd : d.Engaged) (hvalid : d.network.Valid)
    (hs : deploymentStep resolve d action = some d') : d'.Engaged := by
  cases action with
  | join address nickname addrPort sendTo =>
    rw [deploymentStep] at hs
    split at hs
    · cases hs
    next hnew =>
    obtain ⟨j, -, hs⟩ := Option.bind_eq_some_iff.1 hs
    obtain rfl := Option.some.inj hs
    exact hd.update (List.subset_append_left _ _) fun h _ => ⟨by simp, hd.idle address hnew⟩
  | react address event o =>
    obtain ⟨h, hh, hs⟩ := Option.bind_eq_some_iff.1 hs
    split at hs
    · next hcond =>
      obtain ⟨h', -, rfl⟩ := Option.map_eq_some_iff.1 hs
      refine hd.update (fun _ hm => hm) fun _ _ => ⟨hd.enrolled address h hh, ?_⟩
      show RmpState.mode _ = _
      rw [RmpState.mode, hcond.1]
    · cases hs
  | library address i o =>
    obtain ⟨h, r, network, h', hh, hpermits, hr, hstep, hproceed, rfl⟩ := of_library hs
    exact hd.library hvalid hh hpermits hr hstep hproceed
  | crash address =>
    obtain rfl := Option.some.inj hs
    exact hd.update (fun _ hm => hm) fun _ hh => by cases hh
  | lose k | copy k =>
    obtain rfl := Option.some.inj hs
    exact ⟨hd.enrolled, hd.idle, hd.waiting⟩

theorem Deployment.Founded.engaged (h : Deployment.Founded founder d) : d.Engaged := by
  obtain ⟨s, -, ⟨hproc, -, -⟩, hhosts, hroll⟩ := h
  have hidle : ∀ a, (d.network.view a).mode = .idle := by
    intro a
    obtain ⟨garbage, hgarbage⟩ := hproc a
    rw [view, hgarbage]
    rfl
  refine ⟨fun a h hh => ?_, fun a _ => hidle a, fun a h m _ hmode => ?_⟩
  · rw [hhosts] at hh
    dsimp only at hh
    split at hh
    · next ha => simp [hroll, ha]
    · cases hh
  · rw [hidle a] at hmode
    cases hmode

end Known

/-! ## A START_ELECTION on its way -/

section Calls

variable {resolve : Bytes → Bytes → Option RmpAddress} {founder : Member} {nodes : Finset RmpAddress}
  {d d' : Deployment} {network : Network} {address S R : RmpAddress} {i : Input} {r : StepResult}
  {h : Host} {h' : Option Host}

theorem Wraps.eq_startElection {message : Bytes} (h : Wraps message (messageStartElection ++ [0])) :
    message = messageStartElection := by
  obtain h | ⟨-, hlast⟩ := h
  · exact (List.append_cancel_right h).symm
  · have hlast : messageStartElection = message ++ [0] := by rw [← hlast, List.dropLast_concat]
    exact absurd (hlast ▸ List.mem_append_right _ (List.mem_singleton.2 rfl) : 0 ∈ messageStartElection)
      (by decide)

namespace Deployment

/-- Under way on a network on which less is under way and held, it was under way before. -/
theorem Coming.of_subset (h : Coming ⟨network, d.hosts, d.roll⟩ S R)
    (hflight : network.inFlight ⊆ d.network.inFlight) (hview : network.view = d.network.view) :
    d.Coming S R := by
  cases h with
  | called hh he hdst hmessage => exact .called hh he hdst hmessage
  | data hp hsrc hdst htype hbody => exact .data (hflight hp) hsrc hdst htype hbody
  | held hslot => exact .held (hview ▸ hslot)

/-- **A step in the library brings up no START_ELECTION**: the DATA that it sends is that of a call
that has not returned, and what it puts into a buffer was under way. -/
theorem Coming.of_network (h₁ : Coming ⟨network, d.hosts, d.roll⟩ S R) (hd : d.Grounded nodes)
    (hengaged : d.Engaged) (hnodes : Set.InjOn RmpAddress.sinAddr nodes) (hS : S ∈ nodes)
    (hh : d.hosts address = some h) (hpermits : h.Permits i)
    (hr : rmpStep (d.network.proc address) i = some r)
    (hstep : udpStep d.network (.step address i) = some network) : d.Coming S R := by
  obtain ⟨r', rest, hr', -, hflight, -, hrest, hread⟩ := result_of_udpStep hstep
  obtain rfl := Option.some.inj (hr'.symm.trans hr)
  obtain ⟨hmove, -⟩ := rmpStep_move (hd.authentic.valid address) hr
  have hview := view_of_library hr hstep
  cases h₁ with
  | called hh₁ he hdst hmessage => exact .called hh₁ he hdst hmessage
  | @data p hp hsrc hdst htype hbody =>
    dsimp only at hp
    rw [hflight] at hp
    obtain hp | hp := List.mem_append.1 hp
    · exact .data (hrest p hp) hsrc hdst htype hbody
    obtain ⟨q, hq, rfl⟩ := List.mem_map.1 hp
    obtain ⟨m, rfl, -, hm⟩ | ⟨k, id, bytes, -, hack⟩ | ⟨src, x, -, ⟨-, hack⟩ | ⟨-, hack⟩⟩ :=
      hmove.sends hq
    · -- the message of the call that the process is in
      have hfirst : ∃ e ∈ h.calls.head?, m.dest = e.dst ∧ Wraps e.message m.message := by
        obtain ⟨-, hcall⟩ | hwaiting := hm
        · obtain ⟨o, rfl⟩ := input_of_call hcall
          exact hpermits
        · exact hengaged.waiting address h m hh hwaiting
      obtain ⟨e, he, hdest, hwraps⟩ := hfirst
      have hbody : m.message = messageStartElection ++ [0] := hbody
      rw [hbody] at hwraps
      exact .called (hsrc ▸ hh) (List.mem_of_mem_head? he) (hdest.symm.trans hdst)
        hwraps.eq_startElection
    · simp [hack] at htype
    · simp [hack] at htype
    · simp [hack] at htype
  | @held id hslot =>
    dsimp only at hslot
    rw [hview] at hslot
    split at hslot
    · next hR =>
      obtain ⟨src, x, hx, htype, hupdate⟩ | ⟨-, hkept⟩ := hmove.slot_cases
      · rw [hupdate, Function.update_apply] at hslot
        split at hslot
        · next hkey =>
          have hmem := hread _ _ hx
          obtain rfl : S = src :=
            hnodes hS (hd.authentic.src _ hmem) (rmpAddressHash_inj.1 hkey)
          obtain ⟨m, hm, hbody⟩ := hd.authentic.data _ hmem htype
          have hbody : x = m.datagram := hbody
          have hfits := (hd.whole.called _ _ m hm).trans (hd.whole.capacity (by decide) hr hx)
          obtain ⟨-, hpayload⟩ := Prod.mk.inj (Option.some.inj hslot)
          rw [hbody] at hpayload
          have hpayload : m.message = messageStartElection ++ [0] :=
            (List.take_of_length_le hfits).symm.trans hpayload
          exact .data hmem rfl hR.symm htype (by rw [hbody]; exact hpayload)
        · exact .held (hR ▸ hslot)
      · exact .held (hR ▸ hkept _ _ hslot)
    · exact .held hslot

/-- A START_ELECTION that is under way after the process at an address is another one was under way
before, or is a call of this process. -/
theorem Coming.of_update {roll : List Member}
    (h₁ : Coming ⟨d.network, Function.update d.hosts address h', roll⟩ S R) :
    d.Coming S R ∨
      S = address ∧ ∃ h ∈ h', ∃ e ∈ h.calls, e.dst = R ∧ e.message = messageStartElection := by
  cases h₁ with
  | @called host e hh he hdst hmessage =>
    dsimp only at hh
    rw [Function.update_apply] at hh
    split at hh
    · next hS => exact .inr ⟨hS, host, hh, e, he, hdst, hmessage⟩
    · exact .inl (.called hh he hdst hmessage)
  | data hp hsrc hdst htype hbody => exact .inl (.data hp hsrc hdst htype hbody)
  | held hslot => exact .inl (.held hslot)

theorem returned_eq_some {recvBuff buf : Bytes} {src : RmpAddress} :
    d.returned address i recvBuff = some (buf, src) ↔
      ∃ h r network result id bytes delivered, d.hosts address = some h ∧ h.Permits i ∧
        rmpStep (d.network.proc address) i = some r ∧
        udpStep d.network (.step address i) = some network ∧
        r.ret = some (.listen result src id bytes delivered) ∧ 0 < result ∧
        h.process.received recvBuff bytes = buf := by
  constructor
  · intro h
    obtain ⟨host, hhost, h⟩ := Option.bind_eq_some_iff.1 h
    split at h
    · next hcond =>
      obtain ⟨network, hstep⟩ := Option.isSome_iff_exists.1 hcond.2
      obtain ⟨r, hr, h⟩ := Option.bind_eq_some_iff.1 h
      split at h
      · next result src' id bytes delivered hret =>
        split at h
        · next hpos =>
          obtain ⟨rfl, rfl⟩ := Prod.mk.inj (Option.some.inj h)
          exact ⟨host, r, network, result, id, bytes, delivered, hhost, hcond.1, hr, hstep, hret,
            hpos, rfl⟩
        · cases h
      · cases h
    · cases h
  · rintro ⟨h, r, network, result, id, bytes, delivered, hh, hpermits, hr, hstep, hret, hpos, rfl⟩
    have hcond : h.Permits i ∧ (udpStep d.network (.step address i)).isSome :=
      ⟨hpermits, Option.isSome_iff_exists.2 ⟨network, hstep⟩⟩
    simp [returned, hh, hcond, hr, hret, hpos]

/-- **What `RMP_listen` returns was held**, and it is read as the message that its
source has sent. -/
theorem held_of_returned {recvBuff buf : Bytes} {src : RmpAddress}
    (h : d.returned address i recvBuff = some (buf, src)) (hd : d.Grounded nodes)
    (hnodes : Set.InjOn RmpAddress.sinAddr nodes) :
    src ∈ nodes ∧ Legible buf ∧ (buf = messageStartElection → d.Coming src address) := by
  obtain ⟨h, r, network, result, id, bytes, delivered, -, -, hr, hstep, hret, hpos, rfl⟩ :=
    returned_eq_some.1 h
  obtain ⟨r', -, hr', -, -, -, -, hread⟩ := result_of_udpStep hstep
  obtain rfl := Option.some.inj (hr.symm.trans hr')
  obtain ⟨hmove, -⟩ := rmpStep_move (hd.authentic.valid address) hr
  have hlistened : .listened result src id bytes delivered ∈ localEvents i r := by
    simp [localEvents, hret]
  obtain ⟨len, x, hmode, hx, htype, -, ⟨message, hslot, -, hbytes, -⟩ | ⟨-, hle, -⟩⟩ :=
    hmove.listened hlistened hpos
  · have hsrc := hd.authentic.src _ (hread _ _ hx)
    obtain ⟨S, hS, hhash, m, hm, -, rfl⟩ := hd.whole.slot address _ _ _ hslot
    obtain rfl : S = src := hnodes hS hsrc (rmpAddressHash_inj.1 hhash)
    have hfits := (hd.whole.called _ _ m hm).trans (hd.whole.room address len hmode)
    rw [List.take_of_length_le hfits] at hbytes
    obtain ⟨text, hwraps, hno, hlegible⟩ := hd.called S address m hm
    rw [hbytes, hwraps.received hno]
    refine ⟨hsrc, hlegible, ?_⟩
    rintro rfl
    obtain hwraps | ⟨hstop, -⟩ := hwraps
    · exact .held (hwraps ▸ hslot)
    · exact absurd hstop (by decide)
  · -- the SYN_ACK that was read is a bare header
    have hnil : x.payload = [] := hd.bare.payload _ (hread _ _ hx) (by simp [htype])
    simp only [hnil, List.take_nil, List.length_nil] at hle
    omega

/-! ## Runs -/

/-- A process that reacts is gone, or it takes a round. -/
theorem round_of_react {o : Surroundings} {event : Event} (hreact : h.react resolve o event = some h') :
    h' = none ∨ ∃ p, h' = some ⟨p, p.node.sent⟩ ∧
      Round ⟨resolve, o.sendTo⟩ o.locals h.process event p := by
  obtain ⟨result, hran, rfl⟩ := Option.map_eq_some_iff.1 hreact
  cases result with
  | error e => exact .inl rfl
  | ok p => exact .inr ⟨p, rfl, round_of_processStep hran⟩

theorem Considerate.of_network {o : Surroundings} {s : Node} {event : Event}
    (h : d.Considerate resolve nodes address o s event)
    (hcoming : ∀ S ∈ nodes, Coming ⟨network, d.hosts, d.roll⟩ S address → d.Coming S address) :
    Considerate resolve nodes ⟨network, d.hosts, d.roll⟩ address o s event :=
  ⟨h.named, fun buf src rest hevent hl hreads b hb hc =>
      h.remembered buf src rest hevent hl hreads b hb (hcoming b hb hc),
    fun hl b hb hc => h.reached hl b hb (hcoming b hb hc)⟩

/-- **A considerate reaction keeps the senders named.** -/
theorem Safe.react {o : Surroundings} {event : Event} (hsafe : d.Safe resolve nodes)
    (hh : d.hosts address = some h) (hsound : ∀ s, h.process = .chatting s → Sound s)
    (hok : ∀ s, h.process = .chatting s →
      d.Considerate resolve nodes address o { s with sent := [] } event)
    (hreact : h.react resolve o event = some h') :
    Safe resolve nodes ⟨d.network, Function.update d.hosts address h', d.roll⟩ := by
  have hprocess : d.process address = some h.process := by
    rw [process, hh]
    rfl
  intro S hS R p hcoming hp
  obtain rfl | ⟨p', rfl, hround⟩ := round_of_react hreact
  · obtain ⟨-, hnone⟩ | ⟨-, hold⟩ := process_update hp
    · cases hnone
    · obtain hcame | ⟨-, h₁, hh₁, -⟩ := hcoming.of_update
      · exact hsafe S hS R p hcame hold
      · cases hh₁
  obtain hcame | ⟨rfl, h₁, hh₁, e, he, hdst, hmessage⟩ := hcoming.of_update
  · obtain ⟨rfl, hself⟩ | ⟨-, hold⟩ := process_update hp
    · -- one more round of a process that was called
      obtain rfl := Option.some.inj hself
      have hlists := hsafe S hS R _ hcame hprocess
      cases hround' : h.process with
      | joining j =>
        rw [hround'] at hlists
        cases hlists
      | chatting s =>
        rw [hround'] at hround hlists
        cases hround with
        | reacted hr =>
          have hquiet : Sound { s with sent := [] } := (hsound s hround').congr rfl rfl
          exact (hok s hround').lists hquiet hS hcame hr hlists
    · exact hsafe S hS R p hcame hold
  · -- a call of this round
    obtain rfl := Option.some.inj hh₁
    have hother : ∀ word ∈ commands, Carries e.message word → word = messageStartElection := by
      intro word hword hcarries
      rw [hmessage] at hcarries
      exact hcarries.unique (carries_self _) hword (by decide)
    obtain ⟨j, -, hadd⟩ | ⟨s, s', hs, hs', ⟨numbers, hnumbers, he⟩ | he⟩ := hround.sent_cases he
    · exact absurd (hother messageAddMe (by decide) (hadd ▸ carries_addMeCmd _)) (by decide)
    · exact absurd (hother messageBroadcast (by decide) (hnumbers.carries he)) (by decide)
    cases he with
    | @start q hstarts hkept _ hq hne haddr =>
      rw [hdst] at haddr
      obtain ⟨hself, hp⟩ | ⟨-, hold⟩ := process_update hp
      · obtain rfl := Option.some.inj hp
        dsimp only
        rw [hs', lists_congr hkept]
        exact lists_chatting.2 ⟨q, hq, hself ▸ haddr⟩
      · exact (hok s hs).named hstarts q hq hne R haddr p hold
    | update _ hnotice _ =>
      obtain ⟨leader, ps, notice, -, hupdate, -⟩ := hnotice
      exact absurd (hother messageParticipantUpdate (by decide)
        (hupdate ▸ carries_updateText leader ps notice)) (by decide)
    | other hword hcarries hne => exact absurd (hother _ hword hcarries) hne.2.2.2

/-- A process that is gone, or makes fewer calls. -/
theorem Safe.update (hsafe : d.Safe resolve nodes)
    (hh' : ∀ h₁ ∈ h', ∃ h, d.hosts address = some h ∧ h₁.process = h.process ∧ h₁.calls ⊆ h.calls) :
    Safe resolve nodes ⟨d.network, Function.update d.hosts address h', d.roll⟩ := by
  intro S hS R p hcoming hp
  have hold : d.process R = some p := by
    obtain ⟨rfl, hself⟩ | ⟨-, hold⟩ := process_update hp
    · obtain ⟨h₁, hh₁, rfl⟩ := Option.map_eq_some_iff.1 hself
      obtain ⟨h, hh, hsame, -⟩ := hh' h₁ hh₁
      rw [process, hh, hsame]
      rfl
    · exact hold
  obtain hcame | ⟨rfl, h₁, hh₁, e, he, hdst, hmessage⟩ := hcoming.of_update
  · exact hsafe S hS R p hcame hold
  · obtain ⟨h, hh, -, hcalls⟩ := hh' h₁ hh₁
    exact hsafe S hS R p (.called hh (hcalls he) hdst hmessage) hold

/-- **A careful step keeps the senders named.** -/
theorem Safe.step {action : Happening} (hsafe : d.Safe resolve nodes) (hd : d.Grounded nodes)
    (hengaged : d.Engaged) (hnodes : Set.InjOn RmpAddress.sinAddr nodes)
    (hok : d.Careful resolve nodes action) (hs : deploymentStep resolve d action = some d') :
    d'.Safe resolve nodes := by
  have hsound : ∀ a h, d.hosts a = some h → ∀ s, h.process = .chatting s → Sound s :=
    fun a h hh s hs => hd.sound a s (by rw [process, hh, Option.map_some, hs])
  cases action with
  | join address nickname addrPort sendTo =>
    rw [deploymentStep] at hs
    split at hs
    · cases hs
    obtain ⟨j, hj, hs⟩ := Option.bind_eq_some_iff.1 hs
    have hj := Fault.toOption_eq_some.1 hj
    obtain rfl := Option.some.inj hs
    intro S hS R p hcoming hp
    obtain hcame | ⟨-, h₁, hh₁, e, he, -, hmessage⟩ := hcoming.of_update
    · obtain ⟨rfl, -⟩ | ⟨-, hold⟩ := process_update hp
      · exact absurd hcame (hok S hS)
      · exact hsafe S hS R p hcame hold
    · obtain rfl := Option.some.inj hh₁
      have hcarries : Carries messageStartElection messageAddMe := by
        rw [← hmessage, message_of_joinChat hj he]
        exact carries_addMeCmd nickname
      exact absurd (hcarries.unique (carries_self _) (by decide) (by decide)) (by decide)
  | react address event o =>
    obtain ⟨h, hh, hs⟩ := Option.bind_eq_some_iff.1 hs
    split at hs
    · obtain ⟨h', hreact, rfl⟩ := Option.map_eq_some_iff.1 hs
      refine hsafe.react hh (hsound address h hh) (fun s hs => hok s ?_) hreact
      rw [process, hh, Option.map_some, hs]
    · cases hs
  | library address i o =>
    obtain ⟨h, r, network, h', hh, hpermits, hr, hstep, hproceed, rfl⟩ := of_library hs
    have hcoming : ∀ S ∈ nodes, ∀ R, Coming ⟨network, d.hosts, d.roll⟩ S R → d.Coming S R :=
      fun S hS R hc => hc.of_network hd hengaged hnodes hS hh hpermits hr hstep
    have hkept : Safe resolve nodes ⟨network, d.hosts, d.roll⟩ :=
      fun S hS R p hc hp => hsafe S hS R p (hcoming S hS R hc) hp
    unfold Host.proceed at hproceed
    split at hproceed
    · obtain rfl := Option.some.inj hproceed
      exact hkept.update fun h₁ hh₁ =>
        ⟨h, hh, Option.some.inj hh₁ ▸ rfl, Option.some.inj hh₁ ▸ fun _ he => he⟩
    · split at hproceed
      · cases hproceed
      next e calls hcalls =>
      split at hproceed
      · obtain rfl := Option.some.inj hproceed
        refine hkept.update fun h₁ hh₁ => ⟨h, hh, ?_⟩
        obtain rfl := Option.some.inj hh₁
        exact ⟨rfl, fun _ he => hcalls ▸ .tail _ he⟩
      · cases hproceed
    · next result src id bytes delivered hret =>
      split at hproceed
      · obtain rfl := Option.some.inj hproceed
        exact hkept.update fun h₁ hh₁ =>
          ⟨h, hh, Option.some.inj hh₁ ▸ rfl, Option.some.inj hh₁ ▸ fun _ he => he⟩
      split at hproceed
      · next hzero hlen =>
        refine hkept.react hh (hsound address h hh) (fun s hs => ?_) hproceed
        have hreturned : d.returned address i o.recvBuff =
            some (h.process.received o.recvBuff bytes, src) :=
          returned_eq_some.2 ⟨h, r, network, result, id, bytes, delivered, hh, hpermits, hr, hstep, hret,
            by omega, rfl⟩
        refine (hok s _ src ?_ hreturned).of_network fun S hS => hcoming S hS address
        rw [process, hh, Option.map_some, hs]
      · obtain rfl := Option.some.inj hproceed
        exact hkept.update fun _ hh₁ => by cases hh₁
  | crash address =>
    obtain rfl := Option.some.inj hs
    exact hsafe.update fun _ hh₁ => by cases hh₁
  | lose k =>
    obtain rfl := Option.some.inj hs
    exact fun S hS R p hc hp => hsafe S hS R p
      (hc.of_subset (fun _ hx => List.mem_of_mem_eraseIdx hx) rfl) hp
  | copy k =>
    obtain rfl := Option.some.inj hs
    refine fun S hS R p hc hp => hsafe S hS R p (hc.of_subset (fun x hx => ?_) rfl) hp
    exact (List.mem_append.1 hx).elim id fun hx => List.mem_of_getElem? (Option.mem_toList.1 hx)

end Deployment

end Calls

theorem Deployment.Founded.not_coming {founder : Member} {d : Deployment}
    (h : Deployment.Founded founder d) (S R : RmpAddress) : ¬ d.Coming S R := by
  obtain ⟨s, -, ⟨hproc, hflight, -⟩, hhosts, -⟩ := h
  rintro (⟨hh, he, -, -⟩ | ⟨hp, -, -, -, -⟩ | ⟨hslot⟩)
  · rw [hhosts] at hh
    dsimp only at hh
    split at hh
    · obtain rfl := Option.some.inj hh
      cases he
    · cases hh
  · rw [hflight] at hp
    cases hp
  · obtain ⟨garbage, hgarbage⟩ := hproc R
    rw [view, hgarbage] at hslot
    cases hslot

/-- **In every careful run each START_ELECTION is handled safely**, between hosts with distinct IP
addresses that draw distinct message ids. -/
theorem handled_of_deployment {resolve : Bytes → Bytes → Option RmpAddress} {founder : Member}
    {nodes : Finset RmpAddress} (hnodes : Set.InjOn RmpAddress.sinAddr nodes)
    (hfounder : 0 ∉ founder.nickname) {d : Deployment}
    (h : Reach (deploymentStep resolve)
      (fun d action => Deployment.Regular nodes d action ∧ Deployment.Careful resolve nodes d action)
      (Deployment.Founded founder) d) : d.Handled resolve := by
  have hsafe : d.Engaged ∧ d.Safe resolve nodes :=
    h.invariant_of (I := fun d => d.Engaged ∧ d.Safe resolve nodes)
      (fun d hd => Deployment.grounded_of_reach hnodes hfounder hd)
      (fun d hd => ⟨hd.engaged, fun S _ R _ hcoming => absurd hcoming (hd.not_coming S R)⟩)
      fun d action d' hd hI hok hs =>
        ⟨hI.1.step hd.authentic.valid hs, hI.2.step hd hI.1 hnodes hok.2 hs⟩
  have hd := Deployment.grounded_of_reach hnodes hfounder h
  constructor
  · intro address s i buf src hs o hreturned rest hreads
    obtain ⟨hsrc, ⟨word, hword, hcarries, hstart⟩, hcoming⟩ :=
      Deployment.held_of_returned hreturned hd hnodes
    have hbody := hstart (hreads.command_eq (by decide) hword hcarries).symm
    exact findSender_total (lists_chatting.1 (hsafe.2 src hsrc address _ (hcoming hbody) hs))
  · intro address j i recvBuff buf src hj hreturned hreads
    obtain ⟨hsrc, ⟨word, hword, hcarries, hstart⟩, hcoming⟩ :=
      Deployment.held_of_returned hreturned hd hnodes
    have hbody := hstart (hreads.command_eq (by decide) hword hcarries).symm
    cases hsafe.2 src hsrc address _ (hcoming hbody) hj

/-! ## Two runs -/

namespace Deployment

theorem coming_iff {d : Deployment} {S R : RmpAddress} : d.Coming S R ↔
    (∃ h ∈ d.hosts S, ∃ e ∈ h.calls, e.dst = R ∧ e.message = messageStartElection) ∨
      (∃ p ∈ d.network.inFlight, p.src = S ∧ p.dst = R ∧ p.body.type = .data ∧
        p.body.payload = messageStartElection ++ [0]) ∨
      ∃ x ∈ (d.network.view R).slot (rmpAddressHash S), x.2 = messageStartElection ++ [0] := by
  constructor
  · rintro (⟨hh, he, hdst, hmessage⟩ | ⟨hp, hsrc, hdst, htype, hbody⟩ | ⟨hslot⟩)
    · exact .inl ⟨_, hh, _, he, hdst, hmessage⟩
    · exact .inr (.inl ⟨_, hp, hsrc, hdst, htype, hbody⟩)
    · exact .inr (.inr ⟨_, hslot, rfl⟩)
  · rintro (⟨h, hh, e, he, hdst, hmessage⟩ | ⟨p, hp, hsrc, hdst, htype, hbody⟩ |
      ⟨⟨id, bytes⟩, hslot, rfl⟩)
    · exact .called hh he hdst hmessage
    · exact .data hp hsrc hdst htype hbody
    · exact .held hslot

instance (d : Deployment) (S R : RmpAddress) : Decidable (d.Coming S R) :=
  decidable_of_iff' _ coming_iff

/-- No START_ELECTION is under way to the process at `a`, and everybody on its list lists it. -/
def Amicable (resolve : Bytes → Bytes → Option RmpAddress) (nodes : Finset RmpAddress)
    (d : Deployment) (a : RmpAddress) : Prop :=
  (∀ b ∈ nodes, ¬ d.Coming b a) ∧ ∀ p ∈ d.process a, ∀ q ∈ p.node.participants,
    ∀ b ∈ resolve q.ipAddress q.portNum, ∀ p' ∈ d.process b, p'.lists resolve a = true

/-- A process that reacts is in this state. -/
def Mutual (resolve : Bytes → Bytes → Option RmpAddress) (nodes : Finset RmpAddress)
    (d : Deployment) : Happening → Prop
  | .join address _ _ _ => ∀ b ∈ nodes, ¬ d.Coming b address
  | .react address _ _ => d.Amicable resolve nodes address
  | .library address i o => (d.returned address i o.recvBuff).isSome → d.Amicable resolve nodes address
  | _ => True

instance (resolve : Bytes → Bytes → Option RmpAddress) (nodes : Finset RmpAddress) (d : Deployment)
    (a : RmpAddress) : Decidable (d.Amicable resolve nodes a) := inferInstanceAs (Decidable (_ ∧ _))

instance (resolve : Bytes → Bytes → Option RmpAddress) (nodes : Finset RmpAddress) (d : Deployment) :
    DecidablePred (d.Mutual resolve nodes)
  | .join address _ _ _ => inferInstanceAs (Decidable (∀ b ∈ nodes, ¬ d.Coming b address))
  | .react address _ _ => inferInstanceAs (Decidable (d.Amicable resolve nodes address))
  | .library address i o => inferInstanceAs
      (Decidable ((d.returned address i o.recvBuff).isSome → d.Amicable resolve nodes address))
  | .crash _ | .lose _ | .copy _ => inferInstanceAs (Decidable True)

theorem Amicable.considerate {resolve : Bytes → Bytes → Option RmpAddress} {nodes : Finset RmpAddress}
    {d : Deployment} {a : RmpAddress} (h : d.Amicable resolve nodes a) {s : Node}
    (hs : d.process a = some (.chatting s)) (o : Surroundings) (event : Event) :
    d.Considerate resolve nodes a o { s with sent := [] } event :=
  ⟨fun _ q hq _ b hb p hp => h.2 _ hs q hq b hb p hp,
    fun _ _ _ _ _ _ b hb hcoming => absurd hcoming (h.1 b hb),
    fun _ b hb hcoming => absurd hcoming (h.1 b hb)⟩

theorem Mutual.careful {resolve : Bytes → Bytes → Option RmpAddress} {nodes : Finset RmpAddress}
    {d : Deployment} {action : Happening} (h : d.Mutual resolve nodes action) :
    d.Careful resolve nodes action := by
  cases action with
  | join address nickname addrPort sendTo => exact h
  | react address event o => exact fun s hs => h.considerate hs o event
  | library address i o =>
    exact fun s buf src hs hreturned =>
      (h (by rw [hreturned]; rfl)).considerate hs o (.receive buf src)
  | crash | lose | copy => trivial

end Deployment

/-- Three hosts of the loopback network. -/
def threeLoopback : Finset RmpAddress := {localHost 80, secondHost 80, thirdHost}

theorem threeLoopback_injOn : Set.InjOn RmpAddress.sinAddr threeLoopback := by
  intro a ha b hb h
  simp only [threeLoopback, Finset.coe_insert, Finset.coe_singleton, Set.mem_insert_iff,
    Set.mem_singleton_iff] at ha hb
  rcases ha with rfl | rfl | rfl <;> rcases hb with rfl | rfl | rfl <;>
    simp_all [localHost, secondHost, thirdHost]

/-- `a` lets in `b` and `c`, each at a host of its own. -/
def company : List Happening :=
  .asks (secondHost 80) "b" :: carried (secondHost 80) (localHost 80) 1 (str "ADD_ME b") ++
    carried (localHost 80) (secondHost 80) 2
      (str "PARTICIPANT_UPDATE @a:127.0.0.1:80 b:127.0.0.2:80 = NOTICE b joined on 127.0.0.2:80") ++
    .asks thirdHost "c" :: carried thirdHost (localHost 80) 3 (str "ADD_ME c") ++
    carried (localHost 80) (secondHost 80) 4 notice ++ carried (localHost 80) thirdHost 5 notice
where
  notice : Bytes := str
    "PARTICIPANT_UPDATE @a:127.0.0.1:80 b:127.0.0.2:80 c:127.0.0.3:80 = NOTICE c joined on 127.0.0.3:80"

/-- A heartbeat to `a` times out, and its sender starts an election: `a` does not answer, and
another process holds the START_ELECTION. -/
def callUp (src dst : RmpAddress) (id : MessageId) : List Happening :=
  .react src .heartbeat (.deafTo (localHost 80)) ::
    givenUp src (localHost 80) id messageHeartbeat ++
    givenUp src (localHost 80) (id + 1) messageStartElection ++
    deposited src dst (id + 2) messageStartElection ++ [.library dst (.listen maxBufferLen) .fair]

/-- `b` has called `c`, whose `RMP_listen` will return the START_ELECTION. -/
theorem handled_of_deployment_callUp : ∃ d : Deployment,
    d.Coming (secondHost 80) thirdHost ∧
    d.returned thirdHost (.receive (secondHost 80) .synAck 8 []) [] =
      some (messageStartElection, secondHost 80) ∧ d.Handled loopbackNetwork := by
  have hrun : (launch.bind fun d => exec (deploymentStep loopbackNetwork) (fun d action =>
      Deployment.Regular threeLoopback d action ∧
        Deployment.Mutual loopbackNetwork threeLoopback d action) d
      (company ++ callUp (secondHost 80) thirdHost 6)).map (fun d =>
        (decide (d.Coming (secondHost 80) thirdHost),
          d.returned thirdHost (.receive (secondHost 80) .synAck 8 []) [])) =
      some (true, some (messageStartElection, secondHost 80)) := by
    decide +kernel
  obtain ⟨d, hd, hres⟩ := exists_deployment_of_exec hrun
  obtain ⟨hcoming, hreturned⟩ := Prod.mk.inj hres
  exact ⟨d, of_decide_eq_true hcoming, hreturned, handled_of_deployment threeLoopback_injOn (by decide)
    (hd.mono fun _ _ _ hok hs => ⟨⟨hok.1, hok.2.careful⟩, hs⟩)⟩

/-- A heartbeat of `a` to `c` times out: `a` takes `c` out, and `b` takes the shorter list over.
Then `c` starts an election by its own list. -/
def dropped : List Happening :=
  company ++ .react (localHost 80) .heartbeat (.deafTo thirdHost) ::
    deposited (localHost 80) (secondHost 80) 6 messageHeartbeat ++
    givenUp (localHost 80) thirdHost 7 messageHeartbeat ++
    carried (localHost 80) (secondHost 80) 8
      (str "PARTICIPANT_UPDATE @a:127.0.0.1:80 b:127.0.0.2:80 = NOTICE c left the chat or crashed") ++
    callUp thirdHost (secondHost 80) 9

/-- `b` does not know the sender of the START_ELECTION, between hosts with distinct IP addresses
that draw distinct message ids. -/
theorem not_handled_of_deployment : ¬ ∀ (resolve : Bytes → Bytes → Option RmpAddress)
    (founder : Member) (nodes : Finset RmpAddress), Set.InjOn RmpAddress.sinAddr nodes →
    founder.Listable resolve → ∀ d, Reach (deploymentStep resolve) (fun d action =>
        Deployment.Regular nodes d action ∧ Deployment.Decent resolve Set.univ action)
      (Deployment.Founded founder) d → d.Handled resolve := by
  intro hall
  let _ : DecidablePred (· ∈ (Set.univ : Set RmpAddress)) := fun _ => .isTrue trivial
  have hrun : (launch.bind fun d => exec (deploymentStep loopbackNetwork) (fun d action =>
      Deployment.Regular threeLoopback d action ∧
        Deployment.Decent loopbackNetwork Set.univ action) d dropped).map (fun d =>
        (d.returned (secondHost 80) (.receive thirdHost .synAck 11 []) [],
          ((d.process (secondHost 80)).bind Process.node?).map fun s =>
            findSender ⟨loopbackNetwork, Surroundings.fair.sendTo⟩ thirdHost
              Surroundings.fair.locals.address s.participants)) =
      some (some (messageStartElection, thirdHost), some none) := by
    decide +kernel
  obtain ⟨d, hd, hres⟩ := exists_deployment_of_exec hrun
  obtain ⟨hreturned, hfind⟩ := Prod.mk.inj hres
  obtain ⟨s, hs, hfind⟩ := Option.map_eq_some_iff.1 hfind
  obtain ⟨p, hp, hnode⟩ := Option.bind_eq_some_iff.1 hs
  obtain rfl := Process.eq_chatting hnode
  have hfounder : host.Listable loopbackNetwork :=
    ⟨⟨by decide, by decide, by decide⟩, by decide, by decide, by decide⟩
  have hreads : Reads Surroundings.fair.locals messageStartElection messageStartElection [] :=
    ⟨messageStartElection, by decide, by decide⟩
  obtain ⟨nickname, hsome⟩ := (hall loopbackNetwork host threeLoopback threeLoopback_injOn hfounder d
    hd).chatting _ _ _ _ _ hp .fair hreturned [] hreads
  rw [hfind] at hsome
  cases hsome

end Dchat.Chat
