import Dchat.Chat.HeapRefinement
import Dchat.Chat.Outgoing
import Mathlib.Data.Option.Basic

/-!
# What a process does with its memory

The program on memory of `Dchat.Chat.ParticipantHeap`, over whole runs of a process.

* `heap_refines`: the program on memory and the program on lists have the same runs, and no freed
  memory is used.
* `Ledger` follows a run and collects the participants that were taken out of the list and not
  freed, and `leak_of_ledger` says what is allocated: these and the list.
* `Descends` says where the list after an event comes from, and `dropped_eq_nil` that only a leader
  drops participants.
-/

namespace Dchat.Chat

open CString Stdio RMP Runs Encryption Queue

/-! ## One event -/

/-- What the reaction to an event frees. -/
def releases (locals : Locals) (s : Node) : Event → List Address
  | .receive buf _ => if s.isLeader then [] else HeapNode.freedBy locals s.participants buf
  | _ => []

namespace HeapNode

variable {h : HeapNode} {leader : Option Peer} {ps : List Participant}

/-- **The reaction to an event.** -/
theorem Holds.rel_chatStep (hm : h.Holds leader ps) (env : Env) (locals : Locals) (event : Event) :
    Option.Rel (Fault.Agree (h.Leaves (releases locals (h.view leader ps) event)))
      (h.chatStep env locals event) (Chat.chatStep env locals (h.view leader ps) event) := by
  cases event with
  | stdin buf =>
    rw [HeapNode.chatStep, Chat.chatStep, view_numParticipants]
    split
    · refine .some ?_
      split
      · exact hm.agree_recvStdin env locals _
      · exact hm.agree_ok rfl rfl rfl
    · exact .none
  | receive buf recvAddr =>
    rw [HeapNode.chatStep, Chat.chatStep, releases, view_isLeader]
    refine .some ?_
    split
    · exact hm.agree_leaderReceiveMessage env locals buf recvAddr
    · exact hm.agree_nonLeaderReceiveMessage env locals buf recvAddr
  | heartbeat =>
    rw [HeapNode.chatStep, Chat.chatStep, view_inElection]
    split
    · exact .none
    · exact .some (hm.agree_sendHeartbeat env locals)
  | victory =>
    rw [HeapNode.chatStep, Chat.chatStep, view_isLeader, view_inElection, view_startedElection]
    split
    · exact .some (hm.agree_declareVictory env)
    · exact .none
  | restart =>
    rw [HeapNode.chatStep, Chat.chatStep, view_isLeader, view_inElection, view_startedElection]
    split
    · exact .some (hm.agree_startElection env)
    · exact .none

/-- **`exit_chat`** frees the participants of the list. -/
theorem Holds.exitChat (hm : h.Holds leader ps) :
    ∃ h', h.exitChat = .ok h' ∧ ∀ a, h'.Allocated a ↔ h.Allocated a ∧ a ∉ ps.map fun p => p.ptr := by
  obtain ⟨h₁, hempty, ⟨leader₁, ps₁, -, hview⟩, hacc⟩ := hm.agree_emptyList.exists_ok
  have hn : h.nextPtr = h₁.nextPtr := congrArg (fun s : Node => s.nextPtr) hview
  refine ⟨h₁.print (10 :: str "You left the chat."), by rw [HeapNode.exitChat, hempty]; rfl,
    fun (a : ℕ) => ?_⟩
  have hnone : ¬ (h.nextPtr ≤ a ∧ a < h₁.nextPtr) := by omega
  exact (hacc.allocated a).trans (or_iff_left hnone)

/-- With as many participants in the list as there ever were, no others are allocated. -/
theorem Holds.allocated_iff (hm : h.Holds leader ps) (hfull : h.nextPtr ≤ ps.length) {a : Address} :
    h.Allocated a ↔ a ∈ ps.map fun p => p.ptr := by
  have hperm := hm.subperm.perm_of_length_le (by simpa using hfull)
  constructor
  · exact fun ha => hperm.mem_iff.2 (List.mem_range.2 (hm.lt_nextPtr a ha))
  · intro ha
    obtain ⟨p, hp, rfl⟩ := List.mem_map.1 ha
    exact hm.allocated hp

theorem holds_modelInit (thisNickname : Bytes) (isLeader : Bool) :
    (modelInit thisNickname isLeader).Holds none [] :=
  ⟨.init, rfl, nofun, fun _ ha => absurd rfl ha⟩

/-- **`start_chat`.** -/
theorem agree_startChat (nickname ipAddress portNum : Bytes) :
    Fault.Agree ((modelInit nickname true).Leaves []) (startChat nickname ipAddress portNum)
      (Chat.startChat nickname ipAddress portNum) :=
  agree_bind ((holds_modelInit nickname true).agree_insertParticipant nickname ipAddress portNum true)
    fun hm => hm.agree_ok rfl rfl rfl

end HeapNode

/-! ## Processes -/

/-- The process `q` is what the memory of `p` holds. In `join_chat` this is no participant at
all. -/
inductive HeapProcess.Represents : HeapProcess → Process → Prop
  | joining {h : HeapNode} {addr port : Bytes} {leaderHint : RmpAddress} {failedJoinAttempts : ℕ}
      (hm : h.Holds none []) :
      Represents (.joining ⟨h, addr, port, leaderHint, failedJoinAttempts⟩)
        (.joining ⟨h.view none [], addr, port, leaderHint, failedJoinAttempts⟩)
  | chatting {h : HeapNode} {leader : Option Peer} {ps : List Participant} (hm : h.Holds leader ps) :
      Represents (.chatting h) (.chatting (h.view leader ps))

/-- The node of a process. -/
def HeapProcess.node : HeapProcess → HeapNode
  | .joining j => j.node
  | .chatting h => h

/-- What the reaction of a process frees. -/
def Process.releases (locals : Locals) : Process → Event → List Address
  | .joining _, _ => []
  | .chatting s, event => Chat.releases locals s event

/-- What a reaction of the process `p` leaves. -/
def HeapProcess.Leaves (p : HeapProcess) (freed : List Address) (p' : HeapProcess) (q' : Process) :
    Prop :=
  p'.Represents q' ∧ p.node.Accounted freed p'.node

section Joining

variable {h : HeapNode} (hm : h.Holds none [])

include hm

theorem agree_sendAddMe (env : Env) (addr port : Bytes) (leaderHint : RmpAddress)
    (failedJoinAttempts : ℕ) :
    Fault.Agree (fun j j' => (HeapProcess.chatting h).Leaves [] (.joining j) (.joining j'))
      (HeapJoining.sendAddMe env ⟨h, addr, port, leaderHint, failedJoinAttempts⟩)
      (sendAddMe env ⟨h.view none [], addr, port, leaderHint, failedJoinAttempts⟩) := by
  rw [HeapJoining.sendAddMe, sendAddMe]
  dsimp only
  split
  · have hstatus : ((h.view none []).rmpSendTo env leaderHint (addMeCmd h.thisNickname)).1 =
      (h.rmpSendTo env leaderHint (addMeCmd h.thisNickname)).1 := rfl
    rw [HeapNode.view_thisNickname, hstatus]
    split
    · exact .error (by decide)
    · exact .ok ⟨.joining (hm.rmpSendTo _ _ _), h.accounted_rmpSendTo _ _ _⟩
  · exact .error (by decide)

/-- **The answer in `join_chat`.** -/
theorem agree_joinReceive (env : Env) (addr port : Bytes) (leaderHint : RmpAddress)
    (failedJoinAttempts : ℕ) (recvBuff : Bytes) :
    Fault.Agree ((HeapProcess.chatting h).Leaves [])
      (HeapJoining.joinReceive env ⟨h, addr, port, leaderHint, failedJoinAttempts⟩ recvBuff)
      (joinReceive env ⟨h.view none [], addr, port, leaderHint, failedJoinAttempts⟩ recvBuff) := by
  refine (Fault.agree_self (sscanf_ne_freed _ _)).bind ?_
  rintro r - rfl
  dsimp only
  split
  · exact .error (by decide)
  split
  · refine ((hm.print _).agree_processParticipantUpdate recvBuff true).bind ?_
    rintro h₁ - ⟨⟨leader₁, ps₁, hm₁, rfl⟩, ha₁⟩
    exact .ok ⟨.chatting hm₁, (h.accounted_print _).trans ha₁⟩
  split
  · exact .error (by decide)
  split
  · refine (agree_sendAddMe hm env addr port leaderHint _).bind ?_
    exact fun j j' hj => .ok hj
  split
  · refine (Fault.agree_self (sscanf_ne_freed _ _)).bind ?_
    rintro r - rfl
    split
    · exact .error (by decide)
    cases env.getAddressFor (r.text 1 addr) (r.text 2 port) with
    | none => exact .error (by decide)
    | some leaderHint' =>
      refine (agree_sendAddMe hm env _ _ leaderHint' _).bind ?_
      exact fun j j' hj => .ok hj
  · exact .error (by decide)

end Joining

/-- **`join_chat`** up to the first `RMP_listen`. -/
theorem agree_joinChat (env : Env) (nickname ipAddress portNum addrPort : Bytes) :
    Fault.Agree (fun j j' => (HeapProcess.joining j).Represents (.joining j'))
      (HeapJoining.joinChat env nickname ipAddress portNum addrPort)
      (joinChat env nickname ipAddress portNum addrPort) := by
  have hm := (HeapNode.holds_modelInit nickname false).print
    (joinLine nickname addrPort ipAddress portNum)
  unfold HeapJoining.joinChat joinChat
  dsimp only
  split
  · exact .error (by decide)
  split
  · exact .error (by decide)
  split
  · exact .error (by decide)
  cases env.getAddressFor (addrPort.take (strcspn addrPort (str ":")))
    (addrPort.drop (strcspn addrPort (str ":") + 1)) with
  | none => exact .error (by decide)
  | some leaderHint => exact (agree_sendAddMe hm env _ _ leaderHint 0).mono fun j j' hj => hj.1

/-- **One reaction of a process.** -/
theorem HeapProcess.Represents.rel_processStep {p : HeapProcess} {q : Process} (hp : p.Represents q)
    (env : Env) (locals : Locals) (event : Event) :
    Option.Rel (Fault.Agree (p.Leaves (q.releases locals event)))
      (heapProcessStep env locals p event) (processStep env locals q event) := by
  cases hp with
  | joining hm =>
    cases event with
    | receive buf recvAddr => exact .some (agree_joinReceive hm env _ _ _ _ buf)
    | _ => exact .none
  | chatting hm =>
    rename_i h leader ps
    have hrel := hm.rel_chatStep env locals event
    rw [heapProcessStep, processStep]
    generalize h.chatStep env locals event = x at hrel ⊢
    generalize chatStep env locals (h.view leader ps) event = y at hrel ⊢
    cases hrel with
    | none => exact .none
    | some hr =>
      refine .some ?_
      cases hr with
      | ok hs =>
        obtain ⟨⟨leader₁, ps₁, hm₁, rfl⟩, ha₁⟩ := hs
        exact .ok ⟨.chatting hm₁, ha₁⟩
      | error he => exact .error he

/-! ## Runs -/

section Steps

variable {p p' : HeapProcess} {q q' : Process} {o : Occurrence}

theorem leaves_of_heapStep (hp : p.Represents q) (h : heapStep p o = some p') :
    ∃ q', soloStep q o = some q' ∧ p.Leaves (q.releases o.locals o.event) p' q' := by
  obtain ⟨x, hx, hok⟩ := Option.bind_eq_some_iff.1 h
  obtain rfl := Fault.toOption_eq_some.1 hok
  have hrel := hp.rel_processStep o.env o.locals o.event
  rw [hx] at hrel
  generalize hy : processStep o.env o.locals q o.event = y at hrel
  cases hrel with
  | some hr =>
    obtain ⟨q', rfl, hq'⟩ := hr.exists_ok_left
    exact ⟨q', by rw [soloStep, hy]; rfl, hq'⟩

theorem leaves_of_soloStep (hp : p.Represents q) (h : soloStep q o = some q') :
    ∃ p', heapStep p o = some p' ∧ p.Leaves (q.releases o.locals o.event) p' q' := by
  obtain ⟨y, hy, hok⟩ := Option.bind_eq_some_iff.1 h
  obtain rfl := Fault.toOption_eq_some.1 hok
  have hrel := hp.rel_processStep o.env o.locals o.event
  rw [hy] at hrel
  generalize hx : heapProcessStep o.env o.locals p o.event = x at hrel
  cases hrel with
  | some hr =>
    obtain ⟨p', rfl, hp'⟩ := hr.exists_ok
    exact ⟨p', by rw [heapStep, hx]; rfl, hp'⟩

theorem HeapStarted.represents (h : HeapStarted p) : ∃ q, Started q ∧ p.Represents q := by
  cases h with
  | founder hstart =>
    rename_i nickname ipAddress portNum h
    have hr := HeapNode.agree_startChat nickname ipAddress portNum
    rw [hstart] at hr
    obtain ⟨s, hs, ⟨leader, ps, hm, rfl⟩, -⟩ := hr.exists_ok_left
    exact ⟨_, .founder hs, .chatting hm⟩
  | joiner hjoin =>
    rename_i env nickname ipAddress portNum addrPort j
    have hr := agree_joinChat env nickname ipAddress portNum addrPort
    rw [hjoin] at hr
    obtain ⟨j', hj', hj⟩ := hr.exists_ok_left
    exact ⟨_, .joiner hj', hj⟩

theorem Started.represented (h : Started q) : ∃ p, HeapStarted p ∧ p.Represents q := by
  cases h with
  | founder hstart =>
    rename_i nickname ipAddress portNum s
    have hr := HeapNode.agree_startChat nickname ipAddress portNum
    rw [hstart] at hr
    obtain ⟨h, hh, ⟨leader, ps, hm, rfl⟩, -⟩ := hr.exists_ok
    exact ⟨_, .founder hh, .chatting hm⟩
  | joiner hjoin =>
    rename_i env nickname ipAddress portNum addrPort j
    have hr := agree_joinChat env nickname ipAddress portNum addrPort
    rw [hjoin] at hr
    obtain ⟨j', hj', hj⟩ := hr.exists_ok
    exact ⟨_, .joiner hj', hj⟩

end Steps

/-- A state of a run of the program. -/
def HeapReached (p : HeapProcess) : Prop := Reach heapStep (fun _ _ => True) HeapStarted p

theorem represents_of_reached {p : HeapProcess} (h : HeapReached p) :
    ∃ q, Reach soloStep (fun _ _ => True) Started q ∧ p.Represents q := by
  refine h.simulate (fun _ hp => hp.represents) fun p q o p' hp _ hs => ?_
  obtain ⟨q', hq', hr⟩ := leaves_of_heapStep hp hs
  exact ⟨q', trivial, hq', hr.1⟩

theorem represented_of_reach {q : Process} (h : Reach soloStep (fun _ _ => True) Started q) :
    ∃ p, HeapReached p ∧ p.Represents q := by
  refine h.simulate (R := fun (q : Process) (p : HeapProcess) => p.Represents q)
    (fun _ hq => hq.represented) fun q p o q' hp _ hs => ?_
  obtain ⟨p', hp', hr⟩ := leaves_of_soloStep hp hs
  exact ⟨p', trivial, hp', hr.1⟩

/-! ## The list from one event to the next -/

/-- The addresses of the participants in the list. -/
def Node.listed (s : Node) : List Address := s.participants.map fun p => p.ptr

/-- The addresses that `malloc` has returned between `s` and `s'`. -/
def Node.taken (s s' : Node) : List Address := List.range' s.nextPtr (s'.nextPtr - s.nextPtr)

/-- The list of `s'` has participants of the list of `s` and new ones. -/
structure Descends (s s' : Node) : Prop where
  le : s.nextPtr ≤ s'.nextPtr
  sublist : s'.listed.Sublist (s.listed ++ s.taken s')

theorem Descends.refl (s : Node) : Descends s s := ⟨le_rfl, List.sublist_append_left _ _⟩

theorem taken_succ {s s₁ s₂ : Node} (hle : s.nextPtr ≤ s₁.nextPtr)
    (h : s₂.nextPtr = s₁.nextPtr + 1) : s.taken s₂ = s.taken s₁ ++ [s₁.nextPtr] := by
  have hsub : s₁.nextPtr + 1 - s.nextPtr = s₁.nextPtr - s.nextPtr + 1 := by omega
  rw [Node.taken, h, hsub, List.range'_concat, Node.taken, Nat.one_mul, Nat.add_sub_cancel' hle]

theorem Descends.congr {s s' s'' : Node} (h : Descends s s') (hlisted : s''.listed = s'.listed)
    (hn : s''.nextPtr = s'.nextPtr) : Descends s s'' where
  le := hn ▸ h.le
  sublist := by
    rw [hlisted, Node.taken, hn]
    exact h.sublist

/-- An insertion lists one more `struct`, which was not taken before. -/
theorem listed_insertParticipant {s s' : Node} {nickname ipAddress portNum : Bytes} {isLeader : Bool}
    (h : s.insertParticipant nickname ipAddress portNum isLeader = .ok s') :
    s'.listed = s.listed ++ [s.nextPtr] ∧ s'.nextPtr = s.nextPtr + 1 := by
  unfold Node.insertParticipant at h
  dsimp only at h
  split at h
  · cases h
  · obtain rfl := Except.ok.inj h
    exact ⟨by simp [Node.listed], rfl⟩

theorem listed_scanParticipants {joining : Bool} {fuel : ℕ} {s s' : Node} {currPos rest : Bytes}
    {isFirst : Bool} (h : scanParticipants joining fuel s currPos isFirst = .ok (s', rest)) :
    s.nextPtr ≤ s'.nextPtr ∧ s'.listed = s.listed ++ s.taken s' := by
  induction fuel generalizing s currPos isFirst with
  | zero => cases h
  | succ fuel ih =>
    rw [scanParticipants] at h
    split at h
    · obtain ⟨rfl, -⟩ := Prod.mk.inj (Except.ok.inj h)
      simp [Node.taken]
    obtain ⟨r, -, h⟩ := Fault.bind_eq_ok.1 h
    split at h
    · cases h
    split at h
    · cases h
    obtain ⟨s₁, hinsert, h⟩ := Fault.bind_eq_ok.1 h
    obtain ⟨hlisted, hn⟩ := listed_insertParticipant hinsert
    obtain ⟨s₂, hlisted₂, hn₂, h⟩ : ∃ s₂ : Node, s₂.listed = s₁.listed ∧ s₂.nextPtr = s₁.nextPtr ∧
        scanParticipants joining fuel s₂
          (skipSpaces (currPos.drop (strcspn currPos (str " =")))) false = .ok (s', rest) := by
      cases joining with
      | false => exact ⟨_, rfl, rfl, h⟩
      | true => exact ⟨_, by rfl, by rfl, h⟩
    obtain ⟨hle, hrec⟩ := ih h
    refine ⟨by omega, ?_⟩
    have hsub : s'.nextPtr - s.nextPtr = s'.nextPtr - (s.nextPtr + 1) + 1 := by omega
    rw [hrec, hlisted₂, hlisted, Node.taken, hn₂, hn, Node.taken, hsub, List.range'_succ,
      List.append_assoc]
    rfl

theorem listed_processParticipantUpdate {s s' : Node} {command : Bytes} {joining : Bool}
    (h : processParticipantUpdate s command joining = .ok s') :
    s.nextPtr ≤ s'.nextPtr ∧ s'.listed = s.taken s' := by
  obtain ⟨found, s₁, currPos, -, hscan, -, rfl⟩ := processParticipantUpdate_eq_ok h
  exact listed_scanParticipants hscan

theorem stable_descends (s₀ : Node) : Stable (Descends s₀) where
  congr h hps _ hn _ := h.congr (by rw [Node.listed, Node.listed, hps]) hn
  broadcast h hb := by
    obtain ⟨t, ht⟩ := broadcast_of_ok hb
    refine ⟨ht.same.nextPtr ▸ h.le, ?_⟩
    rw [Node.taken, ht.same.nextPtr]
    exact (ht.sublist.map _).trans h.sublist
  flags test h := h.congr (by simp [Node.listed, Node.setLeaderBy]) rfl

/-- **What a reaction makes of the list.** -/
theorem Reaction.descends {env : Env} {locals : Locals} {s s' : Node} {event : Event}
    (h : Reaction env locals s event s') : Descends s s' := by
  refine (stable_descends s).reaction h (.refl s) (fun _ _ _ s₁ _ _ _ hinsert => ?_) fun _ s₁ hu => ?_
  · obtain ⟨hlisted, hn⟩ := listed_insertParticipant hinsert
    refine ⟨hn ▸ Nat.le_succ _, ?_⟩
    rw [hlisted, taken_succ le_rfl hn]
    simp [Node.taken]
  · obtain ⟨hle, hlisted⟩ := listed_processParticipantUpdate hu
    exact ⟨hle, hlisted ▸ List.sublist_append_right _ _⟩

/-- **What a reaction of a process makes of the list.** -/
theorem descends_of_soloStep {q q' : Process} {o : Occurrence} (h : soloStep q o = some q') :
    Descends q.node q'.node := by
  cases q with
  | joining j =>
    obtain ⟨buf, src, -, h⟩ := soloStep_joining h
    obtain ⟨j₁, j', rfl, hnode, hsend⟩ | ⟨s', -, rfl, hu⟩ := joinReceive_ok h
    · obtain ⟨e, rfl, -⟩ := sendAddMe_ok hsend
      exact (Descends.refl j.node).congr (by rw [← hnode]; rfl) (by rw [← hnode]; rfl)
    · obtain ⟨hle, hlisted⟩ := listed_processParticipantUpdate hu
      exact ⟨hle, hlisted ▸ List.sublist_append_right _ _⟩
  | chatting s =>
    obtain ⟨s', hs, rfl⟩ := soloStep_chatting h
    exact (reaction_of_chatStep hs).descends

/-! ## The ledger -/

/-- The participants that a reaction takes out of the list without freeing them. -/
def Process.dropped (o : Occurrence) (q q' : Process) : List Address :=
  (q.node.listed ++ q.node.taken q'.node).filter fun a =>
    a ∉ q'.node.listed ∧ a ∉ q.releases o.locals o.event

/-- A run of the program with the run of nodes that its memory shows, and the participants dropped
in it. -/
inductive Ledger : HeapProcess → Process → List Address → Prop
  | start {p : HeapProcess} {q : Process} (hp : HeapStarted p) (hq : Started q)
    (hr : p.Represents q) : Ledger p q []
  | next {p p' : HeapProcess} {q q' : Process} {gone : List Address} {o : Occurrence}
    (h : Ledger p q gone) (hp : heapStep p o = some p') (hq : soloStep q o = some q') :
    Ledger p' q' (gone ++ Process.dropped o q q')

/-- What is allocated is the list and the participants dropped, which are different. -/
structure Balanced (p : HeapProcess) (q : Process) (gone : List Address) : Prop where
  represents : p.Represents q
  allocated : ∀ a, p.node.Allocated a ↔ a ∈ q.node.listed ∨ a ∈ gone
  nodup : (gone ++ q.node.listed).Nodup

theorem HeapProcess.Represents.holds {p : HeapProcess} {q : Process} (h : p.Represents q) :
    ∃ leader ps, p.node.Holds leader ps ∧ q.node = p.node.view leader ps := by
  cases h with
  | joining hm => exact ⟨_, _, hm, rfl⟩
  | chatting hm => exact ⟨_, _, hm, rfl⟩

theorem releases_subset (q : Process) (locals : Locals) (event : Event) :
    ∀ a ∈ q.releases locals event, a ∈ q.node.listed := by
  have hfreed : ∀ (s : Node) (buf : Bytes), ∀ a ∈ HeapNode.freedBy locals s.participants buf,
      a ∈ s.listed := by
    intro s buf a ha
    unfold HeapNode.freedBy at ha
    split at ha
    · split_ifs at ha
      · cases ha
      · exact ha
      · cases ha
    · cases ha
  intro a ha
  cases q with
  | joining j => cases ha
  | chatting s =>
    cases event with
    | receive buf src =>
      rw [Process.releases, Chat.releases] at ha
      split at ha
      · cases ha
      · exact hfreed s buf a ha
    | _ => cases ha

theorem mem_dropped {o : Occurrence} {q q' : Process} {a : Address} :
    a ∈ Process.dropped o q q' ↔ (a ∈ q.node.listed ∨ a ∈ q.node.taken q'.node) ∧
      a ∉ q'.node.listed ∧ a ∉ q.releases o.locals o.event := by
  rw [Process.dropped, List.mem_filter, List.mem_append, decide_eq_true_iff]

theorem mem_taken {s s' : Node} (hle : s.nextPtr ≤ s'.nextPtr) {a : ℕ} :
    a ∈ s.taken s' ↔ s.nextPtr ≤ a ∧ a < s'.nextPtr := by
  rw [Node.taken, List.mem_range'_1]
  omega

theorem Balanced.lt_nextPtr {p : HeapProcess} {q : Process} {gone : List Address}
    (h : Balanced p q gone) {a : ℕ} (ha : a ∈ q.node.listed ∨ a ∈ gone) : a < q.node.nextPtr := by
  obtain ⟨leader, ps, hm, hview⟩ := h.represents.holds
  have hn : q.node.nextPtr = p.node.nextPtr := hview ▸ rfl
  exact hn ▸ hm.lt_nextPtr a ((h.allocated a).2 ha)

/-- **The ledger after a reaction.** -/
theorem Balanced.next {p p' : HeapProcess} {q q' : Process} {gone : List Address} {o : Occurrence}
    (h : Balanced p q gone) (hp : heapStep p o = some p') (hq : soloStep q o = some q') :
    Balanced p' q' (gone ++ Process.dropped o q q') := by
  obtain ⟨q₁, hq₁, hr, hacc⟩ := leaves_of_heapStep h.represents hp
  obtain rfl : q₁ = q' := Option.some.inj (hq₁.symm.trans hq)
  obtain ⟨leader, ps, hm, hview⟩ := h.represents.holds
  obtain ⟨leader', ps', hm', hview'⟩ := hr.holds
  have hdesc := descends_of_soloStep hq
  have hn : q.node.nextPtr = p.node.nextPtr := hview ▸ rfl
  have hn' : q₁.node.nextPtr = p'.node.nextPtr := hview' ▸ rfl
  have htaken : ∀ a : ℕ, a ∈ q.node.taken q₁.node ↔ p.node.nextPtr ≤ a ∧ a < p'.node.nextPtr := by
    intro a
    rw [mem_taken hdesc.le, hn, hn']
  have hlive' : ∀ a ∈ q₁.node.listed, p'.node.Allocated a := by
    rw [hview']
    intro a ha
    obtain ⟨r, hr, rfl⟩ := List.mem_map.1 ha
    exact hm'.allocated hr
  have hnodup' : q₁.node.listed.Nodup := hview' ▸ hm'.linked
  have hnodup := h.nodup
  rw [List.nodup_append] at hnodup
  obtain ⟨hgone, hlisted, hdisjoint⟩ := hnodup
  have hfresh : ∀ a : ℕ, a ∈ q.node.listed ∨ a ∈ gone → a ∉ q.node.taken q₁.node := by
    intro a ha htake
    have hlt := h.lt_nextPtr ha
    have hge := ((htaken a).1 htake).1
    omega
  have hreleases := releases_subset q o.locals o.event
  have halive : ∀ a, p'.node.Allocated a ↔ (a ∈ q.node.listed ∨ a ∈ gone) ∧
      a ∉ q.releases o.locals o.event ∨ a ∈ q.node.taken q₁.node := by
    intro a
    rw [hacc.allocated, h.allocated, htaken]
  refine ⟨hr, fun a => ?_, ?_⟩
  · have ha' := hlive' a
    have hgone' : a ∈ gone → a ∉ q.node.listed := fun hg hl => hdisjoint a hg a hl rfl
    have hrel := hreleases a
    rw [halive] at ha' ⊢
    rw [List.mem_append, mem_dropped]
    tauto
  · have hdropped : (Process.dropped o q q₁).Nodup := by
      refine List.Nodup.filter _ (List.nodup_append.2 ⟨hlisted, List.nodup_range' .., ?_⟩)
      rintro a ha b hb rfl
      exact hfresh a (.inl ha) hb
    rw [List.append_assoc, List.nodup_append, List.nodup_append]
    refine ⟨hgone, ⟨hdropped, hnodup', ?_⟩, ?_⟩
    · rintro a ha b hb rfl
      exact (mem_dropped.1 ha).2.1 hb
    · rintro a ha b hb rfl
      have hout : a ∉ q.node.listed ∧ a ∉ q.node.taken q₁.node :=
        ⟨fun hl => hdisjoint a ha a hl rfl, hfresh a (.inr ha)⟩
      obtain hb | hb := List.mem_append.1 hb
      · exact (mem_dropped.1 hb).1.elim hout.1 hout.2
      · exact (List.mem_append.1 (hdesc.sublist.subset hb)).elim hout.1 hout.2

/-- A command that is read begins with the first byte of the word. -/
theorem head_of_strcmp {c : UInt8} {cs word : Bytes} (hc : c ≠ 0) (h : strcmp (c :: cs) word = 0) :
    word.head? = some c := by
  cases word with
  | nil =>
    rw [strcmp] at h
    exact absurd (UInt8.toNat.inj (Int.ofNat_eq_zero.1 h)) hc
  | cons b bs =>
    rw [strcmp] at h
    split at h
    · next hb => rw [hb, List.head?_cons]
    · next hb => exact absurd (UInt8.toNat.inj (by omega)) hb

/-- A node that is no leader afterwards has kept its list, or has freed it all. -/
theorem Reaction.keeps {env : Env} {locals : Locals} {s s' : Node} {event : Event}
    (h : Reaction env locals s event s') (hl : s'.isLeader = false) :
    s'.listed = s.listed ∧ s'.nextPtr = s.nextPtr ∨
      s.nextPtr ≤ s'.nextPtr ∧ s'.listed = s.taken s' ∧ ∀ a ∈ s.listed, a ∈ releases locals s event := by
  have hleads : ∀ {s₀ s₁ : Node} {message : Bytes}, s₀.isLeader = true →
      leaderBroadcastMessage env s₀ message = .ok s₁ → s₁.isLeader = true :=
    fun hs hb => (leaderBroadcastMessage_same hb).isLeader.trans hs
  cases h with
  | silent lines => exact .inl ⟨rfl, rfl⟩
  | @numbered _ nickname payload line s₁ hs _ _ hb =>
    have hs' : ({ s with clockNum := s.clockNum + 1 } : Node).isLeader = true := hs
    have hled := hleads hs' hb
    exact absurd (hl.symm.trans hled) Bool.false_ne_true
  | refused _ _ _ => exact .inl ⟨rfl, rfl⟩
  | admitted hs _ _ hinsert _ hb =>
    have hs₁ := (insertParticipant_role hinsert).isLeader.trans hs
    have hled := hleads hs₁ hb
    exact absurd (hl.symm.trans hled) Bool.false_ne_true
  | responded _ hr =>
    obtain ⟨log, started, rfl⟩ := respondToLeaderElection_frame hr
    exact .inl ⟨rfl, rfl⟩
  | heard _ _ _ => exact .inl ⟨rfl, rfl⟩
  | @updated buf rest src s' hs hreads hu =>
    obtain ⟨hle, hlisted⟩ := listed_processParticipantUpdate hu
    refine .inr ⟨hle, hlisted, fun a ha => ?_⟩
    obtain ⟨word, hscan, hword⟩ := hreads
    have hnot : strcmp messageBroadcast word ≠ 0 := by
      intro hb
      have h1 := head_of_strcmp (by decide) hb
      have h2 := head_of_strcmp (by decide) hword
      rw [h1] at h2
      exact absurd h2 (by decide)
    rw [releases, if_neg (by simp [hs]), HeapNode.freedBy, hscan]
    dsimp only
    rw [if_neg hnot, if_pos hword]
    exact ha
  | referred _ _ _ => exact .inl ⟨rfl, rfl⟩
  | stopped _ _ => exact .inl ⟨rfl, rfl⟩
  | followed _ _ =>
    exact .inl ⟨by simp [Node.listed, setNewLeader, Node.setLeaderByAddr, Node.setLeaderBy], rfl⟩
  | asked _ _ => exact .inl ⟨rfl, rfl⟩
  | suspected _ _ _ _ _ hstart =>
    obtain ⟨log, rfl, -⟩ := startElection_ok hstart
    exact .inl ⟨rfl, rfl⟩
  | beaten hs _ hb => exact absurd (hl.symm.trans (hleads hs hb)) Bool.false_ne_true
  | declared _ _ _ hd =>
    obtain ⟨s₁, s₂, notice, update, lines, hvictory, -, hannounce, rfl⟩ :=
      declareVictory_broadcasts hd
    have hs₁ : s₁.isLeader = true := (leaderBroadcastMessage_same hvictory).isLeader
    have hled := hleads hs₁ hannounce
    exact absurd (hl.symm.trans hled) Bool.false_ne_true
  | restarted _ _ hstart =>
    obtain ⟨log, rfl, -⟩ := startElection_ok hstart
    exact .inl ⟨rfl, rfl⟩

/-- **A process that is no leader drops nobody.** -/
theorem dropped_eq_nil {p : HeapProcess} {q q' : Process} {o : Occurrence}
    (hp : p.Represents q) (h : soloStep q o = some q') (hl : q'.node.isLeader = false) :
    Process.dropped o q q' = [] := by
  refine List.eq_nil_iff_forall_not_mem.2 fun a ha => ?_
  obtain ⟨ha, hnot, hkept⟩ := mem_dropped.1 ha
  have hsame : q'.node.listed = q.node.listed → q'.node.nextPtr = q.node.nextPtr → False := by
    intro hlisted hn
    rw [hlisted] at hnot
    obtain ha | ha := ha
    · exact hnot ha
    · have hrange := (mem_taken hn.ge).1 ha
      omega
  cases hp with
  | joining hm =>
    obtain ⟨buf, src, -, h⟩ := soloStep_joining h
    obtain ⟨j₁, j', rfl, hnode, hsend⟩ | ⟨s', -, rfl, hu⟩ := joinReceive_ok h
    · obtain ⟨e, rfl, -⟩ := sendAddMe_ok hsend
      exact hsame (by rw [Process.node, hnode]; rfl) (by rw [Process.node, hnode]; rfl)
    · obtain ⟨-, hlisted⟩ := listed_processParticipantUpdate hu
      obtain ha | ha := ha
      · cases ha
      · exact hnot (hlisted ▸ ha)
  | chatting hm =>
    obtain ⟨s', hs, rfl⟩ := soloStep_chatting h
    obtain ⟨hlisted, hn⟩ | ⟨-, hlisted, hfreed⟩ := (reaction_of_chatStep hs).keeps hl
    · exact hsame hlisted hn
    · obtain ha | ha := ha
      · exact hkept (hfreed a ha)
      · exact hnot (hlisted ▸ ha)

theorem Ledger.balanced {p : HeapProcess} {q : Process} {gone : List Address} (h : Ledger p q gone) :
    Balanced p q gone := by
  induction h with
  | @start p q _ hq hr =>
    obtain ⟨leader, ps, hm, hview⟩ := hr.holds
    refine ⟨hr, fun a => ?_, hview ▸ hm.linked⟩
    have hfull : p.node.nextPtr ≤ ps.length := by
      have hn : q.node.nextPtr = p.node.nextPtr := hview ▸ rfl
      have hps : q.node.participants = ps := hview ▸ rfl
      rw [← hn, ← hps]
      cases hq with
      | founder hstart =>
        obtain ⟨x, lines, rfl, -⟩ := startChat_ok hstart
        exact le_rfl
      | joiner hjoin =>
        obtain ⟨e, lines, hnode, -⟩ := joinChat_ok hjoin
        rw [Process.node, hnode]
        exact le_rfl
    rw [hm.allocated_iff hfull, hview]
    simp [Node.listed]
  | next _ hp hq ih => exact ih.next hp hq

/-- **The program on memory and the program on lists are one.** In every state of a run the memory
shows a node of a run of the list program, in which every event has the same outcome; no event uses
freed memory or frees it twice, and leaving the chat does not either. Every node of a run of the
list program is shown by a run on memory. -/
theorem heap_refines :
    (∀ p, HeapReached p →
      (∃ q, Reach soloStep (fun _ _ => True) Started q ∧ p.Represents q ∧ ∀ env locals event,
        Option.Rel (Fault.Agree fun p' q' => p'.Represents q') (heapProcessStep env locals p event)
          (processStep env locals q event)) ∧
      (∀ env locals event, heapProcessStep env locals p event ≠ some (.error .freed)) ∧
      ∀ h, p = .chatting h → ∃ h', h.exitChat = .ok h') ∧
    ∀ q, Reach soloStep (fun _ _ => True) Started q → ∃ p, HeapReached p ∧ p.Represents q := by
  refine ⟨fun p h => ?_, fun q hq => represented_of_reach hq⟩
  obtain ⟨q, hq, hr⟩ := represents_of_reached h
  have hstep : ∀ env locals event, Option.Rel (Fault.Agree fun p' q' => p'.Represents q')
      (heapProcessStep env locals p event) (processStep env locals q event) := by
    intro env locals event
    have hrel := hr.rel_processStep env locals event
    generalize heapProcessStep env locals p event = x at hrel ⊢
    generalize processStep env locals q event = y at hrel ⊢
    cases hrel with
    | none => exact .none
    | some hxy => exact .some (hxy.mono fun _ _ hs => hs.1)
  refine ⟨⟨q, hq, hr, hstep⟩, fun env locals event hfreed => ?_, ?_⟩
  · have hrel := hstep env locals event
    rw [hfreed] at hrel
    generalize processStep env locals q event = y at hrel
    cases hrel with
    | some hxy => exact hxy.ne_freed rfl
  · rintro h rfl
    obtain ⟨leader, ps, hm, -⟩ := hr.holds
    obtain ⟨h', hexit, -⟩ := hm.exitChat
    exact ⟨h', hexit⟩

/-- A founder at port 80 lets in participants at the ports 81 and 82, and the first of them does not
answer the next heartbeat. -/
def unanswered : List Occurrence :=
  [⟨calmEnv, .blank, .receive (addMeCmd (str "b")) (localHost 81)⟩,
    ⟨calmEnv, .blank, .receive (addMeCmd (str "c")) (localHost 82)⟩,
    ⟨{ calmEnv with sendTo := fun _ dst _ => if dst = localHost 81 then rmpETimeout else 1 }, .blank,
      .heartbeat⟩]

/-- The second participant is then taken out of the list, and still allocated after `exit_chat`. -/
theorem exists_reached_departure : ∃ h h' : HeapNode, HeapReached (.chatting h) ∧
    h.participantsHead.tqhLast = some 2 ∧ h.exitChat = .ok h' ∧ h'.Allocated 1 := by
  have hrun : ((HeapNode.startChat (str "a") (str "127.0.0.1") (str "80")).toOption.bind fun h =>
      (exec heapStep (fun _ _ => True) (.chatting h) unanswered).bind fun p =>
        match p with
        | .joining _ => none
        | .chatting h => some (h.participantsHead.tqhLast,
          h.exitChat.toOption.map fun h' => (h'.participantsHead.payload 1).isSome)) =
      some (some 2, some true) := by decide
  obtain ⟨h₀, hstart, hrun⟩ := Option.bind_eq_some_iff.1 hrun
  obtain ⟨p, hp, hrun⟩ := Option.bind_eq_some_iff.1 hrun
  have hreached : HeapReached p :=
    reach_exec _ (.start (.founder (Fault.toOption_eq_some.1 hstart))) hp
  cases p with
  | joining j => cases hrun
  | chatting h =>
    obtain ⟨hlast, hexit⟩ := Prod.mk.inj (Option.some.inj hrun)
    obtain ⟨h', hh', hlive⟩ := Option.map_eq_some_iff.1 hexit
    exact ⟨h, h', hreached, hlast, Fault.toOption_eq_some.1 hh', Option.isSome_iff_ne_none.1 hlive⟩

/-- The heartbeat that fails frees nothing that is used again. -/
theorem heap_refines_departure : ∃ p, HeapReached p ∧ p.node.participantsHead.tqhLast = some 2 ∧
    ∀ env locals event, heapProcessStep env locals p event ≠ some (.error .freed) := by
  obtain ⟨h, -, hreached, hlast, -⟩ := exists_reached_departure
  exact ⟨.chatting h, hreached, hlast, (heap_refines.1 _ hreached).2.1⟩

theorem ledger_of_reached {p : HeapProcess} (h : HeapReached p) : ∃ q gone, Ledger p q gone := by
  induction h with
  | start hp =>
    obtain ⟨q, hq, hr⟩ := hp.represents
    exact ⟨q, [], .start hp hq hr⟩
  | next _ _ hs ih =>
    obtain ⟨q, gone, hledger⟩ := ih
    obtain ⟨q', hq', -⟩ := leaves_of_heapStep hledger.balanced.represents hs
    exact ⟨q', _, hledger.next hs hq'⟩

/-- **What stays behind.** The participants that are allocated are those of the list and those that
were dropped, each of them once; only a leader drops any, and `exit_chat` leaves exactly the dropped
ones allocated. -/
theorem leak_of_ledger {p : HeapProcess} {q : Process} {gone : List Address} (h : Ledger p q gone) :
    (∀ a, p.node.Allocated a ↔ a ∈ q.node.listed ∨ a ∈ gone) ∧ (gone ++ q.node.listed).Nodup ∧
    (∀ o q', soloStep q o = some q' → q'.node.isLeader = false → Process.dropped o q q' = []) ∧
    ∀ h, p = .chatting h → ∃ h', h.exitChat = .ok h' ∧ ∀ a, h'.Allocated a ↔ a ∈ gone := by
  have hb := h.balanced
  refine ⟨hb.allocated, hb.nodup, fun o q' hq hl => dropped_eq_nil hb.represents hq hl, ?_⟩
  rintro node rfl
  obtain ⟨leader, ps, hm, hview⟩ := hb.represents.holds
  obtain ⟨h', hexit, hacc⟩ := hm.exitChat
  refine ⟨h', hexit, fun a => ?_⟩
  have hdisjoint := (List.nodup_append.1 hb.nodup).2.2
  have hlisted : q.node.listed = ps.map fun p => p.ptr := hview ▸ rfl
  have halive : node.Allocated a ↔ a ∈ q.node.listed ∨ a ∈ gone := hb.allocated a
  refine (hacc a).trans ?_
  rw [← hlisted]
  refine (and_congr_left' halive).trans ?_
  constructor
  · rintro ⟨hl | hg, hnot⟩
    · exact absurd hl hnot
    · exact hg
  · exact fun hg => ⟨.inr hg, fun hl => hdisjoint a hg a hl rfl⟩

/-- The participant that did not answer stays behind. -/
theorem leak_of_ledger_departure : ∃ p q gone, Ledger p q gone ∧ 1 ∈ gone := by
  obtain ⟨h, h', hreached, -, hexit, hlive⟩ := exists_reached_departure
  obtain ⟨q, gone, hledger⟩ := ledger_of_reached hreached
  obtain ⟨h'', hexit', hgone⟩ := (leak_of_ledger hledger).2.2.2 h rfl
  obtain rfl := Except.ok.inj (hexit.symm.trans hexit')
  exact ⟨_, q, gone, hledger, (hgone 1).1 hlive⟩

end Dchat.Chat
