import Dchat.Chat.ParticipantHeap
import Mathlib.Data.List.Nodup

/-!
# The participants in memory are a list

`HeapNode.Holds h leader ps` says that the memory of `h` holds the list `ps` and the leader where
the pointer points to. Under it every function on memory agrees with the function on nodes: both
stop at the same fault, which is no use of freed memory, or both return, and then `HeapNode.Leaves`
holds: the memory again holds what the node has, and it is accounted for (`HeapNode.Accounted`).

* `HeapNode.Holds.agree_foreach` is the rule for the loops, and `HeapNode.agree_bind` the one for
  sequences.
* `HeapNode.Holds.agree_emptyList`: the only function that frees participants frees those of the
  list, each of them once, after the link out of it has been followed.
* `HeapNode.Holds.agree_leaderBroadcastMessage`: a participant that could not be reached is taken
  out of the list and is not freed.
* `HeapNode.Holds.agree_leaderReceiveMessage`, `HeapNode.Holds.agree_nonLeaderReceiveMessage`,
  `HeapNode.Holds.agree_recvStdin`, `HeapNode.Holds.agree_sendHeartbeat` and
  `HeapNode.Holds.agree_declareVictory` are the reactions of `chat`.
-/

namespace Dchat.Chat

open CString Stdio RMP Runs Encryption Queue

/-! ## The parts that touch no participant -/

theorem snprintf_ne_freed (capacity : ℕ) (size : ℤ) (c : Cursor) (piece : Bytes) :
    c.snprintf capacity size piece ≠ .error .freed := by
  unfold Cursor.snprintf
  dsimp only
  split_ifs <;> exact fun h => by cases h

theorem sscanf_ne_freed (ds : List Directive) (s : Bytes) : sscanf ds s ≠ .error .freed := by
  have hmap : ∀ {x : Except Fault Scan} (v : Value), x ≠ .error .freed →
      x.map (Scan.cons v) ≠ .error .freed := by
    intro x v hx
    cases x with
    | ok r => exact fun he => by cases he
    | error e => exact fun he => hx (congrArg _ (Except.error.inj he))
  fun_induction sscanf ds s
  all_goals first | assumption | exact hmap _ ‹_› | exact fun h => by cases h

/-! ## What the memory holds -/

/-- The fields of a participant but the links. -/
def Participant.record (p : Participant) : Record := ⟨p.nickname, p.ipAddress, p.portNum, p.isLeader⟩

/-- A participant as an element of the queue. -/
def Participant.cell (p : Participant) : Address × Record := (p.ptr, p.record)

@[simp] theorem map_cell_fst (ps : List Participant) :
    (ps.map Participant.cell).map Prod.fst = ps.map fun p => p.ptr := by
  rw [List.map_map]
  rfl

theorem first_map_cell (ps : List Participant) :
    first (ps.map Participant.cell) = ps.head?.map fun p => p.ptr := by
  cases ps <;> rfl

namespace HeapNode

/-- The globals, with what a reader finds in memory. -/
@[simps]
def view (h : HeapNode) (leader : Option Peer) (ps : List Participant) : Node where
  thisNickname := h.thisNickname
  isLeader := h.isLeader
  leader := leader
  participants := ps
  numParticipants := h.numParticipants
  nextPtr := h.nextPtr
  clockNum := h.clockNum
  inElection := h.inElection
  startedElection := h.startedElection
  sent := h.sent
  printed := h.printed

theorem print_view (h : HeapNode) (leader : Option Peer) (ps : List Participant) (line : Bytes) :
    (h.view leader ps).print line = (h.print line).view leader ps := rfl

/-- A participant lies at the address, in the list or not. -/
def Allocated (h : HeapNode) (a : Address) : Prop := h.participantsHead.payload a ≠ none

/-- The memory holds the list `ps`, and `leader` where the pointer points to. -/
structure Holds (h : HeapNode) (leader : Option Peer) (ps : List Participant) : Prop where
  queued : Queued h.participantsHead (ps.map Participant.cell)
  leader_eq : h.leader = leader.map Peer.ptr
  leader_payload : ∀ p, leader = some p →
    ∃ r, h.participantsHead.payload p.ptr = some r ∧ (r.participant p.ptr).toPeer = p
  lt_nextPtr : ∀ a : ℕ, h.Allocated a → a < h.nextPtr

/-- From `h` to `h'` the participants at the addresses `freed` were freed, and no other memory; what
was allocated since lies behind. -/
structure Accounted (h : HeapNode) (freed : List Address) (h' : HeapNode) : Prop where
  le : h.nextPtr ≤ h'.nextPtr
  allocated : ∀ a : ℕ, h'.Allocated a ↔
    h.Allocated a ∧ a ∉ freed ∨ h.nextPtr ≤ a ∧ a < h'.nextPtr

/-- The node `s` is what the memory of `h` holds. -/
def Represents (h : HeapNode) (s : Node) : Prop := ∃ leader ps, h.Holds leader ps ∧ s = h.view leader ps

/-- What a function leaves that was called in `h`. -/
def Leaves (h : HeapNode) (freed : List Address) (h' : HeapNode) (s' : Node) : Prop :=
  h'.Represents s' ∧ h.Accounted freed h'

theorem Accounted.trans {h h' h'' : HeapNode} {freed : List Address} (h₁ : h.Accounted freed h')
    (h₂ : h'.Accounted [] h'') : h.Accounted freed h'' where
  le := h₁.le.trans h₂.le
  allocated a := by
    have hle := h₁.le
    have hle' := h₂.le
    have ha := h₁.allocated a
    have ha' := h₂.allocated a
    simp only [List.not_mem_nil, not_false_eq_true, and_true] at ha'
    rw [ha', ha]
    constructor
    · rintro ((hold | hnew) | hnew)
      · exact .inl hold
      · exact .inr ⟨hnew.1, by omega⟩
      · exact .inr ⟨by omega, hnew.2⟩
    · rintro (hold | hnew)
      · exact .inl (.inl hold)
      · by_cases hlt : a < h'.nextPtr
        · exact .inl (.inr ⟨hnew.1, hlt⟩)
        · exact .inr ⟨by omega, hnew.2⟩

/-- A change of other globals. -/
theorem Accounted.of_eq {h h' : HeapNode} (hq : h'.participantsHead.payload = h.participantsHead.payload)
    (hn : h'.nextPtr = h.nextPtr) : h.Accounted [] h' where
  le := hn.ge
  allocated a := by
    have hnone : ¬ (h.nextPtr ≤ a ∧ a < h.nextPtr) := by omega
    rw [Allocated, Allocated, hq, hn, or_iff_left hnone]
    simp

theorem Accounted.refl (h : HeapNode) : h.Accounted [] h := .of_eq rfl rfl

theorem Leaves.trans {h h' h'' : HeapNode} {freed : List Address} {s' s'' : Node}
    (h₁ : h.Leaves freed h' s') (h₂ : h'.Leaves [] h'' s'') : h.Leaves freed h'' s'' :=
  ⟨h₂.1, h₁.2.trans h₂.2⟩

section Holding

variable {h h' : HeapNode} {leader : Option Peer} {ps before rest : List Participant}
  {p : Participant} {freed : List Address}

/-- Other globals may change. -/
theorem Holds.of_eq (hm : h.Holds leader ps) (hq : h'.participantsHead = h.participantsHead)
    (hl : h'.leader = h.leader) (hn : h'.nextPtr = h.nextPtr) : h'.Holds leader ps where
  queued := hq ▸ hm.queued
  leader_eq := hl ▸ hm.leader_eq
  leader_payload := hq ▸ hm.leader_payload
  lt_nextPtr a := by
    rw [Allocated, hq, hn]
    exact hm.lt_nextPtr a

theorem Holds.linked (hm : h.Holds leader ps) : (ps.map fun p => p.ptr).Nodup :=
  map_cell_fst ps ▸ hm.queued.nodup

/-- A pointer to a participant of the list. -/
theorem Holds.deref (hm : h.Holds leader ps) (hp : p ∈ ps) : h.deref (some p.ptr) = .ok p := by
  obtain ⟨e, he, hpayload⟩ := ListHead.payload_eq_some.1 (hm.queued.payload (List.mem_map_of_mem hp))
  rw [HeapNode.deref, ListHead.deref_some he, Fault.ok_bind, hpayload]
  rfl

/-- The pointer to the leader. -/
theorem Holds.deref_leader {peer : Peer} (hm : h.Holds (some peer) ps) :
    ∃ q, h.deref h.leader = .ok q ∧ q.toPeer = peer := by
  obtain ⟨r, hr, hpeer⟩ := hm.leader_payload peer rfl
  obtain ⟨e, he, rfl⟩ := ListHead.payload_eq_some.1 hr
  refine ⟨_, ?_, hpeer⟩
  rw [hm.leader_eq, Option.map_some, HeapNode.deref, ListHead.deref_some he]
  rfl

theorem Holds.deref_leader_none (hm : h.Holds none ps) : h.deref h.leader = .error .nullPointer := by
  rw [hm.leader_eq]
  rfl

theorem Holds.allocated (hm : h.Holds leader ps) (hp : p ∈ ps) : h.Allocated p.ptr := by
  rw [Allocated, hm.queued.payload (List.mem_map_of_mem hp)]
  exact Option.some_ne_none _

theorem Holds.subperm (hm : h.Holds leader ps) :
    (ps.map fun p => p.ptr).Subperm (List.range h.nextPtr) := by
  refine List.subperm_of_subset hm.linked fun a ha => ?_
  obtain ⟨p, hp, rfl⟩ := List.mem_map.1 ha
  exact List.mem_range.2 (hm.lt_nextPtr _ (hm.allocated hp))

/-- There are no more participants in the list than there ever were. -/
theorem Holds.length_le (hm : h.Holds leader ps) : ps.length ≤ h.nextPtr := by
  simpa using hm.subperm.length_le

/-- The link of a participant leads to the next one. -/
theorem Holds.next (hm : h.Holds leader (before ++ p :: rest)) :
    ∃ e, h.participantsHead.element p.ptr = some e ∧ e.leNext = rest.head?.map fun p => p.ptr := by
  have hq := hm.queued
  rw [List.map_append, List.map_cons] at hq
  exact ⟨_, hq.element, first_map_cell rest⟩

/-- **The loop rule** for the participants. -/
theorem Holds.agree_foreach (hm : h.Holds leader ps) {σ τ ρ : Type} {queue : σ → TailqHead Record}
    {body : Address → σ → Except Fault (ForInStep σ)} {g : List Participant → τ → Except Fault ρ}
    {I : List Participant → σ → τ → Prop} {P : σ → ρ → Prop}
    (hnil : ∀ s t, I [] s t → Fault.Agree P (.ok s) (g [] t))
    (hcons : ∀ p rest s t, I (p :: rest) s t →
      LoopTurn queue g (fun p : Participant => p.ptr) I P p rest (body p.ptr s) (g (p :: rest) t))
    {s : σ} {t : τ} (hI : I ps s t) : Fault.Agree P (h.foreach queue body s) (g ps t) := by
  have hlt : ps.length < h.nextPtr + 1 := Nat.lt_succ_of_le hm.length_le
  rw [foreach, hm.queued.lhFirst_eq, first_map_cell]
  exact agree_tailqForeach hnil hcons hI hlt

end Holding

/-! ## `model.c` -/

section Model

variable {h : HeapNode} {leader : Option Peer} {ps : List Participant}

/-- A function that is called after a change of other globals. -/
theorem agree_of_eq {h₀ : HeapNode} {freed : List Address} {x : Except Fault HeapNode}
    {y : Except Fault Node} (hx : Fault.Agree (h.Leaves freed) x y)
    (hq : h.participantsHead.payload = h₀.participantsHead.payload) (hn : h.nextPtr = h₀.nextPtr) :
    Fault.Agree (h₀.Leaves freed) x y := by
  refine hx.mono fun h' s' hs => ⟨hs.1, hn ▸ hs.2.le, fun a => ?_⟩
  have ha := hs.2.allocated a
  rwa [Allocated, hn, Allocated, hq] at ha

/-- **One function after the other.** -/
theorem agree_bind {freed : List Address} {x : Except Fault HeapNode} {y : Except Fault Node}
    {f : HeapNode → Except Fault HeapNode} {g : Node → Except Fault Node}
    (hx : Fault.Agree (h.Leaves freed) x y)
    (hf : ∀ {h₁ leader ps}, h₁.Holds leader ps →
      Fault.Agree (h₁.Leaves []) (f h₁) (g (h₁.view leader ps))) :
    Fault.Agree (h.Leaves freed) (x >>= f) (y >>= g) := by
  refine hx.bind ?_
  rintro h₁ - ⟨⟨leader₁, ps₁, hm₁, rfl⟩, ha₁⟩
  exact (hf hm₁).mono fun h₂ s₂ hs => ⟨hs.1, ha₁.trans hs.2⟩

/-- The end of a function, where at most other globals have changed. -/
theorem Holds.agree_ok (hm : h.Holds leader ps) {h' : HeapNode}
    (hq : h'.participantsHead = h.participantsHead) (hl : h'.leader = h.leader)
    (hn : h'.nextPtr = h.nextPtr) :
    Fault.Agree (h.Leaves []) (.ok h') (.ok (h'.view leader ps)) :=
  .ok ⟨⟨leader, ps, hm.of_eq hq hl hn, rfl⟩, .of_eq (hq ▸ rfl) hn⟩

/-- **`insert_participant`.** -/
theorem Holds.agree_insertParticipant (hm : h.Holds leader ps) (nickname ipAddress portNum : Bytes)
    (isLeader : Bool) : Fault.Agree (h.Leaves [])
      (h.insertParticipant nickname ipAddress portNum isLeader)
      ((h.view leader ps).insertParticipant nickname ipAddress portNum isLeader) := by
  have hfresh : h.participantsHead.element h.nextPtr = none := by
    by_contra hne
    exact absurd (hm.lt_nextPtr _ (mt ListHead.payload_eq_none.1 hne)) (lt_irrefl _)
  obtain ⟨q, hinsert, hq, hpayload⟩ :=
    queued_tailqInsertTail hm.queued hfresh ⟨nickname, ipAddress, portNum, isLeader⟩
  have hnew : ∀ a, q.payload a ≠ none ↔ h.Allocated a ∨ a = h.nextPtr := by
    intro a
    rw [hpayload, Allocated]
    by_cases ha : a = h.nextPtr <;> simp [ha]
  unfold HeapNode.insertParticipant Node.insertParticipant
  split
  · exact .error (by decide)
  dsimp only
  rw [hinsert, Fault.ok_bind]
  refine .ok ⟨⟨if isLeader then some ⟨h.nextPtr, nickname, ipAddress, portNum⟩ else leader,
    ps ++ [⟨⟨h.nextPtr, nickname, ipAddress, portNum⟩, isLeader⟩], ?_, rfl⟩, ?_⟩
  · refine ⟨by simpa [Participant.cell, Participant.record] using hq, ?_, ?_, ?_⟩
    · cases isLeader with
      | true => rfl
      | false => exact hm.leader_eq
    · intro p hp
      dsimp only
      rw [hpayload]
      cases isLeader with
      | true =>
        obtain rfl := Option.some.inj hp
        exact ⟨_, if_pos rfl, rfl⟩
      | false =>
        obtain ⟨r, hr, hpeer⟩ := hm.leader_payload p hp
        refine ⟨r, ?_, hpeer⟩
        have hlt : p.ptr < h.nextPtr := hm.lt_nextPtr _ (by simp [Allocated, hr])
        rw [if_neg (Nat.ne_of_lt hlt), hr]
    · intro a ha
      obtain ha | rfl := (hnew a).1 ha
      · exact Nat.lt_succ_of_lt (hm.lt_nextPtr a ha)
      · exact Nat.lt_succ_self _
  · refine ⟨Nat.le_succ _, fun a => ?_⟩
    rw [Allocated, hnew]
    dsimp only
    simp only [List.not_mem_nil, not_false_eq_true, and_true]
    constructor
    · rintro (ha | rfl)
      · exact .inl ha
      · exact .inr ⟨le_rfl, Nat.lt_succ_self _⟩
    · rintro (ha | ha)
      · exact .inl ha
      · exact .inr (Nat.le_antisymm (Nat.lt_succ_iff.1 ha.2) ha.1)

/-- **`contains_participant`.** -/
theorem Holds.agree_containsParticipant (hm : h.Holds leader ps) (nickname : Bytes) :
    Fault.Agree Eq (h.containsParticipant nickname)
      (.ok ((h.view leader ps).containsParticipant nickname)) := by
  refine hm.agree_foreach
    (g := fun bs (_ : Unit) => .ok (bs.any fun p => strcmp p.nickname nickname = 0))
    (I := fun bs found _ => found = false ∧ ∃ before, ps = before ++ bs) ?_ ?_ (t := ()) ⟨rfl, [], rfl⟩
  · rintro found - ⟨rfl, -⟩
    exact .ok rfl
  · rintro p rest found - ⟨rfl, before, rfl⟩
    rw [hm.deref (by simp), Fault.ok_bind, List.any_cons]
    by_cases hp : strcmp p.nickname nickname = 0
    · rw [if_pos hp, decide_eq_true hp]
      exact .leave rfl
    · rw [if_neg hp, decide_eq_false hp]
      obtain ⟨e, he, hnext⟩ := hm.next
      exact .next (t := ()) ⟨rfl, before ++ [p], by simp⟩ he hnext

/-- A turn of the loop that sets the leader. -/
theorem Holds.setLeaderTurn {before rest : List Participant} {p : Participant}
    (hm : h.Holds leader (before ++ p :: rest)) (test : Participant → Bool) :
    ∃ q, let h' := { h with
        leader := if test p then some p.ptr else h.leader
        participantsHead := q }
      h.setLeaderTurn test p.ptr = .ok (.yield h') ∧
      h'.Holds (if test p then some p.toPeer else leader)
        (before ++ { p with isLeader := test p } :: rest) ∧ h.Accounted [] h' := by
  have hq := hm.queued
  rw [List.map_append, List.map_cons] at hq
  obtain ⟨q, hwrite, hq', hpayload⟩ := queued_write hq fun r => { r with isLeader := test p }
  have hsame : ∀ a, q.payload a ≠ none ↔ h.Allocated a := by
    intro a
    rw [hpayload, Allocated]
    by_cases ha : a = p.ptr
    · rw [if_pos ha, ha]
      exact iff_of_true (Option.some_ne_none _) (hm.allocated (by simp))
    · rw [if_neg ha]
  refine ⟨q, ?_, ⟨by simpa [Participant.cell, Participant.record] using hq', ?_, ?_, ?_⟩, ?_⟩
  · rw [HeapNode.setLeaderTurn, hm.deref (by simp), Fault.ok_bind, hwrite]
    rfl
  · dsimp only
    rw [hm.leader_eq]
    split <;> rfl
  · intro l hl
    have hp := hm.queued.payload (List.mem_map_of_mem (List.mem_append_right before List.mem_cons_self))
    obtain ⟨r, hr, hpeer⟩ : ∃ r, h.participantsHead.payload l.ptr = some r ∧
        (r.participant l.ptr).toPeer = l := by
      split at hl
      · obtain rfl := Option.some.inj hl
        exact ⟨_, hp, rfl⟩
      · exact hm.leader_payload l hl
    dsimp only
    rw [hpayload]
    by_cases hlp : l.ptr = p.ptr
    · obtain rfl : p.record = r := by
        rw [hlp] at hr
        exact Option.some.inj (hp.symm.trans hr)
      exact ⟨_, if_pos hlp, hpeer⟩
    · exact ⟨r, by rw [if_neg hlp, hr], hpeer⟩
  · exact fun a ha => hm.lt_nextPtr a ((hsame a).1 ha)
  · refine ⟨le_rfl, fun a => ?_⟩
    have hnone : ¬ (h.nextPtr ≤ a ∧ a < h.nextPtr) := by omega
    rw [Allocated, hsame, or_iff_left hnone]
    simp

/-- **`set_leader_by_addr` and `set_leader_by_nickname`.** -/
theorem Holds.agree_setLeaderBy (hm : h.Holds leader ps) (test : Participant → Bool) :
    Fault.Agree (h.Leaves []) (h.setLeaderBy test) (.ok ((h.view leader ps).setLeaderBy test)) := by
  have hinit : ∃ before : List Participant, ps = before ++ ps ∧
      ∃ q l, h = { h with leader := l, participantsHead := q } ∧
      h.Holds (((before.filter test).getLast?.map Participant.toPeer).or leader)
        (before.map (fun p => { p with isLeader := test p }) ++ ps) ∧ h.Accounted [] h :=
    ⟨[], rfl, _, _, rfl, hm, .refl h⟩
  refine hm.agree_foreach (g := fun _ (_ : Unit) => .ok ((h.view leader ps).setLeaderBy test))
    (I := fun rest h' _ => ∃ before, ps = before ++ rest ∧
      ∃ q l, h' = { h with leader := l, participantsHead := q } ∧
        h'.Holds (((before.filter test).getLast?.map Participant.toPeer).or leader)
          (before.map (fun p => { p with isLeader := test p }) ++ rest) ∧ h.Accounted [] h')
    ?_ ?_ (t := ()) hinit
  · rintro h' - ⟨before, rfl, q, l, rfl, hm', ha⟩
    rw [List.append_nil] at hm' ⊢
    exact .ok ⟨⟨_, _, hm', rfl⟩, ha⟩
  · rintro p rest h' - ⟨before, rfl, q, l, rfl, hm', ha⟩
    obtain ⟨q', hturn, hm'', ha'⟩ := hm'.setLeaderTurn test
    rw [hturn]
    obtain ⟨e, he, hnext⟩ := hm''.next
    refine .next (t := ()) ⟨before ++ [p], by simp, q', _, rfl, ?_, ha.trans ha'⟩ he hnext
    rw [List.filter_append, List.map_append, List.append_assoc]
    cases hp : test p <;> simpa [hp] using hm''

/-- What the loop of `empty_list` has done before `rest`: those of `freed` are freed, and the
participant before is unlinked but not freed. -/
structure Emptying (h : HeapNode) (ps rest : List Participant) (s : HeapNode × Option Address) :
    Prop where
  same : ∃ q, s.1 = { h with participantsHead := q }
  queued : Queued s.1.participantsHead (rest.map Participant.cell)
  split : ∃ freed, (ps.map fun p => p.ptr) = freed ++ s.2.toList ++ rest.map (fun p => p.ptr) ∧
    ∀ a, s.1.participantsHead.payload a = if a ∈ freed then none else h.participantsHead.payload a

/-- The participant before is freed. -/
theorem Emptying.freePrev {rest : List Participant} {s : HeapNode × Option Address}
    (hm : h.Holds leader ps) (hs : Emptying h ps rest s) :
    ∃ q, s.1.freePrev s.2 = .ok { h with participantsHead := q } ∧
      Queued q (rest.map Participant.cell) ∧ ∃ freed, (ps.map fun p => p.ptr) =
        freed ++ rest.map (fun p => p.ptr) ∧
      ∀ a, q.payload a = if a ∈ freed then none else h.participantsHead.payload a := by
  obtain ⟨h', prevP⟩ := s
  obtain ⟨⟨q, rfl⟩, hq, freed, hsplit, hpayload⟩ := hs
  dsimp only at hq hpayload hsplit
  cases prevP with
  | none => exact ⟨q, rfl, hq, freed, by simpa using hsplit, hpayload⟩
  | some a =>
    have hnodup := hsplit ▸ hm.linked
    simp only [Option.toList_some, List.append_assoc, List.singleton_append, List.nodup_append,
      List.nodup_cons] at hnodup
    obtain ⟨-, ⟨hrest, -⟩, hdisjoint⟩ := hnodup
    have hfreed : a ∉ freed := fun hmem => hdisjoint a hmem a (by simp) rfl
    obtain ⟨p, hp, rfl⟩ : ∃ p ∈ ps, p.ptr = a := by
      rw [← List.mem_map, hsplit]
      simp
    have hlive : q.element p.ptr ≠ none := by
      rw [ne_eq, ← ListHead.payload_eq_none, hpayload, if_neg hfreed]
      exact hm.allocated hp
    obtain ⟨q', hfree, hq', hpayload'⟩ := queued_free hq (map_cell_fst rest ▸ hrest) hlive
    refine ⟨q', ?_, hq', freed ++ [p.ptr], by simpa using hsplit, fun b => ?_⟩
    · rw [HeapNode.freePrev, freeParticipant, hfree]
      rfl
    · rw [hpayload', hpayload]
      by_cases hb : b = p.ptr <;> simp [hb]

/-- **`empty_list`** frees the participants of the list, and each of them once. -/
theorem Holds.agree_emptyList (hm : h.Holds leader ps) :
    Fault.Agree (h.Leaves (ps.map fun p => p.ptr)) h.emptyList
      (.ok (h.view leader ps).emptyList) := by
  have hloop : Fault.Agree (fun s (_ : Unit) => Emptying h ps [] s)
      (h.foreach (fun s => s.1.participantsHead) emptyTurn (h, none)) (.ok ()) := by
    refine hm.agree_foreach (g := fun _ (_ : Unit) => .ok ()) (I := fun rest s _ => Emptying h ps rest s)
      (fun s _ hs => .ok hs) ?_ (t := ()) ⟨⟨_, rfl⟩, hm.queued, [], rfl, fun a => by simp⟩
    rintro p rest s - hs
    obtain ⟨q, hfree, hq, freed, hsplit, hpayload⟩ := hs.freePrev hm
    have hq₁ : Queued q ([] ++ p.cell :: rest.map Participant.cell) := hq
    obtain ⟨q', hremove, hq', helement, hpayload'⟩ := queued_tailqRemove hq₁
    have hturn : emptyTurn p.ptr s = .ok (.yield ({ h with participantsHead := q' }, some p.ptr)) := by
      rw [emptyTurn, hfree, Fault.ok_bind, HeapNode.tailqRemove, hremove]
      rfl
    rw [hturn]
    refine .next (t := ()) ⟨⟨q', rfl⟩, hq', freed, by simpa using hsplit, fun a => ?_⟩
      (helement.trans hq₁.element) (first_map_cell rest)
    dsimp only
    rw [hpayload', hpayload]
  obtain ⟨⟨h', prevP⟩, hs, hdone⟩ := hloop.exists_ok
  obtain ⟨q, hfree, hq, freed, hsplit, hpayload⟩ := hdone.freePrev hm
  obtain rfl : freed = ps.map fun p => p.ptr := by simpa using hsplit.symm
  have hallocated : ∀ a, q.payload a ≠ none ↔ h.Allocated a ∧ a ∉ ps.map fun p => p.ptr := by
    intro a
    rw [hpayload, Allocated]
    by_cases ha : a ∈ ps.map fun p => p.ptr <;> simp [ha]
  rw [HeapNode.emptyList, hs, Fault.ok_bind]
  dsimp only at hfree ⊢
  rw [hfree]
  refine .ok ⟨⟨none, [], ⟨hq, rfl, nofun, fun a ha => ?_⟩, rfl⟩, le_rfl, fun a => ?_⟩
  · exact hm.lt_nextPtr a ((hallocated a).1 ha).1
  · have hnone : ¬ (h.nextPtr ≤ a ∧ a < h.nextPtr) := by omega
    rw [Allocated, hallocated, or_iff_left hnone]

end Model

/-! ## `leader.c` -/

section Leader

variable {h : HeapNode} {leader : Option Peer} {ps : List Participant}

/-- **`generate_participant_update`.** -/
theorem Holds.agree_generateParticipantUpdate (hm : h.Holds leader ps) (buffLen : ℕ)
    (joinLeaveMessage : Bytes) : Fault.Agree Eq (h.generateParticipantUpdate buffLen joinLeaveMessage)
      (Chat.generateParticipantUpdate (h.view leader ps) buffLen joinLeaveMessage) := by
  have hsnprintf : ∀ (c : Cursor) (piece : Bytes), Fault.Agree Eq
      (c.snprintf buffLen buffLen piece) (c.snprintf buffLen buffLen piece) :=
    fun c piece => Fault.agree_self (snprintf_ne_freed _ _ _ _)
  have hloop : ∀ c, Fault.Agree Eq
      (h.foreach (fun _ => h.participantsHead) (h.writeTurn buffLen) c)
      (writeParticipants buffLen ps c) := by
    intro c
    refine hm.agree_foreach (I := fun rest c c' => c = c' ∧ ∃ before, ps = before ++ rest) ?_ ?_
      ⟨rfl, [], rfl⟩
    · rintro c - ⟨rfl, -⟩
      exact .ok rfl
    · rintro p rest c - ⟨rfl, before, rfl⟩
      obtain ⟨e, he, hnext⟩ := hm.next
      rw [writeTurn, hm.deref (by simp), Fault.ok_bind, writeParticipants]
      split
      · exact .next ⟨rfl, before ++ [p], by simp⟩ he hnext
      · cases hc : c.snprintf buffLen buffLen (entryText p.toPeer) with
        | error e => exact .fault fun hf => snprintf_ne_freed _ _ _ _ (hc.trans (congrArg _ hf))
        | ok c' => exact .next ⟨rfl, before ++ [p], by simp⟩ he hnext
  cases leader with
  | none =>
    rw [HeapNode.generateParticipantUpdate, hm.deref_leader_none]
    exact .error (by decide)
  | some peer =>
    obtain ⟨q, hq, rfl⟩ := hm.deref_leader
    rw [HeapNode.generateParticipantUpdate, hq, Fault.ok_bind]
    refine (hsnprintf _ _).bind ?_
    rintro c - rfl
    refine (hloop c).bind ?_
    rintro c - rfl
    refine (hsnprintf _ _).bind ?_
    rintro c - rfl
    exact .ok rfl

/-- Sending changes no participant. -/
theorem Holds.rmpSendTo (hm : h.Holds leader ps) (env : Env) (dst : RmpAddress) (message : Bytes) :
    (h.rmpSendTo env dst message).2.Holds leader ps := hm.of_eq rfl rfl rfl

theorem Holds.print (hm : h.Holds leader ps) (line : Bytes) : (h.print line).Holds leader ps :=
  hm.of_eq rfl rfl rfl

theorem accounted_print (h : HeapNode) (line : Bytes) : h.Accounted [] (h.print line) := .of_eq rfl rfl

theorem accounted_rmpSendTo (h : HeapNode) (env : Env) (dst : RmpAddress) (message : Bytes) :
    h.Accounted [] (h.rmpSendTo env dst message).2 := .of_eq rfl rfl

/-- `TAILQ_REMOVE` in a loop over the list. -/
theorem Holds.tailqRemove {before rest : List Participant} {p : Participant}
    (hm : h.Holds leader (before ++ p :: rest)) :
    ∃ q e, h.tailqRemove p.ptr = .ok { h with participantsHead := q } ∧
      HeapNode.Holds { h with participantsHead := q } leader (before ++ rest) ∧
      h.Accounted [] { h with participantsHead := q } ∧
      q.element p.ptr = some e ∧ e.leNext = rest.head?.map fun p => p.ptr := by
  have hq := hm.queued
  rw [List.map_append, List.map_cons] at hq
  obtain ⟨q, hremove, hq', helement, hpayload⟩ := queued_tailqRemove hq
  refine ⟨q, _, by rw [HeapNode.tailqRemove, hremove]; rfl, ⟨?_, hm.leader_eq, ?_, ?_⟩,
    .of_eq hpayload rfl, helement.trans hq.element, first_map_cell rest⟩
  · rw [List.map_append]
    exact hq'
  · rw [hpayload]
    exact hm.leader_payload
  · intro a
    rw [Allocated, hpayload]
    exact hm.lt_nextPtr a

/-- The participant is the only one at its address. -/
theorem Holds.filter_ptr {before rest : List Participant} {p : Participant}
    (hm : h.Holds leader (before ++ p :: rest)) :
    (before ++ p :: rest).filter (fun q => q.ptr ≠ p.ptr) = before ++ rest := by
  have hnodup := hm.linked
  simp only [List.map_append, List.map_cons, List.nodup_append, List.nodup_cons, List.mem_map,
    List.mem_cons] at hnodup
  obtain ⟨-, ⟨hrest, -⟩, hdisjoint⟩ := hnodup
  rw [List.filter_append, List.filter_cons, if_neg (by simp)]
  congr 1
  · exact List.filter_eq_self.2 fun q hq =>
      decide_eq_true (hdisjoint q.ptr ⟨q, hq, rfl⟩ p.ptr (.inl rfl))
  · exact List.filter_eq_self.2 fun q hq => decide_eq_true fun he => hrest ⟨q, hq, he⟩

/-- While `prev_p` is null nothing is freed. -/
theorem freeRemoved_none (l : Broadcasting) : l.freeRemoved none = .ok l.node := by
  unfold Broadcasting.freeRemoved
  split <;> rfl

/-- **The loop of `leader_broadcast_message`.** -/
theorem Holds.agree_broadcastLoop (hm : h.Holds leader ps) (env : Env) (message : Bytes) :
    Fault.Agree (fun l r => l.departures = r.1 ∧ h.Leaves [] l.node r.2)
      (h.foreach (fun l => l.node.participantsHead) (broadcastTurn env message none)
        ⟨h, false, ⟨false, .empty⟩⟩)
      (broadcastLoop env message ps ⟨false, .empty⟩ (h.view leader ps)) := by
  refine hm.agree_foreach
    (g := fun rest (r : Departures × Node) => broadcastLoop env message rest r.1 r.2)
    (I := fun rest l r => l.departures = r.1 ∧ ∃ before, l.node.Holds leader (before ++ rest) ∧
      r.2 = l.node.view leader (before ++ rest) ∧ h.Accounted [] l.node) ?_ ?_
    (t := (⟨false, .empty⟩, h.view leader ps)) ⟨rfl, [], hm, rfl, .refl h⟩
  · rintro ⟨h', removeNext, d⟩ ⟨-, -⟩ ⟨rfl, before, hm', rfl, ha⟩
    exact .ok ⟨rfl, ⟨_, _, hm', rfl⟩, ha⟩
  · rintro p rest ⟨h', removeNext, d⟩ ⟨-, -⟩ ⟨rfl, before, hm', rfl, ha⟩
    dsimp only at hm' ha ⊢
    have hcons : before ++ p :: rest = before ++ [p] ++ rest := by simp
    rw [broadcastTurn, freeRemoved_none, Fault.ok_bind, hm'.deref (by simp), Fault.ok_bind,
      broadcastLoop]
    obtain ⟨e, he, hnext⟩ := hm'.next
    split
    · exact .next (t := (_, _)) ⟨rfl, before ++ [p], hcons ▸ hm', hcons ▸ rfl, ha⟩ he hnext
    cases haddr : env.getAddressFor p.ipAddress p.portNum with
    | none => exact .fault (by decide)
    | some addr =>
      have hm₁ := hm'.rmpSendTo env addr message
      have ha₁ := ha.trans (h'.accounted_rmpSendTo env addr message)
      dsimp only
      have hstatus : ((h'.view leader (before ++ p :: rest)).rmpSendTo env addr message).1 =
        (h'.rmpSendTo env addr message).1 := rfl
      rw [hstatus]
      split
      · cases hc : d.updateBuff.snprintf maxBufferLen (maxBufferLen - d.updateBuff.pos)
            (p.nickname ++ str ", ") with
        | error e => exact .fault fun hf => snprintf_ne_freed _ _ _ _ (hc.trans (congrArg _ hf))
        | ok c =>
          obtain ⟨q, e', hremove, hm₂, ha₂, he', hnext'⟩ := hm₁.tailqRemove
          rw [Fault.ok_bind, Fault.ok_bind, hremove, Fault.ok_bind]
          refine .next (t := (_, _)) ⟨rfl, before, hm₂.of_eq rfl rfl rfl, ?_,
            (ha₁.trans ha₂).trans (.of_eq rfl rfl)⟩ he' hnext'
          dsimp only [Node.decrNumParticipants, Node.tailqRemove, Node.rmpSendTo, view]
          rw [hm'.filter_ptr]
          rfl
      · exact .next (t := (_, _)) ⟨rfl, before ++ [p], hcons ▸ hm₁, hcons ▸ rfl, ha₁⟩ he hnext

/-- The depth of the recursion does not matter once it exceeds the length of the list. -/
theorem leaderBroadcastMessageFuel_eq {env : Env} {s : Node} (hs : Linked s) (message : Bytes)
    {fuel fuel' : ℕ} (hfuel : s.participants.length < fuel) (hfuel' : s.participants.length < fuel') :
    Chat.leaderBroadcastMessageFuel env fuel s message =
      Chat.leaderBroadcastMessageFuel env fuel' s message := by
  induction fuel generalizing s message fuel' with
  | zero => omega
  | succ fuel ih =>
    obtain ⟨fuel', rfl⟩ : ∃ k, fuel' = k + 1 := ⟨fuel' - 1, by omega⟩
    rw [Chat.leaderBroadcastMessageFuel, Chat.leaderBroadcastMessageFuel]
    cases hloop : broadcastLoop env message s.participants ⟨false, .empty⟩ s with
    | error e => rfl
    | ok r =>
      obtain ⟨d, s₁⟩ := r
      obtain ⟨t, hpass, hneed, -⟩ := passed_of_broadcastLoop hloop
      rw [Fault.ok_bind, Fault.ok_bind]
      dsimp only
      split
      · next hd =>
        have hlost : lost t ≠ [] := by
          rintro hnil
          simp [hd, hnil] at hneed
        have hlt := hpass.length_lt hs hlost
        have hrec : ∀ update, Chat.leaderBroadcastMessageFuel env fuel s₁ update =
            Chat.leaderBroadcastMessageFuel env fuel' s₁ update :=
          fun update => ih (hs.sublist hpass.sublist) update (by omega) (by omega)
        simp only [hrec]
      · rfl

theorem Holds.agree_leaderBroadcastMessageFuel (hm : h.Holds leader ps) (env : Env) (fuel : ℕ)
    (message : Bytes) : Fault.Agree (h.Leaves [])
      (HeapNode.leaderBroadcastMessageFuel env fuel h message)
      (Chat.leaderBroadcastMessageFuel env fuel (h.view leader ps) message) := by
  induction fuel generalizing h leader ps message with
  | zero => exact .error (by decide)
  | succ fuel ih =>
    rw [HeapNode.leaderBroadcastMessageFuel, Chat.leaderBroadcastMessageFuel]
    refine (hm.agree_broadcastLoop env message).bind ?_
    rintro ⟨h₁, removeNext, d⟩ ⟨-, -⟩ ⟨rfl, ⟨leader₁, ps₁, hm₁, rfl⟩, ha₁⟩
    rw [freeRemoved_none, Fault.ok_bind]
    dsimp only
    split
    · split
      · exact .error (by decide)
      refine (hm₁.agree_generateParticipantUpdate _ _).bind ?_
      rintro update - rfl
      refine Fault.Agree.mono (P := h₁.Leaves []) ?_ fun h₂ s₂ hs => ⟨hs.1, ha₁.trans hs.2⟩
      exact agree_bind (ih hm₁ update) fun hm₂ => hm₂.agree_ok rfl rfl rfl
    · exact .ok ⟨⟨_, _, hm₁, rfl⟩, ha₁⟩

/-- **`leader_broadcast_message`.** A participant that could not be reached is taken out of the list
and never freed. -/
theorem Holds.agree_leaderBroadcastMessage (hm : h.Holds leader ps) (env : Env) (message : Bytes) :
    Fault.Agree (h.Leaves []) (h.leaderBroadcastMessage env message)
      (Chat.leaderBroadcastMessage env (h.view leader ps) message) := by
  have hfuel : ps.length < h.nextPtr + 1 := Nat.lt_succ_of_le hm.length_le
  rw [HeapNode.leaderBroadcastMessage, Chat.leaderBroadcastMessage,
    leaderBroadcastMessageFuel_eq (s := h.view leader ps) hm.linked message (Nat.lt_succ_self _) hfuel]
  exact hm.agree_leaderBroadcastMessageFuel env _ message

end Leader

/-! ## Elections -/

section Elections

variable {h : HeapNode} {leader : Option Peer} {ps : List Participant}

/-- **`nonleader_broadcast_message`.** -/
theorem Holds.agree_nonleaderBroadcastMessage (hm : h.Holds leader ps) (env : Env) (message : Bytes) :
    Fault.Agree (h.Leaves []) (h.nonleaderBroadcastMessage env message)
      (Chat.nonleaderBroadcastMessage env (h.view leader ps) message) := by
  refine hm.agree_foreach (g := nonleaderLoop env message)
    (I := fun rest h' s => ∃ before, ps = before ++ rest ∧ h'.Holds leader ps ∧
      s = h'.view leader ps ∧ h.Accounted [] h') ?_ ?_ (t := h.view leader ps) ⟨[], rfl, hm, rfl, .refl h⟩
  · rintro h' - ⟨before, -, hm', rfl, ha⟩
    exact .ok ⟨⟨_, _, hm', rfl⟩, ha⟩
  · rintro p rest h' - ⟨before, rfl, hm', rfl, ha⟩
    have hcons : before ++ p :: rest = before ++ [p] ++ rest := by simp
    obtain ⟨e, he, hnext⟩ := hm'.next
    rw [nonleaderTurn, hm'.deref (by simp), Fault.ok_bind, nonleaderLoop, view_thisNickname]
    by_cases hown : strcmp h'.thisNickname p.nickname = 0
    · rw [if_pos hown, if_pos hown]
      exact .next ⟨before ++ [p], hcons, hm', rfl, ha⟩ he hnext
    · rw [if_neg hown, if_neg hown]
      cases env.getAddressFor p.ipAddress p.portNum with
      | none => exact .fault (by decide)
      | some addr =>
        exact .next ⟨before ++ [p], hcons, hm'.rmpSendTo _ _ _, rfl,
          ha.trans (h'.accounted_rmpSendTo _ _ _)⟩ he hnext

/-- **`start_election`.** -/
theorem Holds.agree_startElection (hm : h.Holds leader ps) (env : Env) :
    Fault.Agree (h.Leaves []) (h.startElection env) (Chat.startElection env (h.view leader ps)) :=
  agree_bind (hm.agree_nonleaderBroadcastMessage env messageStartElection)
    fun hm₁ => hm₁.agree_ok rfl rfl rfl

/-- **`respond_to_leader_election`.** -/
theorem Holds.agree_respondToLeaderElection (hm : h.Holds leader ps) (env : Env) (locals : Locals)
    (recvAddr : RmpAddress) : Fault.Agree (h.Leaves [])
      (h.respondToLeaderElection env locals recvAddr)
      (Chat.respondToLeaderElection env locals (h.view leader ps) recvAddr) := by
  have hloop : Fault.Agree (fun r (sender : Option Bytes) => r.2 = sender)
      (h.foreach (fun _ => h.participantsHead) (senderTurn env h recvAddr) (locals.address, none))
      (.ok (findSender env recvAddr locals.address ps)) := by
    refine hm.agree_foreach (g := fun rest before => .ok (findSender env recvAddr before rest))
      (I := fun rest r before => r = (before, none) ∧ ∃ visited, ps = visited ++ rest) ?_ ?_
      (t := locals.address) ⟨rfl, [], rfl⟩
    · rintro - before ⟨rfl, -⟩
      exact .ok rfl
    · rintro p rest - before ⟨rfl, visited, rfl⟩
      obtain ⟨e, he, hnext⟩ := hm.next
      rw [senderTurn, hm.deref (by simp), Fault.ok_bind, findSender]
      dsimp only
      split
      · exact .leave rfl
      · exact .next (t := (env.getAddressFor p.ipAddress p.portNum).getD before)
          ⟨rfl, visited ++ [p], by simp⟩ he hnext
  obtain ⟨⟨addr, sender⟩, hfound, hsender⟩ := hloop.exists_ok
  dsimp only at hsender
  rw [HeapNode.respondToLeaderElection, Chat.respondToLeaderElection, hfound, Fault.ok_bind,
    view_participants, ← hsender, view_thisNickname]
  cases sender with
  | none => exact .error (by decide)
  | some nickname =>
    dsimp only
    split
    · exact agree_of_eq ((hm.rmpSendTo env recvAddr messageStopElection).agree_startElection env) rfl rfl
    · exact hm.agree_ok rfl rfl rfl

/-- **`set_new_leader`.** -/
theorem Holds.agree_setNewLeader (hm : h.Holds leader ps) (recvAddr : RmpAddress) :
    Fault.Agree (h.Leaves []) (h.setNewLeader recvAddr)
      (.ok (Chat.setNewLeader (h.view leader ps) recvAddr)) := by
  have hm' : HeapNode.Holds { h with inElection := false, startedElection := false } leader ps :=
    hm.of_eq rfl rfl rfl
  refine agree_of_eq (agree_bind (g := fun s => .ok { s with isLeader := false })
    (hm'.agree_setLeaderBy _) fun hm₁ => hm₁.agree_ok rfl rfl rfl) rfl rfl

/-- **`declare_victory`.** -/
theorem Holds.agree_declareVictory (hm : h.Holds leader ps) (env : Env) :
    Fault.Agree (h.Leaves []) (h.declareVictory env)
      (Chat.declareVictory env (h.view leader ps)) := by
  have hm' : HeapNode.Holds { h with inElection := false, startedElection := false } leader ps :=
    hm.of_eq rfl rfl rfl
  refine agree_of_eq (h := { h with inElection := false, startedElection := false }) ?_ rfl rfl
  refine agree_bind (g := fun s => do
    let s ← Chat.leaderBroadcastMessage env { s with isLeader := true } messageElectionVictory
    let victory := snprintf 1024 (victoryMessage s.thisNickname)
    let updateCommand ← Chat.generateParticipantUpdate s maxBufferLen victory
    let s ← Chat.leaderBroadcastMessage env s updateCommand
    let s := s.print victory
    .ok (if s.numParticipants = 1 then s.print (str "Waiting for others to join...") else s))
    (hm'.agree_setLeaderBy _) fun {h₁ leader₁ ps₁} hm₁ => ?_
  have hm₁' : HeapNode.Holds { h₁ with isLeader := true } leader₁ ps₁ := hm₁.of_eq rfl rfl rfl
  refine agree_of_eq (agree_bind (hm₁'.agree_leaderBroadcastMessage env messageElectionVictory)
    fun {h₂ leader₂ ps₂} hm₂ => ?_) rfl rfl
  refine (hm₂.agree_generateParticipantUpdate _ _).bind ?_
  rintro update - rfl
  refine agree_bind (hm₂.agree_leaderBroadcastMessage env update) fun {h₃ leader₃ ps₃} hm₃ => ?_
  dsimp only
  rw [view_thisNickname, print_view, view_numParticipants]
  split <;> exact hm₃.agree_ok rfl rfl rfl

/-- **`get_leader_addr`.** -/
theorem Holds.agree_getLeaderAddr (hm : h.Holds leader ps) (env : Env) (locals : Locals) :
    Fault.Agree Eq (h.getLeaderAddr env locals) (Chat.getLeaderAddr env locals (h.view leader ps)) := by
  cases leader with
  | none =>
    rw [HeapNode.getLeaderAddr, hm.deref_leader_none]
    exact .error (by decide)
  | some peer =>
    obtain ⟨q, hq, rfl⟩ := hm.deref_leader
    rw [HeapNode.getLeaderAddr, hq]
    exact .ok rfl

/-- A message to the leader, and an election if it times out. -/
theorem Holds.agree_askLeader (hm : h.Holds leader ps) (env : Env) (locals : Locals) (message : Bytes) :
    Fault.Agree (h.Leaves [])
      (do
        let leaderAddr ← h.getLeaderAddr env locals
        let (status, h) := h.rmpSendTo env leaderAddr message
        if status = rmpETimeout then h.startElection env
        else if status < 0 then .error .exit
        else .ok h)
      (do
        let leaderAddr ← Chat.getLeaderAddr env locals (h.view leader ps)
        let (status, s) := (h.view leader ps).rmpSendTo env leaderAddr message
        if status = rmpETimeout then Chat.startElection env s
        else if status < 0 then .error .exit
        else .ok s) := by
  refine (hm.agree_getLeaderAddr env locals).bind ?_
  rintro addr - rfl
  have hm₁ := hm.rmpSendTo env addr message
  have hstatus : ((h.view leader ps).rmpSendTo env addr message).1 =
    (h.rmpSendTo env addr message).1 := rfl
  dsimp only
  rw [hstatus]
  split
  · exact agree_of_eq (hm₁.agree_startElection env) rfl rfl
  · split
    · exact .error (by decide)
    · exact hm.agree_ok rfl rfl rfl

/-- **`send_heartbeat`.** -/
theorem Holds.agree_sendHeartbeat (hm : h.Holds leader ps) (env : Env) (locals : Locals) :
    Fault.Agree (h.Leaves []) (h.sendHeartbeat env locals)
      (Chat.sendHeartbeat env locals (h.view leader ps)) := by
  rw [HeapNode.sendHeartbeat, Chat.sendHeartbeat, view_isLeader]
  split
  · exact hm.agree_leaderBroadcastMessage env messageHeartbeat
  · exact hm.agree_askLeader env locals messageHeartbeat

end Elections

/-! ## Receiving -/

section Receiving

variable {h : HeapNode} {leader : Option Peer} {ps : List Participant}

theorem Holds.agree_scanParticipants (hm : h.Holds leader ps) (joining : Bool) (fuel : ℕ)
    (currPos : Bytes) (isFirst : Bool) :
    Fault.Agree (fun r r' => r.2 = r'.2 ∧ h.Leaves [] r.1 r'.1)
      (HeapNode.scanParticipants joining fuel h currPos isFirst)
      (Chat.scanParticipants joining fuel (h.view leader ps) currPos isFirst) := by
  induction fuel generalizing h leader ps currPos isFirst with
  | zero => exact .error (by decide)
  | succ fuel ih =>
    rw [HeapNode.scanParticipants, Chat.scanParticipants]
    split
    · exact .ok ⟨rfl, ⟨_, _, hm, rfl⟩, .refl h⟩
    refine (Fault.agree_self (sscanf_ne_freed _ _)).bind ?_
    rintro r - rfl
    split
    · exact .error (by decide)
    split
    · exact .error (by decide)
    refine (hm.agree_insertParticipant _ _ _ isFirst).bind ?_
    rintro h₁ - ⟨⟨leader₁, ps₁, hm₁, rfl⟩, ha₁⟩
    cases joining with
    | false => exact (ih hm₁ _ _).mono fun r r' hr => ⟨hr.1, hr.2.1, ha₁.trans hr.2.2⟩
    | true =>
      exact (ih (hm₁.print _) _ _).mono fun r r' hr =>
        ⟨hr.1, hr.2.1, (ha₁.trans (h₁.accounted_print _)).trans hr.2.2⟩

/-- **`process_participant_update`** frees the participants of the list. -/
theorem Holds.agree_processParticipantUpdate (hm : h.Holds leader ps) (command : Bytes)
    (joining : Bool) : Fault.Agree (h.Leaves (ps.map fun p => p.ptr))
      (h.processParticipantUpdate command joining)
      (Chat.processParticipantUpdate (h.view leader ps) command joining) := by
  obtain ⟨h₁, hempty, ⟨leader₁, ps₁, hm₁, hview⟩, ha₁⟩ := hm.agree_emptyList.exists_ok
  rw [HeapNode.processParticipantUpdate, Chat.processParticipantUpdate, hempty, Fault.ok_bind]
  dsimp only
  rw [hview]
  refine Fault.Agree.mono (P := h₁.Leaves []) ?_ fun h₂ s₂ hs => ⟨hs.1, ha₁.trans hs.2⟩
  cases strchr command 64 with
  | none => exact .error (by decide)
  | some found =>
    refine (hm₁.agree_scanParticipants joining _ _ true).bind ?_
    rintro ⟨h₂, currPos⟩ ⟨-, -⟩ ⟨rfl, ⟨leader₂, ps₂, hm₂, rfl⟩, ha₂⟩
    dsimp only
    split
    · refine Fault.Agree.mono (P := h₂.Leaves []) ?_ fun h₃ s₃ hs => ⟨hs.1, ha₂.trans hs.2⟩
      cases joining with
      | false => exact hm₂.agree_ok rfl rfl rfl
      | true => exact hm₂.agree_ok rfl rfl rfl
    · exact .error (by decide)

/-- `incr_clock` changes no participant. -/
theorem agree_incrClock (h : HeapNode) (leader : Option Peer) (ps : List Participant) :
    Fault.Agree (fun r r' => r.1 = r'.1 ∧ ∃ clock, r.2 = { h with clockNum := clock } ∧
        r'.2 = { h with clockNum := clock }.view leader ps)
      h.incrClock (Chat.incrClock (h.view leader ps)) := by
  rw [HeapNode.incrClock, Chat.incrClock, view_clockNum]
  split
  · exact .error (by decide)
  · exact .ok ⟨rfl, _, rfl, rfl⟩

theorem scanCommand_ne_freed (locals : Locals) (buf : Bytes) :
    scanCommand locals buf ≠ .error .freed := by
  refine Fault.bind_ne_error (sscanf_ne_freed _ _) fun r => ?_
  split <;> exact fun h => by cases h

theorem scanRequest_ne_freed (locals : Locals) (restCommand : Bytes) :
    scanRequest locals restCommand ≠ .error .freed := by
  refine Fault.bind_ne_error (sscanf_ne_freed _ _) fun r => ?_
  split <;> exact fun h => by cases h

theorem scanBroadcast_ne_freed (locals : Locals) (restMessage : Bytes) :
    scanBroadcast locals restMessage ≠ .error .freed := by
  refine Fault.bind_ne_error (sscanf_ne_freed _ _) fun r => ?_
  split <;> exact fun h => by cases h

/-- The ADD_ME branch of `leader_receive_message`. -/
theorem Holds.agree_leaderReceiveAddMe (hm : h.Holds leader ps) (env : Env) (restCommand : Bytes)
    (recvAddr : RmpAddress) : Fault.Agree (h.Leaves [])
      (h.leaderReceiveAddMe env restCommand recvAddr)
      (Chat.leaderReceiveAddMe env (h.view leader ps) restCommand recvAddr) := by
  obtain ⟨contains, hcontains, rfl⟩ := (hm.agree_containsParticipant restCommand).exists_ok
  rw [HeapNode.leaderReceiveAddMe, Chat.leaderReceiveAddMe, hcontains, Fault.ok_bind]
  split
  · have hstatus : ((h.view leader ps).rmpSendTo env recvAddr messageJoinNicknameFailure).1 =
      (h.rmpSendTo env recvAddr messageJoinNicknameFailure).1 := rfl
    dsimp only
    rw [hstatus]
    split
    · exact .error (by decide)
    · exact hm.agree_ok rfl rfl rfl
  · refine agree_bind (hm.agree_insertParticipant _ _ _ false) fun hm₁ => ?_
    refine (hm₁.agree_generateParticipantUpdate _ _).bind ?_
    rintro update - rfl
    exact agree_bind (hm₁.agree_leaderBroadcastMessage env update) fun hm₂ =>
      hm₂.agree_ok rfl rfl rfl

theorem Holds.agree_leaderReceiveRequest (hm : h.Holds leader ps) (env : Env) (locals : Locals)
    (restCommand : Bytes) : Fault.Agree (h.Leaves [])
      (h.leaderReceiveRequest env locals restCommand)
      (Chat.leaderReceiveRequest env locals (h.view leader ps) restCommand) := by
  refine (Fault.agree_self (scanRequest_ne_freed locals restCommand)).bind ?_
  rintro ⟨senderNickname, payload⟩ - rfl
  refine (h.agree_incrClock leader ps).bind ?_
  rintro ⟨clock, -⟩ ⟨-, -⟩ ⟨rfl, n, rfl, rfl⟩
  have hm₁ : HeapNode.Holds { h with clockNum := n } leader ps := hm.of_eq rfl rfl rfl
  exact agree_of_eq (agree_bind (hm₁.agree_leaderBroadcastMessage env _) fun hm₂ =>
    hm₂.agree_ok rfl rfl rfl) rfl rfl

/-- **`leader_receive_message`.** -/
theorem Holds.agree_leaderReceiveMessage (hm : h.Holds leader ps) (env : Env) (locals : Locals)
    (buf : Bytes) (recvAddr : RmpAddress) : Fault.Agree (h.Leaves [])
      (h.leaderReceiveMessage env locals buf recvAddr)
      (Chat.leaderReceiveMessage env locals (h.view leader ps) buf recvAddr) := by
  refine (Fault.agree_self (scanCommand_ne_freed locals buf)).bind ?_
  rintro ⟨commandType, restCommand⟩ - rfl
  dsimp only
  split
  · exact hm.agree_leaderReceiveAddMe env restCommand recvAddr
  split
  · exact hm.agree_leaderReceiveRequest env locals restCommand
  split
  · exact hm.agree_ok rfl rfl rfl
  split
  · exact hm.agree_respondToLeaderElection env locals recvAddr
  · exact hm.agree_ok rfl rfl rfl

theorem Holds.agree_nonLeaderReceiveAddMe (hm : h.Holds leader ps) (env : Env)
    (recvAddr : RmpAddress) : Fault.Agree (h.Leaves [])
      (h.nonLeaderReceiveAddMe env recvAddr)
      (Chat.nonLeaderReceiveAddMe env (h.view leader ps) recvAddr) := by
  rw [HeapNode.nonLeaderReceiveAddMe, Chat.nonLeaderReceiveAddMe, view_inElection]
  split
  · exact hm.agree_ok rfl rfl rfl
  cases leader with
  | none =>
    rw [hm.deref_leader_none]
    exact .error (by decide)
  | some peer =>
    obtain ⟨q, hq, rfl⟩ := hm.deref_leader
    rw [hq, Fault.ok_bind, view_leader]
    dsimp only
    have hstatus : ∀ request, ((h.view (some q.toPeer) ps).rmpSendTo env recvAddr request).1 =
      (h.rmpSendTo env recvAddr request).1 := fun _ => rfl
    rw [hstatus]
    split
    · exact .error (by decide)
    · exact hm.agree_ok rfl rfl rfl

/-- What `non_leader_receive_message` frees: the list, on a PARTICIPANT_UPDATE. -/
def freedBy (locals : Locals) (ps : List Participant) (buf : Bytes) : List Address :=
  match scanCommand locals buf with
  | .ok (messageType, _) =>
    if strcmp messageBroadcast messageType = 0 then []
    else if strcmp messageParticipantUpdate messageType = 0 then ps.map fun p => p.ptr
    else []
  | .error _ => []

/-- **`non_leader_receive_message`.** -/
theorem Holds.agree_nonLeaderReceiveMessage (hm : h.Holds leader ps) (env : Env) (locals : Locals)
    (buf : Bytes) (recvAddr : RmpAddress) : Fault.Agree (h.Leaves (freedBy locals ps buf))
      (h.nonLeaderReceiveMessage env locals buf recvAddr)
      (Chat.nonLeaderReceiveMessage env locals (h.view leader ps) buf recvAddr) := by
  rw [HeapNode.nonLeaderReceiveMessage, Chat.nonLeaderReceiveMessage]
  unfold freedBy
  cases hscan : scanCommand locals buf with
  | error e => exact .error fun he => scanCommand_ne_freed locals buf (hscan.trans (congrArg _ he))
  | ok r =>
    obtain ⟨messageType, restMessage⟩ := r
    rw [Fault.ok_bind, Fault.ok_bind]
    dsimp only
    by_cases hbroadcast : strcmp messageBroadcast messageType = 0
    · rw [if_pos hbroadcast, if_pos hbroadcast, if_pos hbroadcast]
      refine (Fault.agree_self (scanBroadcast_ne_freed locals restMessage)).bind ?_
      rintro ⟨messageId, senderNickname, payload⟩ - rfl
      exact hm.agree_ok rfl rfl rfl
    rw [if_neg hbroadcast, if_neg hbroadcast, if_neg hbroadcast]
    split
    · exact hm.agree_processParticipantUpdate buf false
    split
    · exact hm.agree_nonLeaderReceiveAddMe env recvAddr
    split
    · exact hm.agree_ok rfl rfl rfl
    split
    · exact hm.agree_respondToLeaderElection env locals recvAddr
    split
    · exact hm.agree_ok rfl rfl rfl
    split
    · exact hm.agree_setNewLeader recvAddr
    · exact .error (by decide)

/-- **`recv_stdin`.** -/
theorem Holds.agree_recvStdin (hm : h.Holds leader ps) (env : Env) (locals : Locals) (buf : Bytes) :
    Fault.Agree (h.Leaves []) (h.recvStdin env locals buf)
      (Chat.recvStdin env locals (h.view leader ps) buf) := by
  rw [HeapNode.recvStdin, Chat.recvStdin, view_isLeader]
  split
  · refine (h.agree_incrClock leader ps).bind ?_
    rintro ⟨clock, -⟩ ⟨-, -⟩ ⟨rfl, n, rfl, rfl⟩
    have hm₁ : HeapNode.Holds { h with clockNum := n } leader ps := hm.of_eq rfl rfl rfl
    exact agree_of_eq (agree_bind (hm₁.agree_leaderBroadcastMessage env _) fun hm₂ =>
      hm₂.agree_ok rfl rfl rfl) rfl rfl
  · exact hm.agree_askLeader env locals _

end Receiving

end HeapNode

end Dchat.Chat
