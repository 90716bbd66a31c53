import Dchat.Chat.ParticipantUpdate
import Mathlib.Data.List.Perm.Basic
import Mathlib.Data.List.Perm.Lattice
import Mathlib.Data.List.Flatten

/-!
# Broadcasting as the leader

`leader_broadcast_message` of `leader.c`: one pass over the list sends the message to each
non-leader and takes out those that could not be reached; if there were any, a PARTICIPANT_UPDATE
with the shorter list is broadcast in the same way.

* `Passed` is what one pass does, and `Broadcast` the sequence of passes of a call, each with the
  attempts to send it made. `broadcast_of_ok` reads a call that returns as a `Broadcast`, and the
  lemmas about `Broadcast` are by induction on its passes.
* `LeaderSent` is what a call sends: the message to every non-leader, then PARTICIPANT_UPDATEs.
* `leaderBroadcastMessage_consistent`: the call returns, it removes exactly the non-leaders to
  which a send failed, and the last message that reached each of the others is a
  PARTICIPANT_UPDATE of the final list.
-/

namespace Dchat.Chat

open CString Stdio RMP

/-! ## The source -/

/-- The locals of `leader_broadcast_message`: `need_update`, and `update_buff` with
`update_buff_pos`. -/
structure Departures where
  needUpdate : Bool
  updateBuff : Cursor

/-- The loop of `leader_broadcast_message`. `TAILQ_REMOVE` leaves the link from the removed
participant to the next one in place, so that the loop visits every participant of the list it
started on. -/
def broadcastLoop (env : Env) (message : Bytes) :
    List Participant → Departures → Node → Except Fault (Departures × Node)
  | [], d, s => .ok (d, s)
  | p :: ps, d, s =>
    if p.isLeader then broadcastLoop env message ps d s
    else
      match env.getAddressFor p.ipAddress p.portNum with
      | none => .error .exit
      | some addr =>
        let (status, s) := s.rmpSendTo env addr message
        if status < 0 then do
          let c ← d.updateBuff.snprintf maxBufferLen (maxBufferLen - d.updateBuff.pos)
            (p.nickname ++ str ", ")
          broadcastLoop env message ps ⟨true, c⟩ (s.tailqRemove p.ptr).decrNumParticipants
        else broadcastLoop env message ps d s

/-- The notice about departed participants. -/
def leaveMessage (names : Bytes) : Bytes :=
  str "NOTICE " ++ names ++ str " left the chat or crashed"

/-- `leader_broadcast_message`, with a bound on the depth of its recursion. -/
def leaderBroadcastMessageFuel (env : Env) : ℕ → Node → Bytes → Except Fault Node
  | 0, _, _ => .error .diverges
  | fuel + 1, s, message => do
    let (d, s) ← broadcastLoop env message s.participants ⟨false, .empty⟩ s
    if d.needUpdate then
      if maxBufferLen ≤ d.updateBuff.pos - 2 then .error .bufferOverflow
      else
        -- the NUL written here cuts the last comma
        let names := d.updateBuff.text.take (d.updateBuff.pos - 2)
        let leave := snprintf 1024 (leaveMessage names)
        let updateCommand ← generateParticipantUpdate s 1024 leave
        let s ← leaderBroadcastMessageFuel env fuel s updateCommand
        .ok (s.print leave)
    else .ok s

/-- `leader_broadcast_message`. Every call that recurses has removed a participant. -/
def leaderBroadcastMessage (env : Env) (s : Node) (message : Bytes) : Except Fault Node :=
  leaderBroadcastMessageFuel env (s.participants.length + 1) s message

/-! ## One pass -/

/-- A call of `RMP_sendTo` and the participant it is for. -/
structure Attempt where
  recipient : Participant
  sent : Sent
  deriving DecidableEq

/-- The participants to which a send failed. -/
def lost (t : List Attempt) : List Participant :=
  (t.filter fun a => a.sent.result < 0).map Attempt.recipient

/-- The globals that a broadcast leaves alone. -/
structure SameNode (s s' : Node) : Prop where
  thisNickname : s'.thisNickname = s.thisNickname
  isLeader : s'.isLeader = s.isLeader
  leader : s'.leader = s.leader
  nextPtr : s'.nextPtr = s.nextPtr
  clockNum : s'.clockNum = s.clockNum
  inElection : s'.inElection = s.inElection
  startedElection : s'.startedElection = s.startedElection

theorem SameNode.trans {s s' s'' : Node} (h : SameNode s s') (h' : SameNode s' s'') :
    SameNode s s'' where
  thisNickname := h'.thisNickname.trans h.thisNickname
  isLeader := h'.isLeader.trans h.isLeader
  leader := h'.leader.trans h.leader
  nextPtr := h'.nextPtr.trans h.nextPtr
  clockNum := h'.clockNum.trans h.clockNum
  inElection := h'.inElection.trans h.inElection
  startedElection := h'.startedElection.trans h.startedElection

/-- A pass over the participants `ps` that makes the attempts `t`: one for each non-leader, in
order, and the failed ones take their participants out. -/
structure Passed (env : Env) (message : Bytes) (ps : List Participant) (s : Node)
    (t : List Attempt) (s' : Node) : Prop where
  recipients : t.map Attempt.recipient = others ps
  addressed : ∀ a ∈ t, a.sent.message = message ∧
    env.getAddressFor a.recipient.ipAddress a.recipient.portNum = some a.sent.dst
  results : ∀ a ∈ t, ∃ k, a.sent.result = env.sendTo k a.sent.dst a.sent.message
  sent : s'.sent = s.sent ++ t.map Attempt.sent
  participants : s'.participants = s.participants.filter fun p => p.ptr ∉ (lost t).map fun q => q.ptr
  numParticipants : s'.numParticipants = s.numParticipants - (lost t).length
  same : SameNode s s'

theorem lost_cons (a : Attempt) (t : List Attempt) :
    lost (a :: t) = if a.sent.result < 0 then a.recipient :: lost t else lost t := by
  unfold lost
  rw [List.filter_cons]
  by_cases h : a.sent.result < 0 <;> simp [h]

theorem lost_append (t t' : List Attempt) : lost (t ++ t') = lost t ++ lost t' := by
  simp [lost]

/-- The names in `update_buff`. -/
def departedNames (ps : List Participant) : Bytes :=
  (ps.map fun p => p.nickname ++ str ", ").flatten

/-- The names in the notice: the last comma and blank are cut. -/
def leaveNames (ps : List Participant) : Bytes :=
  (departedNames ps).take ((departedNames ps).length - 2)

theorem departedNames_cons (p : Participant) (ps : List Participant) :
    departedNames (p :: ps) = p.nickname ++ str ", " ++ departedNames ps := rfl

/-- A name that fits goes to the end of `update_buff`. -/
theorem snprintf_updateBuff {text piece : Bytes} (h : text.length + piece.length < maxBufferLen) :
    (Cursor.full text).snprintf maxBufferLen (maxBufferLen - (Cursor.full text).pos) piece =
      .ok (.full (text ++ piece)) :=
  Cursor.snprintf_of_fits (by simp only [Cursor.full]; omega) h

section Rounds

variable {env : Env} {message : Bytes} {p : Participant} {ps : List Participant} {s s' : Node}
  {t : List Attempt} {addr : RmpAddress}

/-- The leader is passed over. -/
theorem Passed.skip (hp : p.isLeader = true) (h : Passed env message ps s t s') :
    Passed env message (p :: ps) s t s' :=
  { h with recipients := by rw [others_cons, if_pos hp, h.recipients] }

/-- The message reaches a participant. -/
theorem Passed.reached (hp : p.isLeader = false)
    (ha : env.getAddressFor p.ipAddress p.portNum = some addr)
    (hr : ¬ (s.rmpSendTo env addr message).1 < 0)
    (h : Passed env message ps (s.rmpSendTo env addr message).2 t s') :
    Passed env message (p :: ps) s
      (⟨p, addr, message, (s.rmpSendTo env addr message).1⟩ :: t) s' where
  recipients := by rw [others_cons, hp, List.map_cons, h.recipients]; rfl
  addressed := List.forall_mem_cons.2 ⟨⟨rfl, ha⟩, h.addressed⟩
  results := List.forall_mem_cons.2 ⟨⟨_, rfl⟩, h.results⟩
  sent := by rw [h.sent, List.map_cons, Node.rmpSendTo]; simp
  participants := by rw [lost_cons, if_neg hr]; exact h.participants
  numParticipants := by rw [lost_cons, if_neg hr]; exact h.numParticipants
  same := by
    have h₁ : SameNode s (s.rmpSendTo env addr message).2 := ⟨rfl, rfl, rfl, rfl, rfl, rfl, rfl⟩
    exact h₁.trans h.same

/-- A participant could not be reached, and is taken out. -/
theorem Passed.failed (hp : p.isLeader = false)
    (ha : env.getAddressFor p.ipAddress p.portNum = some addr)
    (hr : (s.rmpSendTo env addr message).1 < 0)
    (h : Passed env message ps
      ((s.rmpSendTo env addr message).2.tailqRemove p.ptr).decrNumParticipants t s') :
    Passed env message (p :: ps) s
      (⟨p, addr, message, (s.rmpSendTo env addr message).1⟩ :: t) s' where
  recipients := by rw [others_cons, hp, List.map_cons, h.recipients]; rfl
  addressed := List.forall_mem_cons.2 ⟨⟨rfl, ha⟩, h.addressed⟩
  results := List.forall_mem_cons.2 ⟨⟨_, rfl⟩, h.results⟩
  sent := by
    rw [h.sent, List.map_cons]
    simp [Node.rmpSendTo, Node.tailqRemove, Node.decrNumParticipants]
  participants := by
    rw [lost_cons, if_pos hr, h.participants]
    simp only [Node.rmpSendTo, Node.tailqRemove, Node.decrNumParticipants, List.filter_filter]
    refine List.filter_congr fun q _ => ?_
    rw [Bool.eq_iff_iff]
    simp only [List.map_cons, List.mem_cons, Bool.and_eq_true, decide_eq_true_eq, not_or]
    exact and_comm
  numParticipants := by
    rw [lost_cons, if_pos hr, h.numParticipants]
    simp only [Node.rmpSendTo, Node.tailqRemove, Node.decrNumParticipants, List.length_cons]
    omega
  same := by
    have h₁ : SameNode s ((s.rmpSendTo env addr message).2.tailqRemove p.ptr).decrNumParticipants :=
      ⟨rfl, rfl, rfl, rfl, rfl, rfl, rfl⟩
    exact h₁.trans h.same

end Rounds

/-- **A pass that returns.** -/
theorem passed_of_broadcastLoop {env : Env} {message : Bytes} {ps : List Participant}
    {d d' : Departures} {s s' : Node} (h : broadcastLoop env message ps d s = .ok (d', s')) :
    ∃ t, Passed env message ps s t s' ∧ d'.needUpdate = (d.needUpdate || !(lost t).isEmpty) ∧
      ∀ text, d.updateBuff = .full text →
        text.length + (departedNames (others ps)).length < maxBufferLen →
        d'.updateBuff = .full (text ++ departedNames (lost t)) := by
  induction ps generalizing d s with
  | nil =>
    obtain ⟨rfl, rfl⟩ := Prod.mk.inj (Except.ok.inj h)
    refine ⟨[], ⟨rfl, by simp, by simp, by simp, by simp [lost], by simp [lost], ?_⟩, by simp [lost], ?_⟩
    · exact ⟨rfl, rfl, rfl, rfl, rfl, rfl, rfl⟩
    · intro text htext _
      simpa [lost, departedNames] using htext
  | cons p ps ih =>
    rw [broadcastLoop] at h
    cases hp : p.isLeader with
    | true =>
      rw [if_pos hp] at h
      obtain ⟨t, ht, hneed, hbuff⟩ := ih h
      refine ⟨t, ht.skip hp, hneed, ?_⟩
      rw [others_cons, if_pos hp]
      exact hbuff
    | false =>
      rw [if_neg (by simp [hp])] at h
      rw [others_cons, if_neg (by simp [hp]), departedNames_cons]
      split at h
      · cases h
      next addr ha =>
      dsimp only at h
      split at h
      · next hr =>
        obtain ⟨c, hc, h⟩ := Fault.bind_eq_ok.1 h
        obtain ⟨t, ht, hneed, hbuff⟩ := ih h
        refine ⟨_, ht.failed hp ha hr, ?_, ?_⟩
        · rw [hneed, lost_cons, if_pos hr]
          simp
        · intro text htext hlen
          rw [lost_cons, if_pos hr, departedNames_cons, ← List.append_assoc]
          simp only [List.length_append] at hlen
          have hfit : text.length + (p.nickname ++ str ", ").length < maxBufferLen := by
            simp only [List.length_append]
            omega
          rw [htext, snprintf_updateBuff hfit] at hc
          obtain rfl := Except.ok.inj hc
          exact hbuff _ rfl (by simp only [List.length_append]; omega)
      · next hr =>
        obtain ⟨t, ht, hneed, hbuff⟩ := ih h
        refine ⟨_, ht.reached hp ha hr, ?_, ?_⟩
        · rw [hneed, lost_cons, if_neg hr]
        · intro text htext hlen
          rw [lost_cons, if_neg hr]
          simp only [List.length_append] at hlen
          exact hbuff text htext (by omega)

/-- A pass returns if the addresses are accepted and the names fit `update_buff`. -/
theorem broadcastLoop_ok {env : Env} (message : Bytes) {ps : List Participant}
    (haddr : ∀ p ∈ ps, (env.getAddressFor p.ipAddress p.portNum).isSome) {d : Departures}
    {text : Bytes} (htext : d.updateBuff = .full text)
    (hlen : text.length + (departedNames (others ps)).length < maxBufferLen) (s : Node) :
    ∃ r, broadcastLoop env message ps d s = .ok r := by
  induction ps generalizing d s text with
  | nil => exact ⟨_, rfl⟩
  | cons p ps ih =>
    have haddr' : ∀ q ∈ ps, (env.getAddressFor q.ipAddress q.portNum).isSome :=
      fun q hq => haddr q (.tail _ hq)
    rw [broadcastLoop]
    rw [others_cons] at hlen
    split
    · next hp =>
      rw [if_pos hp] at hlen
      exact ih haddr' htext hlen s
    · next hp =>
      rw [if_neg hp, departedNames_cons] at hlen
      simp only [List.length_append] at hlen
      cases ha : env.getAddressFor p.ipAddress p.portNum with
      | none => exact absurd (haddr p (by simp)) (by simp [ha])
      | some addr =>
        dsimp only
        split
        · have hfit : text.length + (p.nickname ++ str ", ").length < maxBufferLen := by
            simp only [List.length_append]
            omega
          rw [htext, snprintf_updateBuff hfit, Fault.ok_bind]
          exact ih haddr' rfl (by simp only [List.length_append]; omega) _
        · exact ih haddr' htext (by omega) _

/-! ## What a pass leaves -/

/-- The structs of a list are different: none is linked into it twice. -/
def Linked (s : Node) : Prop := (s.participants.map fun p => p.ptr).Nodup

instance : DecidablePred Linked := fun s =>
  inferInstanceAs (Decidable (s.participants.map fun p => p.ptr).Nodup)

theorem lost_sublist {env : Env} {message : Bytes} {ps : List Participant} {s s' : Node}
    {t : List Attempt} (h : Passed env message ps s t s') : (lost t).Sublist (others ps) := by
  rw [← h.recipients]
  exact List.filter_sublist.map _

theorem mem_others {p : Participant} {ps : List Participant} :
    p ∈ others ps ↔ p ∈ ps ∧ p.isLeader = false := by simp [others]

theorem others_sublist (ps : List Participant) : (others ps).Sublist ps := List.filter_sublist

section AfterPass

variable {env : Env} {message : Bytes} {s s' : Node} {t : List Attempt}

/-- What is left and what was lost make up the list. -/
theorem Passed.perm (h : Passed env message s.participants s t s') (hs : Linked s) :
    (s'.participants ++ lost t).Perm s.participants := by
  have hsub := (lost_sublist h).trans (others_sublist s.participants)
  have hnd : s.participants.Nodup := hs.of_map
  have hlost : (s.participants.filter fun p => !decide (p.ptr ∉ (lost t).map fun q => q.ptr)).Perm
      (lost t) := by
    refine (List.perm_ext_iff_of_nodup (hnd.filter _) (hsub.nodup hnd)).2 fun p => ?_
    simp only [List.mem_filter, List.mem_map, decide_not, Bool.not_not, decide_eq_true_eq]
    constructor
    · rintro ⟨hp, q, hq, hptr⟩
      rwa [List.inj_on_of_nodup_map hs (hsub.subset hq) hp hptr] at hq
    · intro hp
      exact ⟨hsub.subset hp, p, hp, rfl⟩
  rw [h.participants]
  exact (hlost.symm.append_left _).trans (List.filter_append_perm _ _)

theorem Passed.sublist (h : Passed env message s.participants s t s') :
    s'.participants.Sublist s.participants := by
  rw [h.participants]
  exact List.filter_sublist

theorem Linked.sublist (hs : Linked s) (h : s'.participants.Sublist s.participants) : Linked s' :=
  (h.map _).nodup hs

/-- The leader is never lost. -/
theorem Passed.led {leader : Participant} (h : Passed env message s.participants s t s')
    (hs : Linked s) (hled : LedBy s leader) : LedBy s' leader := by
  refine ⟨?_, h.same.leader.trans hled.pointer⟩
  have hnot : leader.ptr ∉ (lost t).map fun q => q.ptr := by
    rintro hmem
    obtain ⟨q, hq, hptr⟩ := List.mem_map.1 hmem
    obtain ⟨hq, hflag⟩ := mem_others.1 ((lost_sublist h).subset hq)
    have hl : leader.isLeader = true := by
      have : leader ∈ s.participants.filter Participant.isLeader := by simp [hled.flagged]
      exact (List.mem_filter.1 this).2
    rw [List.inj_on_of_nodup_map hs hq hled.mem hptr, hl] at hflag
    cases hflag
  rw [h.participants, List.filter_comm, hled.flagged]
  exact List.filter_eq_self.2 (by simpa using hnot)

/-- The counter drops with the length of the list. -/
theorem Passed.count (h : Passed env message s.participants s t s') (hs : Linked s) :
    s'.numParticipants - s'.participants.length = s.numParticipants - s.participants.length := by
  have hlen := (h.perm hs).length_eq
  rw [List.length_append] at hlen
  have hnum := h.numParticipants
  omega

theorem Passed.length_lt (h : Passed env message s.participants s t s') (hs : Linked s)
    (hlost : lost t ≠ []) : s'.participants.length < s.participants.length := by
  have hlen := (h.perm hs).length_eq
  have hpos := List.length_pos_iff.2 hlost
  rw [List.length_append] at hlen
  omega

/-- The message of the last successful attempt for a participant. -/
def lastReceived (t : List Attempt) (p : Participant) : Option Bytes :=
  (t.filter fun a => a.recipient = p ∧ 0 ≤ a.sent.result).getLast?.map fun a => a.sent.message

theorem lastReceived_append {t t' : List Attempt} {p : Participant} {m : Bytes}
    (h : lastReceived t' p = some m) : lastReceived (t ++ t') p = some m := by
  obtain ⟨a, ha, rfl⟩ := Option.map_eq_some_iff.1 h
  rw [lastReceived, List.filter_append, List.getLast?_append, ha]
  rfl

/-- A pass delivers its message to the participants it does not lose. -/
theorem Passed.lastReceived (h : Passed env message s.participants s t s') {p : Participant}
    (hp : p ∈ others s'.participants) : lastReceived t p = some message := by
  obtain ⟨hp', hflag⟩ := mem_others.1 hp
  rw [h.participants, List.mem_filter] at hp'
  obtain ⟨hmem, hnot⟩ := hp'
  have hrec : p ∈ t.map Attempt.recipient := by
    rw [h.recipients]
    exact mem_others.2 ⟨hmem, hflag⟩
  obtain ⟨a, ha, rfl⟩ := List.mem_map.1 hrec
  have hok : 0 ≤ a.sent.result := by
    by_contra hneg
    refine absurd ?_ (of_decide_eq_true hnot)
    exact List.mem_map.2 ⟨_, List.mem_map.2 ⟨a, List.mem_filter.2 ⟨ha, by simpa using hneg⟩, rfl⟩, rfl⟩
  have hne : (t.filter fun b => b.recipient = a.recipient ∧ 0 ≤ b.sent.result) ≠ [] :=
    List.ne_nil_of_mem (List.mem_filter.2 ⟨ha, by simp [hok]⟩)
  obtain ⟨b, hb⟩ : ∃ b, (t.filter fun b => b.recipient = a.recipient ∧
      0 ≤ b.sent.result).getLast? = some b := ⟨_, List.getLast?_eq_some_getLast hne⟩
  have hbt := (List.mem_filter.1 (List.mem_of_getLast? hb)).1
  rw [Chat.lastReceived, hb, Option.map_some, (h.addressed b hbt).1]

end AfterPass

/-! ## The passes of a call -/

/-- A call that makes the attempts `t`: a pass that loses nobody, or a pass, and then the call
with the PARTICIPANT_UPDATE of the list it leaves. -/
inductive Broadcast (env : Env) : Node → Bytes → List Attempt → Node → Prop
  | done {s s' : Node} {message : Bytes} {t : List Attempt}
      (hpass : Passed env message s.participants s t s') (hlost : lost t = []) :
      Broadcast env s message t s'
  | again {s s₁ s₂ : Node} {message leave update : Bytes} {t t' : List Attempt}
      (hpass : Passed env message s.participants s t s₁) (hlost : lost t ≠ [])
      (hgen : generateParticipantUpdate s₁ maxBufferLen leave = .ok update)
      (hrec : Broadcast env s₁ update t' s₂) : Broadcast env s message (t ++ t') (s₂.print leave)

theorem broadcast_of_fuel {env : Env} {fuel : ℕ} {s s' : Node} {message : Bytes}
    (h : leaderBroadcastMessageFuel env fuel s message = .ok s') :
    ∃ t, Broadcast env s message t s' := by
  induction fuel generalizing s s' message with
  | zero => cases h
  | succ fuel ih =>
    rw [leaderBroadcastMessageFuel] at h
    obtain ⟨⟨d, s₁⟩, hloop, h⟩ := Fault.bind_eq_ok.1 h
    obtain ⟨t, hpass, hneed, -⟩ := passed_of_broadcastLoop hloop
    dsimp only at h
    rw [Bool.false_or] at hneed
    split at h
    · next hd =>
      split at h
      · cases h
      obtain ⟨update, hgen, h⟩ := Fault.bind_eq_ok.1 h
      obtain ⟨s₂, hrec, h⟩ := Fault.bind_eq_ok.1 h
      obtain rfl := Except.ok.inj h
      obtain ⟨t', ht'⟩ := ih hrec
      exact ⟨t ++ t', .again hpass (by simpa [hneed] using hd) hgen ht'⟩
    · next hd =>
      obtain rfl := Except.ok.inj h
      exact ⟨t, .done hpass (by simpa [hneed] using hd)⟩

theorem broadcast_of_ok {env : Env} {s s' : Node} {message : Bytes}
    (h : leaderBroadcastMessage env s message = .ok s') : ∃ t, Broadcast env s message t s' :=
  broadcast_of_fuel h

/-- What a broadcast of `message` sends in the name of `leader`: `first`, the message to every
non-leader, and then `updates`, PARTICIPANT_UPDATEs to some of them. -/
structure LeaderSent (env : Env) (s : Node) (message : Bytes) (leader : Peer)
    (first updates : List Attempt) (s' : Node) : Prop where
  recipients : first.map Attempt.recipient = others s.participants
  announced : ∀ a ∈ first, a.sent.message = message
  updated : ∀ a ∈ updates, ∃ ps notice, a.sent.message = updateText leader ps notice
  addressed : ∀ a ∈ first ++ updates, a.recipient ∈ others s.participants ∧
    env.getAddressFor a.recipient.ipAddress a.recipient.portNum = some a.sent.dst
  results : ∀ a ∈ first ++ updates, ∃ k, a.sent.result = env.sendTo k a.sent.dst a.sent.message
  sent : s'.sent = s.sent ++ (first ++ updates).map Attempt.sent
  sublist : s'.participants.Sublist s.participants
  same : SameNode s s'

namespace Broadcast

variable {env : Env} {s s' : Node} {message : Bytes} {t : List Attempt}

theorem same (h : Broadcast env s message t s') : SameNode s s' := by
  induction h with
  | done hpass _ => exact hpass.same
  | again hpass _ _ _ ih =>
    obtain ⟨h1, h2, h3, h4, h5, h6, h7⟩ := hpass.same.trans ih
    exact ⟨h1, h2, h3, h4, h5, h6, h7⟩

theorem sent (h : Broadcast env s message t s') : s'.sent = s.sent ++ t.map Attempt.sent := by
  induction h with
  | done hpass _ => exact hpass.sent
  | again hpass _ _ _ ih =>
    rw [List.map_append, ← List.append_assoc, ← hpass.sent]
    exact ih

theorem sublist (h : Broadcast env s message t s') :
    s'.participants.Sublist s.participants := by
  induction h with
  | done hpass _ => exact hpass.sublist
  | again hpass _ _ _ ih => exact List.Sublist.trans ih hpass.sublist

/-- The message goes to every non-leader first. -/
theorem recipients (h : Broadcast env s message t s') :
    others s.participants <+: t.map Attempt.recipient := by
  cases h with
  | done hpass _ => exact ⟨[], by rw [List.append_nil, hpass.recipients]⟩
  | again hpass _ _ _ =>
    rw [List.map_append, hpass.recipients]
    exact List.prefix_append _ _

theorem addressed (h : Broadcast env s message t s') : ∀ a ∈ t, a.recipient ∈ others s.participants ∧
    env.getAddressFor a.recipient.ipAddress a.recipient.portNum = some a.sent.dst := by
  have hone : ∀ {s s' : Node} {message : Bytes} {t : List Attempt},
      Passed env message s.participants s t s' → ∀ a ∈ t, a.recipient ∈ others s.participants ∧
        env.getAddressFor a.recipient.ipAddress a.recipient.portNum = some a.sent.dst := by
    intro s s' message t hpass a ha
    exact ⟨hpass.recipients ▸ List.mem_map_of_mem ha, (hpass.addressed a ha).2⟩
  induction h with
  | done hpass _ => exact hone hpass
  | again hpass _ _ _ ih =>
    intro a ha
    obtain ha | ha := List.mem_append.1 ha
    · exact hone hpass a ha
    · obtain ⟨hrec, haddr⟩ := ih a ha
      exact ⟨(hpass.sublist.filter _).subset hrec, haddr⟩

theorem results (h : Broadcast env s message t s') :
    ∀ a ∈ t, ∃ k, a.sent.result = env.sendTo k a.sent.dst a.sent.message := by
  induction h with
  | done hpass _ => exact hpass.results
  | again hpass _ _ _ ih =>
    intro a ha
    obtain ha | ha := List.mem_append.1 ha
    · exact hpass.results a ha
    · exact ih a ha

/-- What is sent is the message or a PARTICIPANT_UPDATE of the leader. -/
theorem messages (h : Broadcast env s message t s') {leader : Peer}
    (hleader : s.leader = some leader) : ∀ a ∈ t,
      a.sent.message = message ∨ ∃ ps notice, a.sent.message = updateText leader ps notice := by
  induction h with
  | done hpass _ => exact fun a ha => .inl (hpass.addressed a ha).1
  | again hpass _ hgen _ ih =>
    intro a ha
    have hleader₁ := hpass.same.leader.trans hleader
    obtain ha | ha := List.mem_append.1 ha
    · exact .inl (hpass.addressed a ha).1
    · obtain hm | hm := ih hleader₁ a ha
      · exact .inr ⟨_, _, hm.trans (eq_updateText hleader₁ (by decide) hgen)⟩
      · exact .inr hm

/-- **The message comes before the updates.** -/
theorem leaderSent (h : Broadcast env s message t s') {leader : Peer}
    (hleader : s.leader = some leader) :
    ∃ first updates, LeaderSent env s message leader first updates s' := by
  have haddr := h.addressed
  have hres := h.results
  have hsent := h.sent
  have hsub := h.sublist
  have hsame := h.same
  cases h with
  | done hpass _ =>
    rw [← List.append_nil t] at haddr hres hsent
    exact ⟨t, [], hpass.recipients, fun a ha => (hpass.addressed a ha).1, by simp, haddr, hres,
      hsent, hsub, hsame⟩
  | @again _ s₁ _ _ _ update t₁ t₂ hpass _ hgen hrec =>
    have hleader₁ := hpass.same.leader.trans hleader
    have hupdate := eq_updateText hleader₁ (by decide) hgen
    refine ⟨t₁, t₂, hpass.recipients, fun a ha => (hpass.addressed a ha).1, fun a ha => ?_, haddr,
      hres, hsent, hsub, hsame⟩
    obtain hm | hm := hrec.messages hleader₁ a ha
    · exact ⟨_, _, hm.trans hupdate⟩
    · exact hm

/-- **The list that is left**: the participants to which every send succeeded. -/
theorem participants (h : Broadcast env s message t s') :
    s'.participants = s.participants.filter fun p => p.ptr ∉ (lost t).map fun q => q.ptr := by
  induction h with
  | done hpass _ => exact hpass.participants
  | again hpass _ _ _ ih =>
    have hfilter := ih
    rw [hpass.participants, List.filter_filter] at hfilter
    refine hfilter.trans (List.filter_congr fun p _ => ?_)
    rw [Bool.eq_iff_iff, lost_append]
    simp only [List.map_append, List.mem_append, Bool.and_eq_true, decide_eq_true_eq, not_or]
    exact and_comm

theorem led {leader : Participant} (h : Broadcast env s message t s') (hs : Linked s)
    (hled : LedBy s leader) : LedBy s' leader := by
  induction h with
  | done hpass _ => exact hpass.led hs hled
  | again hpass _ _ _ ih =>
    obtain ⟨h1, h2⟩ := ih (hs.sublist hpass.sublist) (hpass.led hs hled)
    exact ⟨h1, h2⟩

theorem count (h : Broadcast env s message t s') (hs : Linked s) :
    s'.numParticipants - s'.participants.length =
      s.numParticipants - s.participants.length := by
  induction h with
  | done hpass _ => exact hpass.count hs
  | again hpass _ _ _ ih => exact (ih (hs.sublist hpass.sublist)).trans (hpass.count hs)

/-- **The innermost pass is the last that every remaining participant saw.** -/
theorem lastReceived (h : Broadcast env s message t s') :
    (lost t = [] ∧ ∀ p ∈ others s'.participants, lastReceived t p = some message) ∨
    ∃ leave update, generateParticipantUpdate s' maxBufferLen leave = .ok update ∧
      ∀ p ∈ others s'.participants, Chat.lastReceived t p = some update := by
  induction h with
  | done hpass hlost => exact .inl ⟨hlost, fun p hp => hpass.lastReceived hp⟩
  | @again s s₁ s₂ message leave update t t' hpass _ hgen hrec ih =>
    refine .inr ?_
    obtain ⟨hlost', hlast⟩ | ⟨leave', update', hgen', hlast⟩ := ih
    · -- the inner call loses nobody, so that its message is an update of the final list
      refine ⟨leave, update, ?_, fun p hp => lastReceived_append (hlast p hp)⟩
      have hps : s₂.participants = s₁.participants := by
        rw [hrec.participants, hlost']
        simp
      rw [← hgen]
      unfold generateParticipantUpdate
      rw [show (s₂.print leave).leader = s₁.leader from hrec.same.leader,
        show (s₂.print leave).participants = s₁.participants from hps]
    · exact ⟨leave', update', hgen', fun p hp => lastReceived_append (hlast p hp)⟩

end Broadcast

theorem leaderSent_of_ok {env : Env} {s s' : Node} {message : Bytes} {leader : Peer}
    (hleader : s.leader = some leader) (h : leaderBroadcastMessage env s message = .ok s') :
    ∃ first updates, LeaderSent env s message leader first updates s' := by
  obtain ⟨t, ht⟩ := broadcast_of_ok h
  exact ht.leaderSent hleader

/-- A broadcast followed by one of a PARTICIPANT_UPDATE. -/
theorem LeaderSent.update {env : Env} {s s₁ s₂ : Node} {message : Bytes} {leader : Peer}
    {first updates first' updates' : List Attempt} {ps : List Participant} {notice : Bytes}
    (h : LeaderSent env s message leader first updates s₁)
    (h' : LeaderSent env s₁ (updateText leader ps notice) leader first' updates' s₂) :
    LeaderSent env s message leader first (updates ++ (first' ++ updates')) s₂ where
  recipients := h.recipients
  announced := h.announced
  updated := by
    intro a ha
    obtain ha | ha := List.mem_append.1 ha
    · exact h.updated a ha
    obtain ha | ha := List.mem_append.1 ha
    · exact ⟨ps, notice, h'.announced a ha⟩
    · exact h'.updated a ha
  addressed := by
    intro a ha
    rw [← List.append_assoc] at ha
    obtain ha | ha := List.mem_append.1 ha
    · exact h.addressed a ha
    · obtain ⟨hrec, haddr⟩ := h'.addressed a ha
      exact ⟨(h.sublist.filter _).subset hrec, haddr⟩
  results := by
    intro a ha
    rw [← List.append_assoc] at ha
    exact (List.mem_append.1 ha).elim (h.results a) (h'.results a)
  sent := by simp only [h'.sent, h.sent, List.map_append, List.append_assoc]
  sublist := h'.sublist.trans h.sublist
  same := h.same.trans h'.same

/-! ## The call returns -/

/-- The list is short enough: the PARTICIPANT_UPDATE that announces the departure of any one
participant fits its buffer. -/
def Fits (s : Node) (leader : Peer) : Prop :=
  ∀ p ∈ others s.participants,
    (updateText leader (s.participants.erase p) (leaveMessage p.nickname)).length < maxBufferLen

instance (s : Node) (leader : Peer) : Decidable (Fits s leader) := List.decidableBAll _ _

/-- The bytes that the non-leaders of a list take in a PARTICIPANT_UPDATE. -/
def load (ps : List Participant) : ℕ := ((others ps).map fun p => entryText p.toPeer).flatten.length

theorem load_perm {ps qs : List Participant} (h : ps.Perm qs) : load ps = load qs :=
  (((h.filter _).map _).flatten).length_eq

theorem load_sublist {ps qs : List Participant} (h : ps.Sublist qs) : load ps ≤ load qs :=
  (((h.filter _).map _).flatten).length_le

theorem load_append (ps qs : List Participant) : load (ps ++ qs) = load ps + load qs := by
  simp [load, others]

theorem length_updateText (leader : Peer) (ps : List Participant) (joinLeaveMessage : Bytes) :
    (updateText leader ps joinLeaveMessage).length =
      22 + (entryText leader).length + load ps + joinLeaveMessage.length := by
  have h1 : (messageParticipantUpdate ++ str " @").length = 20 := by decide
  have h2 : (str "= ").length = 2 := by decide
  simp only [updateText, load, List.length_append] at *
  omega

theorem length_leaveMessage (names : Bytes) : (leaveMessage names).length = 32 + names.length := by
  have h1 : (str "NOTICE ").length = 7 := by decide
  have h2 : (str " left the chat or crashed").length = 25 := by decide
  simp only [leaveMessage, List.length_append]
  omega

/-- A name takes less room in the notice than its entry in the list. -/
theorem length_departedNames_le {ps : List Participant} (h : ∀ p ∈ ps, p.isLeader = false) :
    (departedNames ps).length ≤ load ps := by
  induction ps with
  | nil => exact Nat.le_refl _
  | cons p ps ih =>
    have ih := ih fun q hq => h q (.tail _ hq)
    have hp := h p (by simp)
    have h2 : (str ", ").length = 2 := by decide
    rw [departedNames_cons]
    simp only [load, others_cons, hp, Bool.false_eq_true, if_false, List.map_cons,
      List.flatten_cons, List.length_append, entryText, List.length_cons, h2] at ih ⊢
    omega

theorem Fits.sublist {s s' : Node} {leader : Peer} (h : Fits s leader)
    (hsub : s'.participants.Sublist s.participants) : Fits s' leader := by
  intro p hp
  have hlt := h p ((hsub.filter _).subset hp)
  have hload := load_sublist (hsub.erase p)
  rw [length_updateText] at hlt ⊢
  omega

/-- The names of all non-leaders fit `update_buff`. -/
theorem Fits.names_lt {s : Node} {leader : Peer} (h : Fits s leader) :
    (departedNames (others s.participants)).length < maxBufferLen := by
  cases ho : others s.participants with
  | nil => decide
  | cons p ps =>
    have hp : p ∈ others s.participants := by simp [ho]
    have hlt := h p hp
    have hperm := ((List.perm_cons_erase (mem_others.1 hp).1).filter fun p => !p.isLeader)
    have hnames : (departedNames (others s.participants)).length =
        (departedNames (p :: others (s.participants.erase p))).length := by
      have hcons : others (p :: s.participants.erase p) = p :: others (s.participants.erase p) := by
        rw [others_cons, (mem_others.1 hp).2]
        rfl
      rw [← hcons]
      exact (hperm.map _).flatten.length_eq
    have hle : (departedNames (others (s.participants.erase p))).length ≤
        load (s.participants.erase p) := by
      have hself : load (others (s.participants.erase p)) = load (s.participants.erase p) := by
        simp [load, others]
      rw [← hself]
      exact length_departedNames_le fun q hq => (mem_others.1 hq).2
    have h2 : (str ", ").length = 2 := by decide
    rw [← ho, hnames, departedNames_cons]
    rw [length_updateText, length_leaveMessage] at hlt
    simp only [List.length_append, h2]
    omega

/-- The update after a pass fits: what the departed take in the notice they no longer take in the
list. -/
theorem Fits.update_lt {env : Env} {message : Bytes} {s s' : Node} {t : List Attempt} {leader : Peer}
    (h : Fits s leader) (hs : Linked s) (hpass : Passed env message s.participants s t s')
    (hlost : lost t ≠ []) :
    (updateText leader s'.participants (leaveMessage (leaveNames (lost t)))).length <
      maxBufferLen := by
  have hsub := lost_sublist hpass
  have hperm := hpass.perm hs
  cases hF : lost t with
  | nil => exact absurd hF hlost
  | cons p F =>
    rw [hF] at hsub hperm
    have hp : p ∈ others s.participants := hsub.subset (by simp)
    have hlt := h p hp
    have hload : load (s.participants.erase p) = load s'.participants + load F := by
      rw [← load_append]
      refine load_perm ((List.Perm.cons_inv (a := p)) ?_)
      exact (List.perm_cons_erase (mem_others.1 hp).1).symm.trans
        (hperm.symm.trans List.perm_middle)
    have hle : (departedNames F).length ≤ load F :=
      length_departedNames_le fun q hq => (mem_others.1 (hsub.subset (.tail _ hq))).2
    have h2 : (str ", ").length = 2 := by decide
    rw [length_updateText, length_leaveMessage] at hlt ⊢
    simp only [leaveNames, departedNames_cons, List.length_append, List.length_take, h2]
    omega

/-- **The depth of the recursion is bounded by the length of the list**: every call that recurses
has removed a participant. -/
theorem leaderBroadcastMessageFuel_ok {env : Env} {leader : Participant} {fuel : ℕ} {s : Node}
    (message : Bytes) (hfuel : s.participants.length < fuel) (hled : LedBy s leader) (hs : Linked s)
    (haddr : ∀ p ∈ s.participants, (env.getAddressFor p.ipAddress p.portNum).isSome)
    (hfits : Fits s leader.toPeer) :
    ∃ s', leaderBroadcastMessageFuel env fuel s message = .ok s' := by
  induction fuel generalizing s message with
  | zero => omega
  | succ fuel ih =>
    have hempty : (⟨false, .empty⟩ : Departures).updateBuff = .full [] := rfl
    obtain ⟨⟨d, s₁⟩, hloop⟩ :=
      broadcastLoop_ok message haddr hempty (by simpa using hfits.names_lt) s
    obtain ⟨t, hpass, hneed, hbuff⟩ := passed_of_broadcastLoop hloop
    have hbuff := hbuff [] rfl (by simpa using hfits.names_lt)
    rw [List.nil_append] at hbuff
    rw [leaderBroadcastMessageFuel, hloop, Fault.ok_bind]
    dsimp only
    by_cases hlost : lost t = []
    · rw [if_neg (by simp [hneed, hlost])]
      exact ⟨s₁, rfl⟩
    · have hlt := hfits.update_lt hs hpass hlost
      have hnames : (departedNames (lost t)).length < maxBufferLen := by
        have hsub := (((lost_sublist hpass).map fun p => p.nickname ++ str ", ").flatten).length_le
        exact Nat.lt_of_le_of_lt hsub hfits.names_lt
      have hleave : snprintf 1024 (leaveMessage (leaveNames (lost t))) =
          leaveMessage (leaveNames (lost t)) := by
        refine snprintf_of_lt ?_
        rw [length_updateText, maxBufferLen] at hlt
        omega
      have hgen : generateParticipantUpdate s₁ 1024 (leaveMessage (leaveNames (lost t))) =
          .ok (updateText leader.toPeer s₁.participants (leaveMessage (leaveNames (lost t)))) := by
        rw [generateParticipantUpdate_eq (hpass.same.leader.trans hled.pointer) (by decide)]
        exact if_pos hlt
      have hfuel₁ : s₁.participants.length < fuel := by
        have := hpass.length_lt hs hlost
        omega
      obtain ⟨s₂, hrec⟩ :=
        ih (updateText leader.toPeer s₁.participants (leaveMessage (leaveNames (lost t)))) hfuel₁
          (hpass.led hs hled) (hs.sublist hpass.sublist)
          (fun p hp => haddr p (hpass.sublist.subset hp)) (hfits.sublist hpass.sublist)
      have hpos : (Cursor.full (departedNames (lost t))).pos = (departedNames (lost t)).length := rfl
      rw [if_pos (by simp [hneed, hlost]), hbuff, hpos, if_neg (by omega)]
      change ∃ s', (generateParticipantUpdate s₁ 1024
        (snprintf 1024 (leaveMessage (leaveNames (lost t)))) >>= _) = .ok s'
      rw [hleave, hgen, Fault.ok_bind, hrec, Fault.ok_bind]
      exact ⟨_, rfl⟩

/-- **A broadcast keeps the membership consistent**, whatever sends fail. The call returns, and what
it has sent is the message and PARTICIPANT_UPDATEs, with the results of `RMP_sendTo`; its list is
the original one without exactly the non-leaders to which one of its sends failed, with the counter
lowered by their number and the leader as before; and if anyone was removed, the last message that
reached each remaining non-leader is a PARTICIPANT_UPDATE of the final list. -/
theorem leaderBroadcastMessage_consistent {env : Env} {s : Node} {leader : Participant}
    (hled : LedBy s leader) (hs : Linked s)
    (haddr : ∀ p ∈ s.participants, (env.getAddressFor p.ipAddress p.portNum).isSome)
    (hfits : Fits s leader.toPeer) (message : Bytes) :
    ∃ s' t, leaderBroadcastMessage env s message = .ok s' ∧
      s'.sent = s.sent ++ t.map Attempt.sent ∧
      others s.participants <+: t.map Attempt.recipient ∧
      (∀ a ∈ t, a.recipient ∈ others s.participants ∧
        env.getAddressFor a.recipient.ipAddress a.recipient.portNum = some a.sent.dst) ∧
      (∀ a ∈ t, ∃ k, a.sent.result = env.sendTo k a.sent.dst a.sent.message) ∧
      (∀ a ∈ t, a.sent.message = message ∨
        ∃ ps notice, a.sent.message = updateText leader.toPeer ps notice) ∧
      s'.participants = s.participants.filter (fun p => p ∉ lost t) ∧
      s'.numParticipants =
        s.numParticipants - (s.participants.length - s'.participants.length) ∧
      LedBy s' leader ∧
      (s'.participants ≠ s.participants →
        ∃ leave update, generateParticipantUpdate s' maxBufferLen leave = .ok update ∧
          ∀ p ∈ others s'.participants, lastReceived t p = some update) := by
  obtain ⟨s', hok⟩ := leaderBroadcastMessageFuel_ok message (Nat.lt_succ_self _) hled hs haddr hfits
  obtain ⟨t, ht⟩ := broadcast_of_ok hok
  refine ⟨s', t, hok, ht.sent, ht.recipients, ht.addressed, ht.results, ht.messages hled.pointer, ?_, ?_,
    ht.led hs hled, ?_⟩
  · rw [ht.participants]
    refine List.filter_congr fun p hp => ?_
    rw [Bool.eq_iff_iff, decide_eq_true_iff, decide_eq_true_iff, not_iff_not]
    constructor
    · intro hptr
      obtain ⟨q, hq, hptr⟩ := List.mem_map.1 hptr
      obtain ⟨a, ha, rfl⟩ := List.mem_map.1 hq
      have hmem := (mem_others.1 (ht.addressed a (List.mem_filter.1 ha).1).1).1
      rwa [List.inj_on_of_nodup_map hs hmem hp hptr] at hq
    · exact List.mem_map_of_mem
  · have hcount := ht.count hs
    omega
  · intro hne
    obtain ⟨hlost, -⟩ | hupdate := ht.lastReceived
    · refine absurd ?_ hne
      rw [ht.participants, hlost]
      simp
    · exact hupdate

/-- `RMP_getAddressFor` on the addresses of the local host. -/
def loopbackAddress (ip port : Bytes) : Option RmpAddress :=
  if ip = str "127.0.0.1" then some ⟨0x0100007F#32, BitVec.ofNat 16 (digitsValue port)⟩ else none

/-- An environment in which `a` does not answer. -/
def deafEnv : Env where
  getAddressFor := loopbackAddress
  sendTo _ dst message := if dst.sinPort = 81 then rmpETimeout else message.length + 1

theorem leaderBroadcastMessage_consistent_pair :
    ∃ s' t, leaderBroadcastMessage deafEnv pairNode messageHeartbeat = .ok s' ∧
      s'.sent = pairNode.sent ++ t.map Attempt.sent ∧
      others pairNode.participants <+: t.map Attempt.recipient ∧
      (∀ a ∈ t, a.recipient ∈ others pairNode.participants ∧
        loopbackAddress a.recipient.ipAddress a.recipient.portNum = some a.sent.dst) ∧
      (∀ a ∈ t, ∃ k, a.sent.result = deafEnv.sendTo k a.sent.dst a.sent.message) ∧
      (∀ a ∈ t, a.sent.message = messageHeartbeat ∨
        ∃ ps notice, a.sent.message = updateText pairLeader.toPeer ps notice) ∧
      s'.participants = pairNode.participants.filter (fun p => p ∉ lost t) ∧
      s'.numParticipants =
        pairNode.numParticipants - (pairNode.participants.length - s'.participants.length) ∧
      LedBy s' pairLeader ∧
      (s'.participants ≠ pairNode.participants →
        ∃ leave update, generateParticipantUpdate s' maxBufferLen leave = .ok update ∧
          ∀ p ∈ others s'.participants, lastReceived t p = some update) :=
  leaderBroadcastMessage_consistent encodable_pairNode.led (by decide) (by decide) (by decide) _

/-- There the call takes `a` out. -/
example : (leaderBroadcastMessage deafEnv pairNode messageHeartbeat).toOption.map
    Node.participants = some [pairLeader] := by decide

end Dchat.Chat
