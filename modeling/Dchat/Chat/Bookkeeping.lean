import Dchat.Chat.Trap

/-!
# Who the leader is

The leader is recorded twice, by the flag of a participant and by the pointer `leader`.
`Led` says that the two agree. Everything that rewrites them keeps them in step, except
that a new leader may be named by something that no participant has: an ELECTION_VICTORY
from an address that is not in the list, an election won by a node that is not in its own
list, a PARTICIPANT_UPDATE without entries.

* `scanParticipants_rule` is the induction rule for a list that is being read.
* `led_setLeaderBy_iff`, `led_processParticipantUpdate_iff`: when a new leader is recorded.
* `led_of_reach`: the record is right in every run in which each new leader is one participant.
* `not_led`: an ELECTION_VICTORY of a stranger leaves no leader.
-/

namespace Dchat.Chat

open CString Stdio RMP Runs

/-- Exactly one participant is flagged, and `leader` points to it. -/
def Led (s : Node) : Prop := ∃ leader, LedBy s leader

/-- The list of a PARTICIPANT_UPDATE has an entry: what follows its `@` is not the end of the
list. -/
def HasEntry (command : Bytes) : Prop :=
  ∃ found, strchr command 64 = some found ∧ (skipSpaces found.tail).head? ≠ some 61

/-- A new leader is exactly one of the participants: the one with the source address of an
ELECTION_VICTORY, the one with the node's own nickname, the first entry of a PARTICIPANT_UPDATE. -/
def NamesLeader (p : Process) (o : Occurrence) : Prop :=
  match p, o.event with
  | .joining _, .receive buf _ => JoinReads buf messageParticipantUpdate → HasEntry buf
  | .chatting s, .receive buf src =>
    s.isLeader = false →
      (∀ rest, Reads o.locals buf messageParticipantUpdate rest → HasEntry buf) ∧
      ∀ rest, Reads o.locals buf messageElectionVictory rest →
        (s.participants.filter fun p => strcmp (inetNtoa src) p.ipAddress = 0 ∧
          strcmp (portText src) p.portNum = 0).length = 1
  | .chatting s, .victory =>
    (s.participants.filter fun p => strcmp s.thisNickname p.nickname = 0).length = 1
  | _, _ => True

/-- The structs of the list are different, and older than the next one. -/
structure Sound (s : Node) : Prop where
  linked : Linked s
  older : ∀ p ∈ s.participants, p.ptr < s.nextPtr

/-! ## Reading a list -/

section Reading

variable {P : Bool → Node → Prop} {s s' : Node}

/-- **The rule for a list that is being read**: `P isFirst` before a participant is inserted. -/
theorem scanParticipants_rule (hprint : ∀ f s line, P f s → P f (s.print line))
    (hinsert : ∀ f s s' nickname ipAddress portNum, P f s →
      s.insertParticipant nickname ipAddress portNum f = .ok s' → P false s')
    {joining : Bool} {fuel : ℕ} {currPos rest : Bytes} {isFirst : Bool}
    (h : scanParticipants joining fuel s currPos isFirst = .ok (s', rest)) (hs : P isFirst s) :
    s' = s ∧ rest = currPos ∧ (currPos = [] ∨ currPos.head? = some 61) ∨
      ¬(currPos = [] ∨ currPos.head? = some 61) ∧ P false s' := by
  induction fuel generalizing s currPos isFirst with
  | zero => cases h
  | succ fuel ih =>
    by_cases hend : currPos = [] ∨ currPos.head? = some 61
    · rw [scanParticipants, if_pos hend] at h
      obtain ⟨rfl, rfl⟩ := Prod.mk.inj (Except.ok.inj h)
      exact .inl ⟨rfl, rfl, hend⟩
    · rw [scanParticipants, if_neg hend] at h
      obtain ⟨r, -, h⟩ := Fault.bind_eq_ok.1 h
      split at h
      · cases h
      split at h
      · cases h
      obtain ⟨s₁, h₁, h⟩ := Fault.bind_eq_ok.1 h
      have hs₁ := hinsert _ _ _ _ _ _ hs h₁
      refine .inr ⟨hend, ?_⟩
      dsimp only at h
      split at h
      · obtain ⟨rfl, -, -⟩ | ⟨-, hP⟩ := ih h (hprint _ _ _ hs₁)
        · exact hprint _ _ _ hs₁
        · exact hP
      · obtain ⟨rfl, -, -⟩ | ⟨-, hP⟩ := ih h hs₁
        · exact hs₁
        · exact hP

/-- What a PARTICIPANT_UPDATE leaves, from the empty list on. -/
theorem processParticipantUpdate_rule (hprint : ∀ f s line, P f s → P f (s.print line))
    (hinsert : ∀ f s s' nickname ipAddress portNum, P f s →
      s.insertParticipant nickname ipAddress portNum f = .ok s' → P false s')
    {command : Bytes} {joining : Bool} (h : processParticipantUpdate s command joining = .ok s')
    (hs : P true s.emptyList) :
    (HasEntry command → P false s') ∧ (¬ HasEntry command → P true s' ∧ s'.participants = []) := by
  obtain ⟨found, s₁, rest, hfound, hscan, hend, rfl⟩ := processParticipantUpdate_eq_ok h
  have hentry : HasEntry command ↔ (skipSpaces found.tail).head? ≠ some 61 := by
    constructor
    · rintro ⟨found', hfound', hne⟩
      rw [hfound] at hfound'
      exact Option.some.inj hfound' ▸ hne
    · exact fun hne => ⟨found, hfound, hne⟩
  rw [hentry]
  obtain ⟨rfl, rfl, -⟩ | ⟨hne, hP⟩ := scanParticipants_rule hprint hinsert hscan hs
  · exact ⟨fun hne => absurd hend hne, fun _ => ⟨hprint _ _ _ hs, rfl⟩⟩
  · exact ⟨fun _ => hprint _ _ _ hP, fun hnot => absurd (.inr (not_not.1 hnot)) hne⟩

end Reading

/-! ## The structs of a list -/

section Structs

variable {env : Env} {s s' : Node}

theorem Sound.of_sublist (h : Sound s) (hsub : s'.participants.Sublist s.participants)
    (hptr : s'.nextPtr = s.nextPtr) : Sound s' :=
  ⟨h.linked.sublist hsub, fun p hp => hptr ▸ h.older p (hsub.subset hp)⟩

theorem Sound.setLeaderBy (h : Sound s) (test : Participant → Bool) : Sound (s.setLeaderBy test) := by
  have hptrs : ((s.setLeaderBy test).participants.map fun p => p.ptr) =
      s.participants.map fun p => p.ptr := by
    rw [Node.setLeaderBy, List.map_map]
    rfl
  refine ⟨?_, fun p hp => ?_⟩
  · rw [Linked, hptrs]
    exact h.linked
  · obtain ⟨p₀, hp₀, rfl⟩ := List.mem_map.1 hp
    exact h.older p₀ hp₀

theorem Sound.insertParticipant {nickname ipAddress portNum : Bytes} {isLeader : Bool}
    (h : Sound s) (hs : s.insertParticipant nickname ipAddress portNum isLeader = .ok s') :
    Sound s' := by
  unfold Node.insertParticipant at hs
  dsimp only at hs
  split at hs
  · cases hs
  obtain rfl := Except.ok.inj hs
  constructor
  · unfold Linked
    rw [List.map_append, List.nodup_append]
    refine ⟨h.linked, List.nodup_singleton _, ?_⟩
    rintro ptr hptr _ hnew rfl
    obtain ⟨p, hp, rfl⟩ := List.mem_map.1 hptr
    obtain hnew := List.mem_singleton.1 hnew
    exact absurd (h.older p hp) (by simp [hnew])
  · intro p hp
    obtain hp | hp := List.mem_append.1 hp
    · exact Nat.lt_succ_of_lt (h.older p hp)
    · obtain rfl := List.mem_singleton.1 hp
      exact Nat.lt_succ_self _

theorem Sound.broadcast {message : Bytes} (h : Sound s)
    (hs : leaderBroadcastMessage env s message = .ok s') : Sound s' := by
  obtain ⟨t, ht⟩ := broadcast_of_ok hs
  exact h.of_sublist ht.sublist ht.same.nextPtr

theorem Sound.processParticipantUpdate {command : Bytes} {joining : Bool}
    (hs : processParticipantUpdate s command joining = .ok s') : Sound s' := by
  have hempty : Sound s.emptyList := ⟨List.nodup_nil, fun p hp => by cases hp⟩
  have hrule := processParticipantUpdate_rule (P := fun _ => Sound)
    (fun _ _ _ h => ⟨h.linked, h.older⟩) (fun _ _ _ _ _ _ h hi => h.insertParticipant hi) hs hempty
  by_cases hentry : HasEntry command
  · exact hrule.1 hentry
  · exact (hrule.2 hentry).1

end Structs

/-! ## When a leader is recorded -/

section Recorded

variable {env : Env} {s s' : Node}

/-- The flags of a list set by a test. -/
theorem filter_setLeaderBy (s : Node) (test : Participant → Bool) :
    (s.setLeaderBy test).participants.filter Participant.isLeader =
      (s.participants.filter test).map fun p => { p with isLeader := true } := by
  rw [Node.setLeaderBy, List.filter_map]
  refine List.map_congr_left fun p hp => ?_
  have htest : test p = true := (List.mem_filter.1 hp).2
  rw [htest]

/-- **Setting the leader by a test** records it exactly if one participant passes. -/
theorem led_setLeaderBy_iff (s : Node) (test : Participant → Bool) :
    Led (s.setLeaderBy test) ↔ (s.participants.filter test).length = 1 := by
  constructor
  · rintro ⟨leader, hflagged, -⟩
    rw [filter_setLeaderBy] at hflagged
    have hlen := congrArg List.length hflagged
    rwa [List.length_map] at hlen
  · intro hlen
    obtain ⟨p, hp⟩ := List.length_eq_one_iff.1 hlen
    refine ⟨{ p with isLeader := true }, ?_, ?_⟩
    · rw [filter_setLeaderBy, hp]
      rfl
    · rw [Node.setLeaderBy, hp]
      rfl

/-- A participant that is not the leader changes nothing. -/
theorem LedBy.insertParticipant {leader : Participant} {nickname ipAddress portNum : Bytes}
    (h : LedBy s leader) (hs : s.insertParticipant nickname ipAddress portNum false = .ok s') :
    LedBy s' leader := by
  obtain ⟨q, hq, -, hflag⟩ := inserted_of_insertParticipant hs none
  refine ⟨?_, ?_⟩
  · have hps : s'.participants = s.participants ++ [q] := hq.participants
    rw [hps, List.filter_append, h.flagged, List.filter_singleton, hflag]
    rfl
  · have hl : s'.leader = if q.isLeader then some q.toPeer else s.leader := hq.leader
    rw [hl, hflag]
    exact h.pointer

theorem led_insertParticipant {nickname ipAddress portNum : Bytes} (hnil : s.participants = [])
    (hs : s.insertParticipant nickname ipAddress portNum true = .ok s') : Led s' := by
  obtain ⟨q, hq, -, hflag⟩ := inserted_of_insertParticipant hs none
  refine ⟨q, ?_, ?_⟩
  · have hps : s'.participants = s.participants ++ [q] := hq.participants
    rw [hps, hnil, List.nil_append, List.filter_singleton, hflag]
    rfl
  · have hl : s'.leader = if q.isLeader then some q.toPeer else s.leader := hq.leader
    rw [hl, hflag]
    rfl

/-- **A PARTICIPANT_UPDATE** records a leader exactly if it has an entry. -/
theorem led_processParticipantUpdate_iff {command : Bytes} {joining : Bool}
    (hs : processParticipantUpdate s command joining = .ok s') : Led s' ↔ HasEntry command := by
  let P : Bool → Node → Prop := fun isFirst s => if isFirst then s.participants = [] else Led s
  have hprint : ∀ f s line, P f s → P f (s.print line) := by
    rintro (_ | _) s line hP
    · obtain ⟨leader, hled⟩ := hP
      exact ⟨leader, hled.flagged, hled.pointer⟩
    · exact hP
  have hinsert : ∀ f s s' nickname ipAddress portNum, P f s →
      s.insertParticipant nickname ipAddress portNum f = .ok s' → P false s' := by
    rintro (_ | _) s s' nickname ipAddress portNum hP hi
    · obtain ⟨leader, hled⟩ := hP
      exact ⟨leader, hled.insertParticipant hi⟩
    · exact led_insertParticipant hP hi
  have hrule := processParticipantUpdate_rule hprint hinsert hs rfl
  constructor
  · rintro ⟨leader, hled⟩
    by_contra hentry
    have hmem := hled.mem
    rw [(hrule.2 hentry).2] at hmem
    cases hmem
  · exact hrule.1

theorem Led.broadcast {message : Bytes} (h : Led s) (hlinked : Linked s)
    (hs : leaderBroadcastMessage env s message = .ok s') : Led s' := by
  obtain ⟨leader, hled⟩ := h
  obtain ⟨t, ht⟩ := broadcast_of_ok hs
  exact ⟨leader, ht.led hlinked hled⟩

end Recorded

/-! ## Runs -/

section Steps

variable {env : Env} {locals : Locals} {s s' : Node} {event : Event} {p p' : Process}
  {o : Occurrence}

/-- The list and the pointer are those of another node. -/
theorem Led.congr (h : Led s) (hps : s'.participants = s.participants)
    (hleader : s'.leader = s.leader) : Led s' := by
  obtain ⟨leader, hled⟩ := h
  exact ⟨leader, hps ▸ hled.flagged, hleader.trans hled.pointer⟩

theorem Sound.congr (h : Sound s) (hps : s'.participants = s.participants)
    (hptr : s'.nextPtr = s.nextPtr) : Sound s' :=
  h.of_sublist (hps ▸ List.Sublist.refl _) hptr

theorem startElection_frame (h : startElection env s = .ok s') :
    s'.participants = s.participants ∧ s'.nextPtr = s.nextPtr ∧ s'.leader = s.leader := by
  obtain ⟨log, rfl, -⟩ := startElection_ok h
  exact ⟨rfl, rfl, rfl⟩

/-- A property of nodes that depends on the list, the pointer to the leader and the own nickname,
and that is kept by a broadcast and by new flags. -/
structure Stable (P : Node → Prop) : Prop where
  congr {s s' : Node} : P s → s'.participants = s.participants → s'.leader = s.leader →
    s'.nextPtr = s.nextPtr → s'.thisNickname = s.thisNickname → P s'
  broadcast {env : Env} {s s' : Node} {message : Bytes} : P s →
    leaderBroadcastMessage env s message = .ok s' → P s'
  flags {s : Node} (test : Participant → Bool) : P s → P (s.setLeaderBy test)

/-- **Every reaction keeps such a property**, if the insertion of a participant and a list that is
taken over do. -/
theorem Stable.reaction {P : Node → Prop} (hP : Stable P) (h : Reaction env locals s event s')
    (hs : P s)
    (hinsert : ∀ buf rest src s₁, event = .receive buf src → s.isLeader = true →
      Reads locals buf messageAddMe rest →
      s.insertParticipant rest (inetNtoa src) (portText src) false = .ok s₁ → P s₁)
    (hupdate : ∀ buf s₁, processParticipantUpdate s buf false = .ok s₁ → P s₁) : P s' := by
  cases h with
  | silent lines => exact hP.congr hs rfl rfl rfl rfl
  | numbered _ _ _ hb =>
    have hclock : P { s with clockNum := s.clockNum + 1 } := hP.congr hs rfl rfl rfl rfl
    exact hP.congr (hP.broadcast hclock hb) rfl rfl rfl rfl
  | refused _ _ _ => exact hP.congr hs rfl rfl rfl rfl
  | admitted hl hreads _ hi _ hb =>
    exact hP.congr (hP.broadcast (hinsert _ _ _ _ rfl hl hreads hi) hb) rfl rfl rfl rfl
  | responded _ hr =>
    obtain ⟨log, started, rfl⟩ := respondToLeaderElection_frame hr
    exact hP.congr hs rfl rfl rfl rfl
  | heard _ _ _ => exact hP.congr hs rfl rfl rfl rfl
  | updated _ _ hu => exact hupdate _ _ hu
  | referred _ _ _ => exact hP.congr hs rfl rfl rfl rfl
  | stopped _ _ => exact hP.congr hs rfl rfl rfl rfl
  | followed _ _ => exact hP.congr (hP.flags _ hs) rfl rfl rfl rfl
  | asked _ _ => exact hP.congr hs rfl rfl rfl rfl
  | suspected _ _ _ _ _ he =>
    obtain ⟨log, rfl, -⟩ := startElection_ok he
    exact hP.congr hs rfl rfl rfl rfl
  | beaten _ _ hb => exact hP.broadcast hs hb
  | declared _ _ _ hd =>
    obtain ⟨s₁, s₂, notice, update, lines, hvictory, -, hannounce, rfl⟩ :=
      declareVictory_broadcasts hd
    have hvictorious : P s.victorious := hP.congr (hP.flags _ hs) rfl rfl rfl rfl
    exact hP.congr (hP.broadcast (hP.broadcast hvictorious hvictory) hannounce) rfl rfl rfl rfl
  | restarted _ _ he =>
    obtain ⟨log, rfl, -⟩ := startElection_ok he
    exact hP.congr hs rfl rfl rfl rfl

theorem stable_sound : Stable Sound where
  congr h hps _ hptr _ := h.congr hps hptr
  broadcast h hs := h.broadcast hs
  flags test h := h.setLeaderBy test

/-- Every reaction leaves the structs of the list different. -/
theorem Reaction.sound (h : Reaction env locals s event s') (hs : Sound s) : Sound s' :=
  stable_sound.reaction h hs (fun _ _ _ _ _ _ _ hi => hs.insertParticipant hi)
    fun _ _ hu => Sound.processParticipantUpdate hu

/-- **Every reaction that names a leader if need be** leaves one recorded. -/
theorem Reaction.led (h : Reaction env locals s event s') (hs : Sound s) (hled : Led s)
    (hok : NamesLeader (.chatting s) ⟨env, locals, event⟩) : Led s' := by
  cases h with
  | silent lines => exact hled.congr rfl rfl
  | numbered _ _ _ hb =>
    have hclock : Led { s with clockNum := s.clockNum + 1 } := hled.congr rfl rfl
    exact (hclock.broadcast hs.linked hb).congr rfl rfl
  | refused _ _ _ => exact hled.congr rfl rfl
  | admitted _ _ _ hinsert _ hb =>
    obtain ⟨leader, hleader⟩ := hled
    have hinserted : Led _ := ⟨leader, hleader.insertParticipant hinsert⟩
    exact (hinserted.broadcast (hs.insertParticipant hinsert).linked hb).congr rfl rfl
  | responded _ hr =>
    obtain ⟨log, started, rfl⟩ := respondToLeaderElection_frame hr
    exact hled.congr rfl rfl
  | heard _ _ _ => exact hled.congr rfl rfl
  | updated hl hreads hu => exact (led_processParticipantUpdate_iff hu).2 ((hok hl).1 _ hreads)
  | referred _ _ _ => exact hled.congr rfl rfl
  | stopped _ _ => exact hled.congr rfl rfl
  | followed hl hreads =>
    exact ((led_setLeaderBy_iff s _).2 ((hok hl).2 _ hreads)).congr rfl rfl
  | asked _ _ => exact hled.congr rfl rfl
  | suspected _ _ _ _ _ he =>
    obtain ⟨hps, -, hleader⟩ := startElection_frame he
    exact hled.congr hps hleader
  | beaten _ _ hb => exact hled.broadcast hs.linked hb
  | declared _ _ _ hd =>
    obtain ⟨s₁, s₂, notice, update, lines, hvictory, -, hupdate, rfl⟩ := declareVictory_broadcasts hd
    have hsound : Sound s.victorious := (hs.setLeaderBy _).congr rfl rfl
    have hvictorious : Led s.victorious := ((led_setLeaderBy_iff s _).2 hok).congr rfl rfl
    have hs₁ := hsound.broadcast hvictory
    exact ((hvictorious.broadcast hsound.linked hvictory).broadcast hs₁.linked hupdate).congr rfl rfl
  | restarted _ _ he =>
    obtain ⟨hps, -, hleader⟩ := startElection_frame he
    exact hled.congr hps hleader

/-- The record of a process is right, once it has a list. -/
def Recorded : Process → Prop
  | .joining _ => True
  | .chatting s => Sound s ∧ Led s

theorem recorded_of_started (h : Started p) : Recorded p := by
  cases h with
  | founder h =>
    obtain ⟨s, hinsert, h⟩ := Fault.bind_eq_ok.1 h
    obtain rfl := Except.ok.inj h
    have hnone : ∀ nickname, Sound (Node.modelInit nickname true) :=
      fun _ => ⟨List.nodup_nil, fun p hp => by cases hp⟩
    exact ⟨((hnone _).insertParticipant hinsert).congr rfl rfl,
      (led_insertParticipant rfl hinsert).congr rfl rfl⟩
  | joiner h => exact trivial

theorem Recorded.step (h : Recorded p) (hok : NamesLeader p o) (hs : soloStep p o = some p') :
    Recorded p' := by
  cases p with
  | joining j =>
    obtain ⟨buf, src, hevent, hs⟩ := soloStep_joining hs
    unfold NamesLeader at hok
    rw [hevent] at hok
    obtain ⟨j₁, j', rfl, -, -⟩ | ⟨s', hreads, rfl, hupdate⟩ := joinReceive_ok hs
    · exact trivial
    · exact ⟨Sound.processParticipantUpdate hupdate,
        (led_processParticipantUpdate_iff hupdate).2 (hok hreads)⟩
  | chatting s =>
    obtain ⟨s', hran, rfl⟩ := soloStep_chatting hs
    have hreaction := reaction_of_chatStep hran
    exact ⟨hreaction.sound h.1, hreaction.led h.1 h.2 hok⟩

/-- **The leader bookkeeping** is right in every state of every run in which each new leader is one
of the participants. -/
theorem led_of_reach (h : Reach soloStep NamesLeader Started (.chatting s)) :
    ∃ leader, LedBy s leader :=
  (h.invariant (I := Recorded) (fun _ h0 => recorded_of_started h0)
    fun _ _ _ hI hok hs => hI.step hok hs).2

end Steps

/-! ## Two runs -/

/-- The process is a leader in `chat`. -/
def Presides (p : Process) (_ : Occurrence) : Prop := p.node?.map Node.isLeader = some true

instance (p : Process) (o : Occurrence) : Decidable (Presides p o) :=
  inferInstanceAs (Decidable (_ = _))

/-- A leader takes no part in the naming of another one. -/
theorem Presides.namesLeader {p p' : Process} {o : Occurrence} (h : Presides p o)
    (hs : soloStep p o = some p') : NamesLeader p o := by
  obtain ⟨s, hp, hl⟩ := Option.map_eq_some_iff.1 h
  obtain rfl := Process.eq_chatting hp
  unfold NamesLeader
  cases hevent : o.event with
  | receive buf src => exact fun hf => absurd hf (by simp [hl])
  | victory =>
    obtain ⟨s', hran, -⟩ := soloStep_chatting hs
    rw [hevent, chatStep, if_neg (by simp [hl])] at hran
    cases hran
  | stdin buf => trivial
  | heartbeat => trivial
  | restart => trivial

theorem led_of_reach_challenge :
    ∃ s, Reach soloStep NamesLeader Started (.chatting s) ∧ s.participants.length = 2 ∧
      ∃ leader, LedBy s leader := by
  have hrun : ((startChat (str "a") (str "127.0.0.1") (str "80")).toOption.bind fun s =>
      ((exec soloStep Presides (.chatting s) challenge).bind Process.node?).map
        fun s => s.participants.length) = some 2 := by decide
  obtain ⟨s, hs, hrun⟩ := Option.bind_eq_some_iff.1 hrun
  have hstarted : Started (.chatting s) := .founder (Fault.toOption_eq_some.1 hs)
  obtain ⟨s', hpresides, hlen⟩ := exists_reach_of_exec hstarted hrun
  have hreach := hpresides.mono fun _ _ _ hok hstep => ⟨Presides.namesLeader hok hstep, hstep⟩
  exact ⟨s', hreach, hlen, led_of_reach hreach⟩

/-- A process at port 81 is let in by the leader at port 80 and then receives an ELECTION_VICTORY
from port 82, which it does not know. -/
def usurper : List Occurrence :=
  [⟨calmEnv, .blank,
      .receive (str "PARTICIPANT_UPDATE @a:127.0.0.1:80 b:127.0.0.1:81 = NOTICE") (localHost 80)⟩,
    ⟨calmEnv, .blank, .receive messageElectionVictory (localHost 82)⟩]

/-- Then nobody in its list is the leader. -/
theorem not_led :
    ¬ ∀ s, Reach soloStep (fun _ _ => True) Started (.chatting s) → ∃ leader, LedBy s leader := by
  intro h
  have hrun : ((joinChat calmEnv (str "b") (str "127.0.0.1") (str "81")
      (str "127.0.0.1:80")).toOption.bind fun j =>
        ((exec soloStep (fun _ _ => True) (.joining j) usurper).bind Process.node?).map
          fun s => (s.participants.filter Participant.isLeader).length) = some 0 := by decide
  obtain ⟨j, hj, hrun⟩ := Option.bind_eq_some_iff.1 hrun
  have hstarted : Started (.joining j) := .joiner (Fault.toOption_eq_some.1 hj)
  obtain ⟨s, hreach, hlen⟩ := exists_reach_of_exec hstarted hrun
  obtain ⟨leader, hled⟩ := h s hreach
  rw [hled.flagged] at hlen
  cases hlen

end Dchat.Chat
