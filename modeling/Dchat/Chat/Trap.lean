import Dchat.Chat.Group
import Dchat.Chat.Join
import Dchat.Chat.Reaction

/-!
# A leader in an election

`in_election` is cleared by `set_new_leader`, on an ELECTION_VICTORY, and by `declare_victory`, on a
timer. A leader knows no ELECTION_VICTORY and has no election timers, but it answers a
START_ELECTION like everybody else, and sets `in_election`.

* `Trapped.step`: a leader in an election stays one, whatever happens.
* `escapes_iff`: a node in an election has a way out of it exactly if it is no leader; in a run in
  which no leader is sent a START_ELECTION, there always is one.
* `not_escapes`: a founder, its first participant and a START_ELECTION are enough for the trap.
-/

namespace Dchat.Chat

open CString Stdio RMP Runs

/-! ## What an event leaves alone -/

section Frames

variable {env : Env} {locals : Locals} {s s' : Node}

theorem leaderBroadcastMessage_same {message : Bytes}
    (h : leaderBroadcastMessage env s message = .ok s') : SameNode s s' := by
  obtain ⟨t, ht⟩ := broadcast_of_ok h
  exact ht.same

/-- A response to an election sends something and sets the flags. -/
theorem respondToLeaderElection_frame {src : RmpAddress}
    (h : respondToLeaderElection env locals s src = .ok s') :
    ∃ log started, s' =
      { s with sent := s.sent ++ log, inElection := true, startedElection := started } := by
  obtain ⟨nickname, -, ⟨-, h⟩ | ⟨-, rfl⟩⟩ := respondToLeaderElection_eq_ok h
  · obtain ⟨log, rfl, -⟩ := startElection_ok h
    refine ⟨(s.rmpSendTo env src messageStopElection).2.sent.drop s.sent.length ++ log, true, ?_⟩
    simp [Node.rmpSendTo]
  · exact ⟨[], false, by rw [List.append_nil]⟩

theorem insertParticipant_role {nickname ipAddress portNum : Bytes} {isLeader : Bool}
    (h : s.insertParticipant nickname ipAddress portNum isLeader = .ok s') : SameRole s s' := by
  obtain ⟨q, hq, -, -⟩ := inserted_of_insertParticipant h none
  exact hq.role

/-- A node that has declared victory is a leader out of the election. -/
theorem declareVictory_flags (h : declareVictory env s = .ok s') :
    s'.isLeader = true ∧ s'.inElection = false := by
  obtain ⟨s₁, s₂, notice, update, lines, hvictory, -, hupdate, rfl⟩ := declareVictory_broadcasts h
  have hsame := (leaderBroadcastMessage_same hvictory).trans (leaderBroadcastMessage_same hupdate)
  exact ⟨hsame.isLeader, hsame.inElection⟩

end Frames

/-! ## The trap -/

/-- A leader in an election. -/
def Trapped (p : Process) : Prop := ∃ s, p = .chatting s ∧ s.isLeader = true ∧ s.inElection = true

/-- Some continuation of the events of a node takes it out of the election. -/
def Escapes (s : Node) : Prop :=
  ∃ s', Reach soloStep (fun _ _ => True) (· = .chatting s) (.chatting s') ∧ s'.inElection = false

/-- A leader is sent no START_ELECTION. -/
def Unchallenged (p : Process) (o : Occurrence) : Prop :=
  ∀ s buf src rest, p = .chatting s → s.isLeader = true → o.event = .receive buf src →
    ¬ Reads o.locals buf messageStartElection rest

section Steps

variable {env : Env} {locals : Locals} {s s' : Node} {event : Event} {p p' : Process}
  {o : Occurrence}

/-- **No reaction takes a leader out of an election.** -/
theorem Reaction.inElection (h : Reaction env locals s event s') (hl : s.isLeader = true)
    (hin : s.inElection = true) : s'.isLeader = true ∧ s'.inElection = true := by
  have hnot : s.isLeader ≠ false := by simp [hl]
  cases h with
  | silent lines => exact ⟨hl, hin⟩
  | numbered _ _ _ h =>
    have hsame := leaderBroadcastMessage_same h
    exact ⟨hsame.isLeader.trans hl, hsame.inElection.trans hin⟩
  | refused _ _ _ => exact ⟨hl, hin⟩
  | admitted _ _ _ hinsert _ h =>
    have hrole := insertParticipant_role hinsert
    have hsame := leaderBroadcastMessage_same h
    exact ⟨hsame.isLeader.trans (hrole.isLeader.trans hl),
      hsame.inElection.trans (hrole.inElection.trans hin)⟩
  | responded _ h =>
    obtain ⟨log, started, rfl⟩ := respondToLeaderElection_frame h
    exact ⟨hl, rfl⟩
  | beaten _ hidle _ => exact absurd hidle (by simp [hin])
  | heard hf _ _ => exact absurd hf hnot
  | updated hf _ _ => exact absurd hf hnot
  | referred hf _ _ => exact absurd hf hnot
  | stopped hf _ => exact absurd hf hnot
  | followed hf _ => exact absurd hf hnot
  | asked hf _ => exact absurd hf hnot
  | suspected hf _ _ _ _ _ => exact absurd hf hnot
  | declared hf _ _ _ => exact absurd hf hnot
  | restarted hf _ _ => exact absurd hf hnot

theorem Trapped.step (h : Trapped p) (hs : soloStep p o = some p') : Trapped p' := by
  obtain ⟨s, rfl, hl, hin⟩ := h
  obtain ⟨s', hran, rfl⟩ := soloStep_chatting hs
  exact ⟨s', rfl, (reaction_of_chatStep hran).inElection hl hin⟩

theorem not_escapes_of_leader (hl : s.isLeader = true) (hin : s.inElection = true) :
    ¬ Escapes s := by
  rintro ⟨s', hreach, hout⟩
  have htrapped := hreach.invariant (I := Trapped) (by rintro _ rfl; exact ⟨s, rfl, hl, hin⟩)
    fun _ _ _ hI _ hs => hI.step hs
  obtain ⟨s₁, heq, -, hin'⟩ := htrapped
  obtain rfl := Process.chatting.inj heq
  exact absurd hout (by simp [hin'])

/-- An ELECTION_VICTORY takes a non-leader out of an election. -/
theorem escapes_of_nonLeader (hl : s.isLeader = false) : Escapes s := by
  let o : Occurrence := ⟨⟨fun _ _ => none, fun _ _ _ => 0⟩, .blank,
    .receive messageElectionVictory ⟨0, 0⟩⟩
  have hran : chatStep o.env o.locals s o.event = some (.ok (setNewLeader s ⟨0, 0⟩)) := by
    rw [chatStep_receive_nonLeader hl, nonLeaderReceive_electionVictory]
  refine ⟨setNewLeader s ⟨0, 0⟩, ?_, rfl⟩
  have hstart : Reach soloStep (fun _ _ => True) (· = .chatting s) (.chatting s) := .start rfl
  exact hstart.next trivial (soloStep_of_chatStep hran)

/-- A process that is no leader in an election. -/
def Untrapped : Process → Prop
  | .joining j => j.node.isLeader = false
  | .chatting s => s.isLeader = true → s.inElection = false

theorem untrapped_of_started (h : Started p) : Untrapped p := by
  cases h with
  | founder h =>
    obtain ⟨s, hinsert, h⟩ := Fault.bind_eq_ok.1 h
    obtain rfl := Except.ok.inj h
    exact fun _ => (insertParticipant_role hinsert).inElection
  | joiner h =>
    unfold joinChat at h
    dsimp only at h
    split at h
    · cases h
    split at h
    · cases h
    split at h
    · cases h
    split at h
    · cases h
    obtain ⟨e, rfl, -⟩ := sendAddMe_ok h
    rfl

/-- **The only way into the trap** is a START_ELECTION for a leader. -/
theorem Untrapped.step (h : Untrapped p) (hok : Unchallenged p o) (hs : soloStep p o = some p') :
    Untrapped p' := by
  cases p with
  | joining j =>
    obtain ⟨buf, src, -, hs⟩ := soloStep_joining hs
    obtain ⟨j₁, j', rfl, hnode, hsend⟩ | ⟨s', -, rfl, hupdate⟩ := joinReceive_ok hs
    · obtain ⟨e, rfl, -⟩ := sendAddMe_ok hsend
      exact (congrArg Node.isLeader hnode).trans h
    · have hl : s'.isLeader = false := (processParticipantUpdate_role hupdate).isLeader.trans h
      exact fun hl' => absurd hl (by simp [hl'])
  | chatting s =>
    obtain ⟨s', hran, rfl⟩ := soloStep_chatting hs
    have hreaction := reaction_of_chatStep hran
    generalize hevent : o.event = event at hreaction
    change s'.isLeader = true → s'.inElection = false
    have hstill : s'.isLeader = false → s'.isLeader = true → s'.inElection = false := by
      intro hf hl
      exact absurd hl (by simp [hf])
    cases hreaction with
    | silent lines => exact h
    | numbered hl _ _ hb =>
      have hsame := leaderBroadcastMessage_same hb
      exact fun _ => hsame.inElection.trans (h hl)
    | refused hl _ _ => exact fun _ => h hl
    | admitted hl _ _ hinsert _ hb =>
      have hrole := insertParticipant_role hinsert
      exact fun _ => (leaderBroadcastMessage_same hb).inElection.trans (hrole.inElection.trans (h hl))
    | responded hreads hr =>
      obtain ⟨log, started, rfl⟩ := respondToLeaderElection_frame hr
      exact fun hl => absurd hreads (hok s _ _ _ rfl hl hevent)
    | beaten _ hidle hb => exact fun _ => (leaderBroadcastMessage_same hb).inElection.trans hidle
    | heard hf _ _ => exact hstill hf
    | updated hf _ hu => exact hstill ((processParticipantUpdate_role hu).isLeader.trans hf)
    | referred hf _ _ => exact hstill hf
    | stopped hf _ => exact hstill hf
    | followed hf _ => exact fun _ => rfl
    | asked hf _ => exact hstill hf
    | suspected hf _ _ _ _ he =>
      obtain ⟨log, rfl, -⟩ := startElection_ok he
      exact hstill hf
    | declared _ _ _ hd => exact fun _ => (declareVictory_flags hd).2
    | restarted hf _ he =>
      obtain ⟨log, rfl, -⟩ := startElection_ok he
      exact hstill hf

theorem untrapped_of_reach (h : Reach soloStep Unchallenged Started p) : Untrapped p :=
  h.invariant (fun _ h0 => untrapped_of_started h0) fun _ _ _ hI hok hs => hI.step hok hs

end Steps

/-- **When a node can leave an election**: if it is no leader. It is none in any run in which
leaders are sent no START_ELECTION. -/
theorem escapes_iff (s : Node) (hin : s.inElection = true) : (Escapes s ↔ s.isLeader = false) ∧
    (Reach soloStep Unchallenged Started (.chatting s) → Escapes s) := by
  constructor
  · constructor
    · intro hescapes
      by_contra hl
      exact not_escapes_of_leader (eq_true_of_ne_false hl) hin hescapes
    · exact escapes_of_nonLeader
  · intro hreach
    have huntrapped : s.isLeader = true → s.inElection = false := untrapped_of_reach hreach
    apply escapes_of_nonLeader
    by_contra hl
    exact absurd (huntrapped (eq_true_of_ne_false hl)) (by simp [hin])

/-! ## Two runs -/

/-- Every send succeeds, and addresses of the local host are resolved. -/
def calmEnv : Env where
  getAddressFor := loopbackAddress
  sendTo _ _ message := message.length + 1

/-- The process does not lead. -/
def Subordinate (p : Process) (_ : Occurrence) : Prop := p.node?.map Node.isLeader ≠ some true

instance (p : Process) (o : Occurrence) : Decidable (Subordinate p o) :=
  inferInstanceAs (Decidable (_ ≠ _))

theorem Subordinate.unchallenged {p : Process} {o : Occurrence} (h : Subordinate p o) :
    Unchallenged p o := by
  intro s buf src rest hp hl
  refine absurd ?_ h
  rw [hp, Process.node?, Option.map_some, hl]

/-- A process at port 81 is let in by the leader at port 80, which then does not answer it. -/
def desertion : List Occurrence :=
  [⟨calmEnv, .blank,
      .receive (str "PARTICIPANT_UPDATE @a:127.0.0.1:80 b:127.0.0.1:81 = NOTICE") (localHost 80)⟩,
    ⟨{ calmEnv with sendTo := fun _ _ _ => rmpETimeout }, .blank, .heartbeat⟩]

theorem escapes_iff_desertion : ∃ s, s.inElection = true ∧
    Reach soloStep Unchallenged Started (.chatting s) ∧ Escapes s := by
  have hrun : ((joinChat calmEnv (str "b") (str "127.0.0.1") (str "81")
      (str "127.0.0.1:80")).toOption.bind fun j =>
        ((exec soloStep Subordinate (.joining j) desertion).bind Process.node?).map
          Node.inElection) = some true := by decide
  obtain ⟨j, hj, hrun⟩ := Option.bind_eq_some_iff.1 hrun
  have hstarted : Started (.joining j) := .joiner (Fault.toOption_eq_some.1 hj)
  obtain ⟨s, hsubordinate, hin⟩ := exists_reach_of_exec hstarted hrun
  have hreach := hsubordinate.mono fun _ _ _ hok hstep => ⟨Subordinate.unchallenged hok, hstep⟩
  exact ⟨s, hin, hreach, (escapes_iff s hin).2 hreach⟩

/-- A founder at port 80 lets in a participant at port 81, which then starts an election. -/
def challenge : List Occurrence :=
  [⟨calmEnv, .blank, .receive (addMeCmd (str "b")) (localHost 81)⟩,
    ⟨calmEnv, .blank, .receive messageStartElection (localHost 81)⟩]

theorem trapped_challenge :
    ∃ s, Reach soloStep (fun _ _ => True) Started (.chatting s) ∧
      s.isLeader = true ∧ s.inElection = true := by
  have hrun : ((startChat (str "a") (str "127.0.0.1") (str "80")).toOption.bind fun s =>
      ((exec soloStep (fun _ _ => True) (.chatting s) challenge).bind Process.node?).map
        fun s => (s.isLeader, s.inElection)) = some (true, true) := by decide
  obtain ⟨s, hs, hrun⟩ := Option.bind_eq_some_iff.1 hrun
  have hstarted : Started (.chatting s) := .founder (Fault.toOption_eq_some.1 hs)
  obtain ⟨s', hreach, hflags⟩ := exists_reach_of_exec hstarted hrun
  obtain ⟨hl, hin⟩ := Prod.mk.inj hflags
  exact ⟨s', hreach, hl, hin⟩

/-- A leader that heeds an election never leaves it. -/
theorem not_escapes :
    ¬ ∀ s, Reach soloStep (fun _ _ => True) Started (.chatting s) → s.inElection = true →
      Escapes s := by
  intro h
  obtain ⟨s, hreach, hl, hin⟩ := trapped_challenge
  exact not_escapes_of_leader hl hin (h s hreach hin)

end Dchat.Chat
