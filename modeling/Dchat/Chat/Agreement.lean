import Dchat.Chat.Chronicle

/-!
# Agreement on the participants

As long as nobody takes over, the list of a participant is that of the last PARTICIPANT_UPDATE it
has received from the founder (`Shows`), and the last one that the founder has sent it announces
the founder's own list.

* `snapshot_of_reach`: every list is one that the founder has broadcast.
* `agreement_of_reach`: a participant in the founder's list to which no PARTICIPANT_UPDATE is under
  way has the same list and the same leader as the founder.
-/

namespace Dchat.Chat

open CString Stdio RMP Links Runs

/-! ## The last PARTICIPANT_UPDATE -/

/-- The texts and the flag of a participant. -/
def Participant.entry (p : Participant) : (Bytes × Bytes × Bytes) × Bool := (p.fields, p.isLeader)

/-- The entries that a PARTICIPANT_UPDATE announces, the leader first. -/
def announcedList (leader : Peer) (ps : List Participant) : List ((Bytes × Bytes × Bytes) × Bool) :=
  (leader.fields, true) :: (others ps).map fun p => (p.fields, false)

/-- The message is a PARTICIPANT_UPDATE. -/
def isUpdate (body : Bytes) : Bool := commandOf body = messageParticipantUpdate

/-- The last PARTICIPANT_UPDATE of some messages. -/
def latestUpdate (l : List Bytes) : Option Bytes := (l.filter isUpdate).getLast?

/-- The node has the list and the leader that `process_participant_update` makes of a message. -/
def Shows (s : Node) (update : Bytes) : Prop :=
  ∃ s₀ joining s₁, processParticipantUpdate s₀ update joining = .ok s₁ ∧
    s.participants = s₁.participants ∧ s.leader = s₁.leader

section Updates

variable {l l' : List Bytes} {m : Bytes}

theorem isUpdate_iff : isUpdate m = true ↔ commandOf m = messageParticipantUpdate :=
  decide_eq_true_iff

theorem isUpdate_updateText (leader : Peer) (ps : List Participant) (notice : Bytes) :
    isUpdate (updateText leader ps notice) = true := isUpdate_iff.2 (commandOf_updateText ..)

theorem latestUpdate_append : latestUpdate (l ++ l') = (latestUpdate l').or (latestUpdate l) := by
  rw [latestUpdate, List.filter_append, List.getLast?_append]
  rfl

theorem latestUpdate_eq_none (h : ∀ m ∈ l, isUpdate m = false) : latestUpdate l = none := by
  have hnone : l.filter isUpdate = [] := List.filter_eq_nil_iff.2 fun m hm => by rw [h m hm]; decide
  rw [latestUpdate, hnone]
  rfl

/-- Messages that end with a PARTICIPANT_UPDATE. -/
theorem latestUpdate_of_getLast (h : l.getLast? = some m) (hm : isUpdate m = true) :
    latestUpdate l = some m := by
  obtain ⟨before, rfl⟩ := List.getLast?_eq_some_iff.1 h
  rw [latestUpdate_append]
  have hlast : latestUpdate [m] = some m := by rw [latestUpdate, List.filter_singleton, hm]; rfl
  rw [hlast]
  rfl

theorem mem_of_latestUpdate (h : latestUpdate l = some m) : m ∈ l :=
  (List.mem_filter.1 (List.mem_of_getLast? h)).1

/-- The list that a node shows. -/
theorem Shows.entries {s : Node} {leader : Peer} {ps : List Participant} {notice : Bytes}
    (h : Shows s (updateText leader ps notice)) (hleader : leader.Plain)
    (hps : ∀ p ∈ others ps, p.Plain) : s.participants.map Participant.entry = announcedList leader ps ∧
      s.leader.map Peer.fields = some leader.fields := by
  obtain ⟨s₀, joining, s₁, hs₁, hparticipants, hpointer⟩ := h
  obtain ⟨s₂, q, qs, hs₂, hd⟩ := decoded_updateText hleader hps notice s₀ joining
  obtain rfl := Except.ok.inj (hs₁.symm.trans hs₂)
  have hqs : qs.map Participant.entry = (others ps).map fun p => (p.fields, false) := by
    have hflags : ∀ p ∈ qs, p.entry = (p.fields, false) :=
      fun p hp => by rw [Participant.entry, hd.unflagged p hp]
    have hpairs := congrArg (List.map fun f => (f, false)) hd.others
    rw [List.map_map, List.map_map] at hpairs
    rw [List.map_congr_left hflags]
    exact hpairs
  constructor
  · rw [hparticipants, hd.participants, List.map_cons, hqs, Participant.entry, hd.first, hd.flagged]
    rfl
  · rw [hpointer, hd.pointer, Option.map_some, hd.first]

end Updates

/-! ## What changes a list -/

section Lists

variable {env : Env} {locals : Locals} {s s' : Node} {event : Event}

/-- A non-leader changes its list on a PARTICIPANT_UPDATE or an ELECTION_VICTORY only. -/
theorem Reaction.list (h : Reaction env locals s event s') (hl : s.isLeader = false)
    (hvictory : event ≠ .victory) :
    (s'.participants = s.participants ∧ s'.leader = s.leader) ∨
      ∃ buf src rest, event = .receive buf src ∧ (Reads locals buf messageParticipantUpdate rest ∨
        Reads locals buf messageElectionVictory rest) := by
  have hleader : s.isLeader = true → False := fun ht => by
    rw [ht] at hl
    cases hl
  cases h with
  | silent lines => exact .inl ⟨rfl, rfl⟩
  | numbered ht _ _ _ => exact (hleader ht).elim
  | refused ht _ _ => exact (hleader ht).elim
  | admitted ht _ _ _ _ _ => exact (hleader ht).elim
  | responded _ hr =>
    obtain ⟨log, started, rfl⟩ := respondToLeaderElection_frame hr
    exact .inl ⟨rfl, rfl⟩
  | heard _ _ _ => exact .inl ⟨rfl, rfl⟩
  | updated _ hreads _ => exact .inr ⟨_, _, _, rfl, .inl hreads⟩
  | referred _ _ _ => exact .inl ⟨rfl, rfl⟩
  | stopped _ _ => exact .inl ⟨rfl, rfl⟩
  | followed _ hreads => exact .inr ⟨_, _, _, rfl, .inr hreads⟩
  | asked _ _ => exact .inl ⟨rfl, rfl⟩
  | suspected _ _ _ _ _ hstart =>
    obtain ⟨log, rfl, -⟩ := startElection_ok hstart
    exact .inl ⟨rfl, rfl⟩
  | beaten ht _ _ => exact (hleader ht).elim
  | declared _ _ _ _ => exact absurd rfl hvictory
  | restarted _ _ hstart =>
    obtain ⟨log, rfl, -⟩ := startElection_ok hstart
    exact .inl ⟨rfl, rfl⟩

end Lists

/-! ## The list of the founder -/

/-- The first entry of a list is the only one with the flag. -/
def Fronted (ps : List Participant) : Prop :=
  ∃ q rest, ps = q :: rest ∧ q.isLeader = true ∧ ∀ p ∈ rest, p.isLeader = false

section Founder

variable {resolve : Bytes → Bytes → Option RmpAddress} {roll : List Member} {a address : RmpAddress}
  {weather : Weather} {locals : Locals} {s s' base : Node} {event : Event}
  {ps ps' : List Participant}

theorem Fronted.sublist (h : Fronted ps) (hsub : ps'.Sublist ps)
    (hflag : ∃ p ∈ ps', p.isLeader = true) : Fronted ps' := by
  obtain ⟨q, rest, rfl, hq, hrest⟩ := h
  obtain ⟨p, hp, hpflag⟩ := hflag
  cases hsub with
  | cons _ hsub =>
    rw [hrest p (hsub.subset hp)] at hpflag
    cases hpflag
  | cons_cons _ hsub => exact ⟨q, _, rfl, hq, fun p hp => hrest p (hsub.subset hp)⟩

theorem Fronted.append (h : Fronted ps) {q : Participant} (hq : q.isLeader = false) :
    Fronted (ps ++ [q]) := by
  obtain ⟨first, rest, rfl, hfirst, hrest⟩ := h
  refine ⟨first, rest ++ [q], rfl, hfirst, fun p hp => ?_⟩
  obtain hp | hp := List.mem_append.1 hp
  · exact hrest p hp
  · exact List.mem_singleton.1 hp ▸ hq

/-- A list with its leader first is what its PARTICIPANT_UPDATE announces. -/
theorem Fronted.entries {leader : Participant} (h : Fronted s.participants) (hled : LedBy s leader) :
    s.participants.map Participant.entry = announcedList leader.toPeer s.participants := by
  obtain ⟨q, rest, hps, hq, hrest⟩ := h
  have hnone : rest.filter Participant.isLeader = [] :=
    List.filter_eq_nil_iff.2 fun p hp => by rw [hrest p hp]; decide
  have hflagged := hled.flagged
  rw [hps, List.filter_cons, if_pos hq, hnone] at hflagged
  obtain rfl := (List.cons.inj hflagged).1
  have hothers : others (q :: rest) = rest := by
    rw [others_cons, if_pos hq]
    exact List.filter_eq_self.2 fun p hp => by rw [hrest p hp]; rfl
  have hflags : rest.map Participant.entry = rest.map fun p => (p.fields, false) :=
    List.map_congr_left fun p hp => by rw [Participant.entry, hrest p hp]
  rw [hps, announcedList, hothers, List.map_cons, hflags, Participant.entry, hq]

/-- The list that a leader announces. -/
theorem Announcer.fronted (hbase : Announcer locals s event base) (hl : s.isLeader = true)
    (h : Fronted s.participants) : Fronted base.participants ∧ base.leader = s.leader := by
  cases hbase with
  | leader _ => exact ⟨h, rfl⟩
  | winner hf _ =>
    rw [hf] at hl
    cases hl
  | host _ _ _ hinsert =>
    obtain ⟨q, hq, -, hflag⟩ := inserted_of_insertParticipant hinsert none
    have hps : base.participants = s.participants ++ [q] := hq.participants
    have hleader : base.leader = if q.isLeader then some q.toPeer else s.leader := hq.leader
    rw [hps, hleader, hflag]
    exact ⟨h.append hflag, rfl⟩

/-- **What the founder's messages of a round tell about its list**: nothing, and the list is the
same, or the last PARTICIPANT_UPDATE of them is that of the list. -/
theorem LeaderRound.latest (h : LeaderRound (Session.env resolve weather) locals s event s')
    (hroll : Enrolled resolve roll) (hs : Consistent roll address s) (hl : s.isLeader = true)
    (hread : ∀ buf src, event = .receive buf src →
      Authentic (Census resolve roll) roll ⟨src, address, buf⟩)
    (hfronted : Fronted s.participants) : Fronted s'.participants ∧ s'.leader = s.leader ∧
      ∀ a ∈ audience resolve s',
        (latestUpdate (broadcasts none (s'.sent.filter fun e => published e.message)) = none ∧
          s'.participants = s.participants) ∨
        ∃ leader notice, s.leader = some leader ∧
          latestUpdate (broadcasts none (s'.sent.filter fun e => published e.message)) =
            some (updateText leader s'.participants notice) := by
  cases h with
  | silent hps hleader hsent =>
    refine ⟨hps ▸ hfronted, hleader, fun a _ => .inl ⟨?_, hps⟩⟩
    have hnone : (s'.sent.filter fun e => published e.message) = [] := by
      rw [List.filter_eq_nil_iff]
      intro e he
      rw [hsent e he]
      decide
    rw [hnone]
    rfl
  | @broadcast base s₀ s₁ message hbase hsame hmessage hupdate h hleft =>
    obtain ⟨hps₀, hleader₀, hsent₀⟩ := hsame
    obtain ⟨hps₁, hleader₁, hsent₁⟩ := hleft
    obtain ⟨t, ht, -, hfilter⟩ := exists_broadcast hmessage h hsent₀
    have hconsistent := ((kept_consistent hroll).announcer hs hread hbase).1
    obtain ⟨hfront, hleader⟩ := hbase.fronted hl hfronted
    have hsub : s'.participants.Sublist base.participants := hps₁ ▸ hps₀ ▸ ht.sublist
    have hpointer : s₀.leader = s.leader := hleader₀.trans hleader
    have hled : Led s₁ := by
      obtain ⟨leader, hled⟩ := hconsistent.leads ((kept_consistent hroll).announcer hs hread hbase).2
      have hlinked : Linked s₀ := by
        rw [Linked, hps₀]
        exact hconsistent.sound.linked
      exact ⟨leader, ht.led hlinked ⟨hps₀ ▸ hled.flagged, hleader₀.trans hled.pointer⟩⟩
    refine ⟨hfront.sublist hsub ?_, ?_, fun a ha => ?_⟩
    · obtain ⟨leader, hled⟩ := hled
      have hmem : leader ∈ s₁.participants.filter Participant.isLeader := by
        rw [hled.flagged]
        exact List.mem_singleton.2 rfl
      obtain ⟨hmem, hflag⟩ := List.mem_filter.1 hmem
      exact ⟨leader, hps₁ ▸ hmem, hflag⟩
    · exact hleader₁.trans (ht.same.leader.trans hpointer)
    · have haudience : audience resolve s' = audience resolve s₁ := by rw [audience, hps₁, audience]
      have hnodup : (audience resolve s₀).Nodup := by
        rw [audience, hps₀]
        exact hconsistent.audience_nodup hroll
      obtain ⟨updates, hms, hupdates, hlast⟩ :=
        ht.latest hnodup (List.ne_nil_of_mem (haudience ▸ ha))
      rw [hsent₁, hfilter, hms, hps₁]
      obtain ⟨rfl, hkept⟩ | ⟨leader, notice, hleader', hlast⟩ := hlast
      · obtain ⟨hps, hword⟩ | ⟨leader, _, rest, src, hleader', -, -, -, rfl⟩ := hupdate
        · refine .inl ⟨latestUpdate_eq_none fun m hm => ?_, hkept.trans (hps₀.trans hps)⟩
          rw [List.mem_singleton.1 hm]
          exact decide_eq_false hword
        · refine .inr ⟨leader, snprintf maxBufferLen (joinMessage rest (inetNtoa src) (portText src)),
            hleader.symm.trans hleader', ?_⟩
          rw [hkept, hps₀]
          exact latestUpdate_of_getLast rfl (isUpdate_updateText ..)
      · refine .inr ⟨leader, notice, hpointer.symm.trans hleader', ?_⟩
        refine latestUpdate_of_getLast ?_ (isUpdate_updateText ..)
        rw [List.getLast?_cons, hlast]
        rfl

end Founder

/-! ## Runs -/

/-- What holds of the lists in every chronicle. -/
structure Chronicle.Current (resolve : Bytes → Bytes → Option RmpAddress) (founder : RmpAddress)
    (c : Chronicle) : Prop where
  fronted : ∀ l, c.session.procs founder = some (.chatting l) → Fronted l.participants
  latest : ∀ l, c.session.procs founder = some (.chatting l) → ∀ a ∈ audience resolve l,
    ∃ leader notice, l.leader = some leader ∧
      latestUpdate (c.track founder a) = some (updateText leader l.participants notice)
  shown : ∀ a s, a ≠ founder → c.session.procs a = some (.chatting s) →
    ∃ update, latestUpdate (handedTo founder a c.received) = some update ∧ Shows s update

section Runs

variable {resolve : Bytes → Bytes → Option RmpAddress} {founder : Member} {c c' : Chronicle}
  {address a : RmpAddress} {cue : Cue} {weather : Weather} {locals : Locals} {p p' : Process}
  {event : Event} {rest : List (Packet RmpAddress Bytes)} {s : Node}

/-- Somebody else receives nothing. -/
theorem handedTo_taken_ne {founder : RmpAddress} {g : Session}
    (hread : g.read address cue = some (event, rest)) (ha : a ≠ address) :
    handedTo founder a (g.taken (.round address cue weather locals)) = [] := by
  obtain ⟨htaken, -, -⟩ | ⟨k, x, -, htaken, -, hdst, -⟩ :=
    Session.taken_of_read weather locals hread
  · rw [htaken]
    rfl
  · rw [htaken]
    refine handedTo_eq_nil fun y hy hon => ?_
    obtain rfl := List.mem_singleton.1 hy
    exact absurd (hon.2.symm.trans hdst) ha

/-- A PARTICIPANT_UPDATE is taken over. -/
theorem shows_of_update {leader : Peer} {ps : List Participant} {notice : Bytes} {src : RmpAddress}
    (hl : p.node.isLeader = false)
    (hran : processStep (Session.env resolve weather) locals p.quiet
      (.receive (updateText leader ps notice) src) = some (.ok p')) :
    ∃ s', p' = .chatting s' ∧ Shows s' (updateText leader ps notice) := by
  cases p with
  | joining j =>
    obtain ⟨j₁, j', rfl, -, -⟩ | ⟨s', -, rfl, hupdate⟩ := joinReceive_ok (Option.some.inj hran)
    · have hword : ∃ word ∈ commands, Carries (updateText leader ps notice) word :=
        ⟨_, by decide, carries_updateText leader ps notice⟩
      obtain h | h := joinReceive_asked (Option.some.inj hran)
      · have heq := (h.commandOf (by decide) hword).symm.trans (commandOf_updateText leader ps notice)
        exact absurd heq (by decide)
      · have heq := (h.commandOf (by decide) hword).symm.trans (commandOf_updateText leader ps notice)
        exact absurd heq (by decide)
    · exact ⟨s', rfl, _, _, _, hupdate, rfl, rfl⟩
  | chatting s =>
    have hstep : (chatStep (Session.env resolve weather) locals { s with sent := [] }
        (.receive (updateText leader ps notice) src)).map (fun r => r.map Process.chatting) =
      some (.ok p') := hran
    obtain ⟨r, hr, hp'⟩ := Option.map_eq_some_iff.1 hstep
    cases r with
    | error e => cases hp'
    | ok s' =>
      obtain rfl := Except.ok.inj hp'
      have hl' : ({ s with sent := [] } : Node).isLeader = false := hl
      rw [chatStep_receive_nonLeader hl'] at hr
      exact ⟨s', rfl, _, _, _, nonLeaderReceive_updateText (Option.some.inj hr), rfl, rfl⟩

/-- **A participant shows the last PARTICIPANT_UPDATE that it has received**, after every round. -/
theorem shown_round {founder : RmpAddress} (hk : c.Known resolve founder) (hcue : cue ≠ .victory)
    (h : ∀ s, p = .chatting s →
      ∃ update, latestUpdate (handedTo founder address c.received) = some update ∧ Shows s update)
    (ha : address ≠ founder)
    (hm : c.session.Moved resolve address cue weather locals p p' event rest c'.session)
    (hreceived : c'.received = c.received ++ c.session.taken (.round address cue weather locals))
    {s' : Node} (hs' : p' = .chatting s') :
    ∃ update, latestUpdate (handedTo founder address c'.received) = some update ∧ Shows s' update := by
  have hvictory := Session.event_ne_victory hcue hm.read
  have hl := hk.sole.follows address p ha hm.live
  rw [hreceived, handedTo_append, latestUpdate_append]
  -- a round that brings no PARTICIPANT_UPDATE leaves the list alone
  have hkept : latestUpdate (handedTo founder address
      (c.session.taken (.round address cue weather locals))) = none →
      (∀ buf src, event = .receive buf src → isUpdate buf = false ∧
        (⟨src, address, buf⟩ : Packet RmpAddress Bytes) ∈ c.session.flight) →
      ∃ update, (latestUpdate (handedTo founder address
        (c.session.taken (.round address cue weather locals)))).or
          (latestUpdate (handedTo founder address c.received)) = some update ∧ Shows s' update := by
    intro hnone hevent
    have hround := hm.round
    subst hs'
    rw [hnone, Option.none_or]
    cases hround with
    | entered _ _ hreads _ =>
      obtain ⟨hword, hmem⟩ := hevent _ _ rfl
      have hcommand := hreads.commandOf (by decide) (hk.bodies _ hmem)
      rw [isUpdate_iff.2 hcommand] at hword
      cases hword
    | @reacted s _ _ hr =>
      obtain ⟨update, hlatest, s₀, joining, s₁, hs₁, hps, hleader⟩ := h s rfl
      obtain ⟨hps', hleader'⟩ | ⟨buf, src, line, rfl, hreads⟩ := hr.list hl hvictory
      · exact ⟨update, hlatest, s₀, joining, s₁, hs₁, hps'.trans hps, hleader'.trans hleader⟩
      · obtain ⟨hword, hmem⟩ := hevent _ _ rfl
        obtain hreads | hreads := hreads
        · have hcommand := hreads.commandOf (by decide) (hk.bodies _ hmem)
          rw [isUpdate_iff.2 hcommand] at hword
          cases hword
        · have hcommand := hreads.commandOf (by decide) (hk.bodies _ hmem)
          exact absurd hcommand (hk.sole.peaceful _ hmem)
  obtain ⟨htaken, -, hevent⟩ | ⟨k, x, -, htaken, rfl, hdst, hk', -, -⟩ :=
    Session.taken_of_read weather locals hm.read
  · refine hkept (by rw [htaken]; rfl) fun buf src heq => absurd heq (hevent buf src)
  · have hmem := List.mem_of_getElem? hk'
    by_cases hword : isUpdate x.body = true
    · -- the founder alone announces lists
      have hsrc := hk.sole.source x hmem (isUpdate_iff.1 hword)
      obtain ⟨word, hcommand, hcarries, -, hcensus⟩ := hk.all.flight x hmem
      have heq : word = messageParticipantUpdate :=
        (hcarries.commandOf hcommand).symm.trans (isUpdate_iff.1 hword)
      obtain ⟨leader, ps, notice, hbody, -⟩ := hcensus heq
      have hran := hm.ran
      rw [hbody] at hran
      obtain ⟨s₁, hs₁, hshows⟩ := shows_of_update hl hran
      obtain rfl := Process.chatting.inj (hs'.symm.trans hs₁)
      refine ⟨updateText leader ps notice, ?_, hshows⟩
      have hpublished : published x.body = true := hbody ▸ published_updateText leader ps notice
      have hhanded : handedTo founder address [x] = [x.body] := by
        have hon : x.On founder address := ⟨hsrc, hdst⟩
        simp [handedTo, hon, hpublished]
      have hlast : latestUpdate [x.body] = some x.body := latestUpdate_of_getLast rfl hword
      rw [htaken, hhanded, hlast, hbody]
      rfl
    · rw [Bool.not_eq_true] at hword
      refine hkept ?_ fun buf src heq => ?_
      · rw [htaken]
        refine latestUpdate_eq_none fun m hm' => ?_
        obtain ⟨y, hy, rfl⟩ := List.mem_map.1 hm'
        rw [List.mem_singleton.1 (List.mem_filter.1 hy).1]
        exact hword
      · obtain ⟨rfl, rfl⟩ := Event.receive.inj heq
        exact ⟨hword, hdst ▸ hmem⟩

/-- **A round of the founder** keeps the lists current. -/
theorem Chronicle.Current.founder_round {s s' : Node} (h : c.Current resolve address)
    (hk : c.Known resolve address) (hcue : cue ≠ .victory) (hturn : InTurn c.session cue)
    (hhonest : weather.Honest)
    (hm : c.session.Moved resolve address cue weather locals (.chatting s) (.chatting s') event rest
      c'.session)
    (hreceived : c'.received = c.received ++ c.session.taken (.round address cue weather locals)) :
    c'.Current resolve address := by
  obtain ⟨hl, hround, hconsistent, -, hauthentic⟩ := hk.leaderRound hcue hm
  obtain ⟨hfronted, hleader, hlatest⟩ :=
    hround.latest hk.enrolled hconsistent hl hauthentic (h.fronted s hm.live)
  have hself : ∀ l, c'.session.procs address = some (.chatting l) → l = s' := by
    intro l hl
    rw [hm.procs, Function.update_self] at hl
    exact (Process.chatting.inj (Option.some.inj hl)).symm
  refine ⟨fun l hl => hself l hl ▸ hfronted, fun l hl a ha => ?_, fun a s₁ ha hs₁ => ?_⟩
  · obtain rfl := hself l hl
    obtain ⟨-, hwhole, -⟩ := hround.posted hhonest hk.enrolled hconsistent ‹_› hauthentic a
    rw [track_round _ hm hturn hreceived, latestUpdate_append, Process.node, hwhole ha]
    obtain ⟨hnone, hps⟩ | ⟨leader, notice, hpointer, hlast⟩ := hlatest a ha
    · have hps : l.participants = s.participants := hps
      have hmem : a ∈ audience resolve s := by
        rw [audience, ← hps]
        exact ha
      obtain ⟨leader, notice, hpointer, hlast⟩ := h.latest s hm.live a hmem
      refine ⟨leader, notice, hleader.trans hpointer, ?_⟩
      rw [hnone, Option.none_or, hlast, hps]
    · exact ⟨leader, notice, hleader.trans hpointer, by rw [hlast]; rfl⟩
  · rw [hm.procs, Function.update_of_ne ha] at hs₁
    rw [hreceived, handedTo_append, handedTo_taken_ne hm.read ha, List.append_nil]
    exact h.shown a s₁ ha hs₁

/-- An action that brings nobody to `chat`, and in which nothing is received or published. -/
theorem Chronicle.Current.quiet {founder : RmpAddress} (h : c.Current resolve founder)
    (hreceived : c'.received = c.received) (htrack : ∀ a, c'.track founder a = c.track founder a)
    (hprocs : ∀ a s, c'.session.procs a = some (.chatting s) → c.session.procs a = some (.chatting s)) :
    c'.Current resolve founder :=
  ⟨fun l hl => h.fronted l (hprocs _ l hl),
    fun l hl a ha => htrack a ▸ h.latest l (hprocs _ l hl) a ha,
    fun a s ha hs => hreceived ▸ h.shown a s ha (hprocs a s hs)⟩

/-- **An action keeps the lists current.** -/
theorem Chronicle.Current.step {founder : RmpAddress} {action : Action}
    (h : c.Current resolve founder) (hk : c.Known resolve founder) (hok : Reliable resolve c action)
    (hs : chronicleStep resolve founder c action = some c') : c'.Current resolve founder := by
  obtain ⟨hs, hreceived, -⟩ := chronicleStep_eq_some hs
  cases action with
  | join address nickname addrPort weather =>
    obtain ⟨j, hnew, hj, hg⟩ := joined_of_join hs
    have hne : address ≠ founder := fun heq => hnew (heq ▸ hk.sole.enrolled)
    have hreceived : c'.received = c.received := hreceived.trans (List.append_nil _)
    refine h.quiet hreceived (fun a => ?_) fun a s hs => ?_
    · rw [Chronicle.track, Chronicle.track, hreceived, hg, handedTo_append, handedTo_posted_ne hne,
        List.append_nil]
    · rw [hg] at hs
      obtain ⟨-, hj'⟩ | ⟨-, hold⟩ := live_of_update hs
      · cases hj'
      · exact hold
  | round address cue weather locals =>
    obtain ⟨p, p', event, rest, hm⟩ := moved_of_round hs
    obtain ⟨⟨hcue, hturn⟩, hhonest⟩ := hok
    by_cases ha : address = founder
    · subst ha
      obtain ⟨s, rfl, -⟩ := hk.sole.leads _ hm.live
      obtain ⟨s', rfl⟩ : ∃ s', p' = .chatting s' := by
        cases hm.round with
        | reacted hr => exact ⟨_, rfl⟩
      exact h.founder_round hk hcue hturn hhonest hm hreceived
    · have hfounder : c'.session.procs founder = c.session.procs founder := by
        rw [hm.procs, Function.update_of_ne (Ne.symm ha)]
      have htrack : ∀ a, c'.track founder a = c.track founder a := fun a => by
        rw [track_round _ hm hturn hreceived, handedTo_posted_ne ha, List.append_nil]
      refine ⟨fun l hl => h.fronted l (hfounder ▸ hl),
        fun l hl a hmem => htrack a ▸ h.latest l (hfounder ▸ hl) a hmem, fun a s ha' hs => ?_⟩
      rw [hm.procs] at hs
      obtain ⟨rfl, hself⟩ | ⟨hne, hold⟩ := live_of_update hs
      · obtain rfl := Option.some.inj hself
        exact shown_round hk hcue (fun s hs => h.shown _ s ha (hs ▸ hm.live)) ha hm hreceived rfl
      · rw [hreceived, handedTo_append, handedTo_taken_ne hm.read hne, List.append_nil]
        exact h.shown a s ha' hold
  | crash address =>
    have hg : { c.session with procs := Function.update c.session.procs address none } = c'.session :=
      Option.some.inj hs
    have hreceived : c'.received = c.received := hreceived.trans (List.append_nil _)
    refine h.quiet hreceived (fun a => ?_) fun a s hs => ?_
    · rw [Chronicle.track, Chronicle.track, hreceived, ← hg]
    · rw [← hg] at hs
      obtain ⟨-, hnone⟩ | ⟨-, hold⟩ := live_of_update hs
      · cases hnone
      · exact hold
  | lose k => exact hok.1.elim
  | copy k => exact hok.1.elim

theorem current_of_opened (h : Opened founder c) : c.Current resolve founder.address := by
  obtain ⟨⟨s, hs, hg⟩, -, -⟩ := h
  obtain ⟨q, lines, hnode, -⟩ := startChat_ok hs
  have halone : ∀ a l, c.session.procs a = some (.chatting l) → a = founder.address ∧ l = s := by
    intro a l hl
    rw [hg] at hl
    dsimp only at hl
    split at hl
    · next ha => exact ⟨ha, (Process.chatting.inj (Option.some.inj hl)).symm⟩
    · cases hl
  have hflag : q.isLeader = true := by
    obtain ⟨leader, hled⟩ := (recorded_of_started (.founder hs)).2
    have hmem : leader ∈ s.participants.filter Participant.isLeader := by
      rw [hled.flagged]
      exact List.mem_singleton.2 rfl
    obtain ⟨hmem, hflag⟩ := List.mem_filter.1 hmem
    rw [hnode] at hmem
    exact List.mem_singleton.1 hmem ▸ hflag
  refine ⟨fun l hl => ?_, fun l hl a ha => ?_, fun a l ha hl => absurd (halone a l hl).1 ha⟩
  · obtain rfl := (halone _ l hl).2
    exact ⟨q, [], by rw [hnode], hflag, by simp⟩
  · obtain rfl := (halone _ l hl).2
    have hnone : others l.participants = [] := by
      rw [hnode, others_cons, if_pos hflag]
      rfl
    rw [audience, hnone] at ha
    cases ha

theorem current_of_reach (hfounder : founder.Listable resolve)
    (h : Reach (chronicleStep resolve founder.address) (Reliable resolve) (Opened founder) c) :
    c.Current resolve founder.address :=
  h.invariant_of (fun _ hc => known_of_reach hfounder hc) (fun _ hc => current_of_opened hc)
    fun _ _ _ hk hI hok hs => hI.step hk hok hs

/-- **Agreement**: the list of a participant is one that the founder has broadcast, and it is the
founder's own list, in the same order and with the same leader, if the participant is in it and no
PARTICIPANT_UPDATE is under way to it. -/
theorem agreement_of_reach (hfounder : founder.Listable resolve)
    (h : Reach (chronicleStep resolve founder.address) (Reliable resolve) (Opened founder) c)
    {a : RmpAddress} (hne : a ≠ founder.address) {s : Node}
    (hs : c.session.procs a = some (.chatting s)) :
    (∃ update ∈ c.log, isUpdate update = true ∧ Shows s update) ∧
      ∀ l, c.session.procs founder.address = some (.chatting l) → a ∈ audience resolve l →
        (∀ x ∈ c.session.flight, x.dst = a → isUpdate x.body = false) →
        s.participants.map Participant.entry = l.participants.map Participant.entry ∧
          s.leader.map Peer.fields = l.leader.map Peer.fields := by
  have hcurrent := current_of_reach hfounder h
  have hk := known_of_reach hfounder h
  obtain ⟨update, hreceived, hshows⟩ := hcurrent.shown a s hne hs
  refine ⟨⟨update, ?_, (List.mem_filter.1 (List.mem_of_getLast? hreceived)).2, hshows⟩,
    fun l hl ha hquiet => ?_⟩
  · have hgapless := (sequenced_of_reach hfounder h).ordered.gapless a
    exact hgapless.subset (List.mem_append_left _ (mem_of_latestUpdate hreceived))
  obtain ⟨leader, notice, hpointer, hlatest⟩ := hcurrent.latest l hl a ha
  -- what has been received is what has been sent
  have hnone : latestUpdate (handedTo founder.address a c.session.flight) = none := by
    refine latestUpdate_eq_none fun m hm => ?_
    obtain ⟨x, hx, rfl⟩ := List.mem_map.1 hm
    obtain ⟨hx, hon⟩ := List.mem_filter.1 hx
    exact hquiet x hx (of_decide_eq_true hon).1.2
  rw [Chronicle.track, latestUpdate_append, hnone, Option.none_or, hreceived] at hlatest
  obtain rfl := Option.some.inj hlatest
  have hconsistent : Consistent c.session.roll founder.address l := hk.all.procs _ _ hl
  have hleads : l.isLeader = true := by
    obtain ⟨l', hl', hleads⟩ := hk.sole.leads _ hl
    exact Process.chatting.inj hl' ▸ hleads
  obtain ⟨q, hled⟩ := hconsistent.leads hleads
  obtain rfl : q.toPeer = leader := Option.some.inj (hled.pointer.symm.trans hpointer)
  have hplain : ∀ p ∈ l.participants, p.Plain := by
    intro p hp
    obtain ⟨m, hm, hfields⟩ := hconsistent.enrolled p hp
    exact (hk.enrolled.listable m hm).plain hfields
  obtain ⟨hentries, hfields⟩ := hshows.entries (hplain q hled.mem)
    fun p hp => hplain p (mem_others.1 hp).1
  rw [hentries, (hcurrent.fronted l hl).entries hled, hfields, hpointer]
  exact ⟨rfl, rfl⟩

end Runs

/-- `c` is gone when `a` sends its heartbeats, and `b` has received everything. -/
def departure : List Action :=
  gathering ++ [.crash (localHost 82),
    .round (localHost 80) .heartbeat (deafWeather (localHost 82)) .blank, receiveAt 81, receiveAt 81]

theorem honest_deafWeather (a : RmpAddress) : (deafWeather a).Honest := by
  intro k dst message hresult
  refine decide_eq_true fun hdst => ?_
  have hfailed : (deafWeather a).sendTo k dst message = rmpETimeout := if_pos hdst
  rw [hfailed] at hresult
  exact absurd hresult (by decide)

theorem honest_departure : ∀ action ∈ departure, action.Honest := by
  simp [departure, gathering, receiveAt, Action.Honest, honest_fairWeather, honest_deafWeather]

/-- There `b` has the list of `a`, without `c`. -/
theorem agreement_of_reach_departure : ∃ (c : Chronicle) (s l : Node),
    c.session.procs (localHost 81) = some (.chatting s) ∧
      c.session.procs host.address = some (.chatting l) ∧
      (∃ update ∈ c.log, isUpdate update = true ∧ Shows s update) ∧
      s.participants.map Participant.entry = l.participants.map Participant.entry ∧
      s.leader.map Peer.fields = l.leader.map Peer.fields := by
  have hrun : ((founding host).bind fun g => exec (chronicleStep loopbackAddress host.address)
      (Punctual loopbackAddress) ⟨g, [], []⟩ departure).map (fun c =>
        (((c.session.procs (localHost 81)).bind Process.node?).isSome,
          ((c.session.procs host.address).bind Process.node?).map (audience loopbackAddress),
          c.session.flight.length)) = some (true, some [localHost 81], 0) := by decide
  obtain ⟨c, hreach, hseen⟩ := exists_chronicle_of_exec honest_departure hrun
  obtain ⟨hs, hseen⟩ := Prod.mk.inj hseen
  obtain ⟨hl, hflight⟩ := Prod.mk.inj hseen
  obtain ⟨s, hs⟩ := Option.isSome_iff_exists.1 hs
  obtain ⟨p, hp, hs⟩ := Option.bind_eq_some_iff.1 hs
  obtain rfl := Process.eq_chatting hs
  obtain ⟨l, hl, haudience⟩ := Option.map_eq_some_iff.1 hl
  obtain ⟨q, hq, hl⟩ := Option.bind_eq_some_iff.1 hl
  obtain rfl := Process.eq_chatting hl
  have hagree := agreement_of_reach listable_host hreach (show localHost 81 ≠ host.address by decide) hp
  refine ⟨c, s, l, hp, hq, hagree.1, hagree.2 l hq (by rw [haudience]; simp) fun x hx => ?_⟩
  rw [List.length_eq_zero_iff.1 hflight] at hx
  cases hx

end Dchat.Chat
