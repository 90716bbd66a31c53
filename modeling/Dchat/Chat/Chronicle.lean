import Dchat.Chat.Outgoing
import Dchat.Foundations.Bulletin

/-!
# One order for everybody

A `Chronicle` is a session with the messages that have been received in it, and with the log of what
the founder has broadcast as the leader. The actions are those of the session, as RMP is meant to
allow them (`Reliable`): no message is lost or duplicated, two messages from one process to another
are received in the order in which they were sent, and one arrives if its `RMP_sendTo` returned
without an error. No process declares victory.

`ordered_of_reach`: what the founder has published to a process, received or still under way, is a
part of the log without gaps, and for those in the founder's list it is the log from the
PARTICIPANT_UPDATE of their admission on. So two of them are sent the same messages in the same
order, from the admission of the later one on.

The argument is that of `Bulletin.Ordered`, with the processes in the founder's list as subscribers:
`LeaderRound.posted` is a round of posting, and `LeaderRound.introduced` what is posted first to a
process that is let in. It has been sent nothing before, because it has at most one ADD_ME or answer
to one under way (`Session.Moved.pending_le`).
-/

namespace Dchat.Chat

open CString Stdio RMP Links Runs Bulletins

/-! ## The record of a session -/

/-- A session, the messages that were received in it, and what the founder has broadcast, the oldest
first. -/
structure Chronicle where
  session : Session
  received : List (Packet RmpAddress Bytes)
  log : List Bytes

namespace Session

/-- The message that is received in an action. -/
def taken (g : Session) : Action → List (Packet RmpAddress Bytes)
  | .round _ (.receive k) _ _ => (g.flight[k]?).toList
  | _ => []

/-- What the founder has broadcast in the round that led to the session. -/
def posts (founder : RmpAddress) (g : Session) : Action → List Bytes
  | .round address _ _ _ =>
    if address = founder then
      ((g.procs address).map fun p =>
        broadcasts none (p.node.sent.filter fun e => published e.message)).getD []
    else []
  | _ => []

end Session

/-- The actions of a session, with the record. -/
def chronicleStep (resolve : Bytes → Bytes → Option RmpAddress) (founder : RmpAddress) (c : Chronicle)
    (action : Action) : Option Chronicle :=
  (sessionStep resolve c.session action).map fun g =>
    ⟨g, c.received ++ c.session.taken action, c.log ++ g.posts founder action⟩

/-- The record begins with the session. -/
def Opened (founder : Member) (c : Chronicle) : Prop :=
  Founded founder c.session ∧ c.received = [] ∧ c.log = []

/-- No older message is under way between the two processes. -/
def InTurn (g : Session) : Cue → Prop
  | .receive k => ∀ y ∈ g.flight[k]?, ∀ x ∈ g.flight.take k, ¬ x.On y.src y.dst
  | _ => True

/-- A message that is sent without an error arrives. -/
def Action.Honest : Action → Prop
  | .round _ _ weather _ => weather.Honest
  | _ => True

/-- No message is lost or duplicated, or overtakes another one on its way between two processes. -/
def Punctual (resolve : Bytes → Bytes → Option RmpAddress) (c : Chronicle) : Action → Prop
  | .join address nickname _ _ =>
    Proper nickname ∧ resolve (inetNtoa address) (portText address) = some address
  | .round _ cue _ _ => cue ≠ .victory ∧ InTurn c.session cue
  | .crash _ => True
  | .lose _ | .copy _ => False

/-- What RMP is meant to allow, while nobody declares victory. -/
def Reliable (resolve : Bytes → Bytes → Option RmpAddress) (c : Chronicle) (action : Action) : Prop :=
  Punctual resolve c action ∧ action.Honest

instance (g : Session) : (cue : Cue) → Decidable (InTurn g cue)
  | .receive k =>
    inferInstanceAs (Decidable (∀ y ∈ g.flight[k]?, ∀ x ∈ g.flight.take k, ¬ x.On y.src y.dst))
  | .stdin _ | .heartbeat | .victory | .restart => inferInstanceAs (Decidable True)

instance (resolve : Bytes → Bytes → Option RmpAddress) (c : Chronicle) :
    (action : Action) → Decidable (Punctual resolve c action)
  | .join .. | .round .. => inferInstanceAs (Decidable (_ ∧ _))
  | .crash _ => inferInstanceAs (Decidable True)
  | .lose _ | .copy _ => inferInstanceAs (Decidable False)

/-- The published messages from `src` to `a`. -/
def handedTo (src a : RmpAddress) (l : List (Packet RmpAddress Bytes)) : List Bytes :=
  (l.filter fun x => x.On src a ∧ published x.body).map Packet.body

namespace Chronicle

/-- What the founder has published to `a`: what was received, and then what is under way. -/
def track (c : Chronicle) (founder a : RmpAddress) : List Bytes :=
  handedTo founder a c.received ++ handedTo founder a c.session.flight

/-- The process at `a` is in the list of the founder. -/
def Listed (resolve : Bytes → Bytes → Option RmpAddress) (founder : RmpAddress) (c : Chronicle)
    (a : RmpAddress) : Prop :=
  ∃ s, c.session.procs founder = some (.chatting s) ∧ a ∈ audience resolve s

/-- The chronicle as a log that is read by those in the founder's list. -/
def bulletin (resolve : Bytes → Bytes → Option RmpAddress) (founder : RmpAddress) (c : Chronicle) :
    Bulletin RmpAddress Bytes where
  log := c.log
  subscribed := c.Listed resolve founder
  handed := c.track founder

end Chronicle

/-- A PARTICIPANT_UPDATE that lets a member in: the notice is that it has joined, and it is on the
list. -/
def Introduces (m : Member) (update : Bytes) : Prop :=
  ∃ leader ps, update = updateText leader ps (snprintf maxBufferLen
      (joinMessage m.nickname (inetNtoa m.address) (portText m.address))) ∧
    ∃ p ∈ others ps, p.fields = m.fields

/-- **What the process at `a` has been handed is the log from its admission on.** -/
def Chronicle.FromAdmission (founder : RmpAddress) (c : Chronicle) (a : RmpAddress) : Prop :=
  ∃ m ∈ c.session.roll, m.address = a ∧ ∃ before update rest, Introduces m update ∧
    c.log = before ++ update :: rest ∧ c.track founder a = update :: rest

/-! ## What is handed over -/

section Handing

variable {src a b address : RmpAddress} {l l' : List (Packet RmpAddress Bytes)}

theorem handedTo_append : handedTo src a (l ++ l') = handedTo src a l ++ handedTo src a l' := by
  simp only [handedTo, List.filter_append, List.map_append]

theorem handedTo_eq_nil (h : ∀ x ∈ l, x.On src a → published x.body = false) :
    handedTo src a l = [] := by
  rw [handedTo, List.map_eq_nil_iff, List.filter_eq_nil_iff]
  intro x hx
  by_cases hon : x.On src a
  · simp [h x hx hon]
  · simp [hon]

/-- What a process publishes in a round. -/
theorem handedTo_posted (weather : Weather) (es : List Sent) :
    handedTo address a (Session.posted weather address es) =
      (arrived weather a 0 es).filter published := by
  simp only [handedTo, Session.posted, arrived, List.filter_map, List.map_map, List.filter_filter]
  refine congrArg (List.map _) (List.filter_congr fun x _ => ?_)
  rw [Bool.eq_iff_iff]
  simp only [Function.comp_apply, Packet.On, Bool.and_eq_true, decide_eq_true_eq, true_and]
  tauto

/-- What another process publishes. -/
theorem handedTo_posted_ne (hne : address ≠ src) (weather : Weather) (es : List Sent) :
    handedTo src a (Session.posted weather address es) = [] := by
  refine handedTo_eq_nil fun x hx hon => ?_
  obtain ⟨e, -, rfl, -⟩ := Session.mem_posted hx
  exact absurd hon.1 hne

end Handing

/-- The message is an ADD_ME of the process at `b`, or an answer to one. -/
def concerns (b : RmpAddress) (x : Packet RmpAddress Bytes) : Bool :=
  (x.src = b ∧ commandOf x.body = messageAddMe) ∨ (x.dst = b ∧ answers x.body = true)

/-- The ADD_MEs of a process that are under way, and the answers. -/
def pending (b : RmpAddress) (l : List (Packet RmpAddress Bytes)) : ℕ := l.countP (concerns b)

section Taking

variable {resolve : Bytes → Bytes → Option RmpAddress} {g g' : Session} {src a b address : RmpAddress}
  {cue : Cue} {weather : Weather} {locals : Locals} {p p' : Process} {event : Event}
  {rest : List (Packet RmpAddress Bytes)}

/-- The message that is received and those that are left make up what was under way. -/
theorem Session.taken_of_read (weather : Weather) (locals : Locals)
    (hread : g.read address cue = some (event, rest)) :
    (g.taken (.round address cue weather locals) = [] ∧ rest = g.flight ∧
        ∀ buf src, event ≠ .receive buf src) ∨
      ∃ k x, cue = .receive k ∧ g.taken (.round address cue weather locals) = [x] ∧
        event = .receive x.body x.src ∧ x.dst = address ∧ g.flight[k]? = some x ∧
        g.flight = g.flight.take k ++ x :: g.flight.drop (k + 1) ∧
        rest = g.flight.take k ++ g.flight.drop (k + 1) := by
  cases cue with
  | receive k =>
    obtain ⟨x, hx, h⟩ := Option.bind_eq_some_iff.1 hread
    split at h
    · next hdst =>
      obtain ⟨rfl, rfl⟩ := Prod.mk.inj (Option.some.inj h)
      obtain ⟨hk, hget⟩ := List.getElem?_eq_some_iff.1 hx
      refine .inr ⟨k, x, rfl, ?_, rfl, hdst, hx, ?_, List.eraseIdx_eq_take_drop_succ ..⟩
      · rw [Session.taken, hx]
        rfl
      · rw [← hget, List.getElem_cons_drop hk, List.take_append_drop]
    · cases h
  | stdin buf | heartbeat | victory | restart =>
    obtain ⟨rfl, rfl⟩ := Prod.mk.inj (Option.some.inj hread)
    exact .inl ⟨rfl, rfl, fun buf src h => by cases h⟩

/-- **First in, first out**: what is received comes before what is left. -/
theorem handedTo_read (weather : Weather) (locals : Locals) (hturn : InTurn g cue)
    (hread : g.read address cue = some (event, rest)) :
    handedTo src a (g.taken (.round address cue weather locals)) ++ handedTo src a rest =
      handedTo src a g.flight := by
  obtain ⟨htaken, rfl, -⟩ | ⟨k, x, rfl, htaken, -, -, hk, hflight, rfl⟩ :=
    Session.taken_of_read weather locals hread
  · rw [htaken]
    rfl
  · have hsplit : g.flight = g.flight.take k ++ ([x] ++ g.flight.drop (k + 1)) := hflight
    rw [htaken, handedTo_append]
    conv_rhs => rw [hsplit, handedTo_append, handedTo_append]
    by_cases hon : x.On src a
    · -- nothing between the two processes is older
      have hnone : handedTo src a (g.flight.take k) = [] := by
        refine handedTo_eq_nil fun y hy hya => ?_
        obtain ⟨rfl, rfl⟩ := hon
        exact absurd hya (hturn x hk y hy)
      rw [hnone, List.nil_append, List.nil_append]
    · have hnone : handedTo src a [x] = [] := by
        refine handedTo_eq_nil fun y hy hya => ?_
        exact absurd (List.mem_singleton.1 hy ▸ hya) hon
      rw [hnone, List.nil_append, List.nil_append]

theorem pending_read (weather : Weather) (locals : Locals)
    (hread : g.read address cue = some (event, rest)) :
    pending b (g.taken (.round address cue weather locals)) + pending b rest = pending b g.flight := by
  obtain ⟨htaken, rfl, -⟩ | ⟨k, x, rfl, htaken, -, -, -, hflight, rfl⟩ :=
    Session.taken_of_read weather locals hread
  · rw [htaken, pending, List.countP_nil, Nat.zero_add]
  · conv_rhs => rw [hflight]
    rw [htaken]
    simp only [pending, List.countP_append, List.countP_cons, List.countP_nil]
    omega

/-- A single message is posted for one that was received. -/
theorem pending_posted_le {e : Sent} {x : Packet RmpAddress Bytes} (weather : Weather)
    (h : concerns b ⟨address, e.dst, e.message⟩ = true → concerns b x = true) :
    pending b (Session.posted weather address [e]) ≤ pending b [x] := by
  have hle := (Session.posted_sublist weather address [e]).countP_le (p := concerns b)
  rw [List.map_singleton] at hle
  refine hle.trans ?_
  rw [pending, List.countP_singleton, List.countP_singleton]
  split
  · next hposted => rw [if_pos (h hposted)]
  · exact Nat.zero_le _

theorem concerns_iff {x : Packet RmpAddress Bytes} : concerns b x = true ↔
    (x.src = b ∧ commandOf x.body = messageAddMe) ∨ (x.dst = b ∧ answers x.body = true) :=
  decide_eq_true_iff

theorem answers_addMe {body : Bytes} (h : commandOf body = messageAddMe) : answers body = false := by
  rw [answers, h]
  decide

theorem pending_eq_zero {l : List (Packet RmpAddress Bytes)} (h : ∀ x ∈ l, concerns b x = false) :
    pending b l = 0 := List.countP_eq_zero.2 fun x hx => by rw [h x hx]; decide

/-- What a node sends that is no answer to an ADD_ME. -/
theorem concerns_of_words {x : Packet RmpAddress Bytes} {words : List Bytes}
    (hword : commandOf x.body ∈ words)
    (hwords : ∀ word ∈ words, word ≠ messageAddMe ∧
      [messageJoinFailure, messageLeaderId].contains word = false) : concerns b x = false := by
  obtain ⟨hadd, hanswer⟩ := hwords _ hword
  refine decide_eq_false ?_
  rintro (⟨-, h⟩ | ⟨-, h⟩)
  · exact hadd h
  · rw [answers, hanswer] at h
    cases h

/-- A round of the founder leaves no ADD_ME and no answer. -/
theorem Session.Moved.pending_leader {s s' : Node}
    (hm : g.Moved resolve address cue weather locals p p' event rest g') (hl : s.isLeader = true)
    (hp' : p' = .chatting s')
    (hout : ∀ e ∈ s'.sent, Outgoing locals { s with sent := [] } event s' e) :
    pending b (g.taken (.round address cue weather locals)) + pending b g'.flight =
      pending b g.flight := by
  have hposted : pending b (Session.posted weather address p'.node.sent) = 0 := by
    refine pending_eq_zero fun x hx => ?_
    obtain ⟨e, he, rfl, -⟩ := Session.mem_posted hx
    subst hp'
    cases hout e he with
    | published _ h => exact concerns_of_words (List.contains_iff_mem.1 h) (by decide)
    | answer hl' _ _ _ _ =>
      rw [show s.isLeader = false from hl'] at hl
      cases hl
    | declared _ _ h => exact concerns_of_words h (by decide)
    | other h => exact concerns_of_words h (by decide)
  have happend : pending b g'.flight =
      pending b rest + pending b (Session.posted weather address p'.node.sent) := by
    rw [hm.flight, pending, List.countP_append]
    rfl
  have hread := pending_read (b := b) weather locals hm.read
  omega

/-- **Each ADD_ME has at most one answer**, and each answer leads to at most one ADD_ME. -/
theorem Session.Moved.pending_le
    (hm : g.Moved resolve address cue weather locals p p' event rest g')
    (hbodies : ∀ x ∈ g.flight, ∃ word ∈ commands, Carries x.body word) :
    pending b g'.flight ≤ pending b g.flight := by
  have hread := pending_read (b := b) weather locals hm.read
  have hposted : pending b (Session.posted weather address p'.node.sent) ≤
      pending b (g.taken (.round address cue weather locals)) := by
    obtain ⟨j, j', e, rfl, rfl, hsent, hword⟩ | ⟨j, s', rfl, rfl, hsent⟩ | ⟨s, s', rfl, rfl, -, hout⟩ :=
      hm.round.outgoing
    · -- the process has received an answer
      obtain ⟨buf, src, rfl, hran⟩ : ∃ buf src, event = .receive buf src ∧
          joinReceive (Session.env resolve weather) { j with node := { j.node with sent := [] } } buf =
            .ok (.joining j') := by
        have hran := hm.ran
        cases event with
        | receive buf src => exact ⟨buf, src, rfl, Option.some.inj hran⟩
        | stdin buf | heartbeat | victory | restart => cases hran
      obtain ⟨-, -, hnone⟩ | ⟨k, x, -, htaken, hevent, hdst, hk, -, -⟩ :=
        Session.taken_of_read weather locals hm.read
      · exact absurd rfl (hnone buf src)
      · obtain ⟨rfl, rfl⟩ := Event.receive.inj hevent
        have hx := hbodies x (List.mem_of_getElem? hk)
        have hanswer : answers x.body = true := by
          obtain h | h := joinReceive_asked hran
          · rw [answers, h.commandOf (by decide) hx]
            rfl
          · rw [answers, h.commandOf (by decide) hx]
            rfl
        rw [hsent, htaken]
        refine pending_posted_le weather fun h => concerns_iff.2 (.inr ?_)
        obtain ⟨hsrc, -⟩ | ⟨-, h⟩ := concerns_iff.1 h
        · exact ⟨hdst.trans hsrc, hanswer⟩
        · rw [answers_addMe hword] at h
          cases h
    · rw [Process.node, hsent]
      exact Nat.zero_le _
    · by_cases hany : ∃ e ∈ s'.sent, answers e.message = true
      · obtain ⟨e, he, hanswers⟩ := hany
        have hword := List.contains_iff_mem.1 hanswers
        cases hout e he with
        | published _ h =>
          have hnot : ∀ word ∈ [messageJoinFailure, messageLeaderId],
              [messageBroadcast, messageParticipantUpdate, messageHeartbeat].contains word = false := by
            decide
          rw [published, hnot _ hword] at h
          cases h
        | declared _ _ h =>
          have hnot : ∀ word ∈ [messageJoinFailure, messageLeaderId],
              word ∉ [messageElectionVictory, messageParticipantUpdate] := by decide
          exact absurd h (hnot _ hword)
        | other h =>
          have hnot : ∀ word ∈ [messageJoinFailure, messageLeaderId],
              word ∉ [messageJoinNicknameFailure, messageStartElection, messageStopElection,
                messageHeartbeat, messageRequest] := by decide
          exact absurd h (hnot _ hword)
        | @answer buf line _ hevent hreads hsent _ =>
          -- the process has received an ADD_ME
          obtain ⟨-, -, hnone⟩ | ⟨k, x, -, htaken, hevent', -, hk, -, -⟩ :=
            Session.taken_of_read weather locals hm.read
          · exact absurd hevent (hnone buf e.dst)
          · obtain ⟨rfl, hsrc⟩ := Event.receive.inj (hevent.symm.trans hevent')
            have haddMe := hreads.commandOf (by decide) (hbodies x (List.mem_of_getElem? hk))
            rw [Process.node, hsent, htaken]
            refine pending_posted_le weather fun h => concerns_iff.2 (.inl ?_)
            obtain ⟨-, h⟩ | ⟨hdst, -⟩ := concerns_iff.1 h
            · rw [answers_addMe h] at hanswers
              cases hanswers
            · exact ⟨hsrc.symm.trans hdst, haddMe⟩
      · rw [pending_eq_zero]
        · exact Nat.zero_le _
        · intro x hx
          obtain ⟨e, he, rfl, -⟩ := Session.mem_posted hx
          cases hout e he with
          | published _ h => exact concerns_of_words (List.contains_iff_mem.1 h) (by decide)
          | answer _ _ _ _ h => exact absurd ⟨e, he, answers_of_referral h⟩ hany
          | declared _ _ h => exact concerns_of_words h (by decide)
          | other h => exact concerns_of_words h (by decide)
  have happend : pending b g'.flight =
      pending b rest + pending b (Session.posted weather address p'.node.sent) := by
    rw [hm.flight, pending, List.countP_append]
    rfl
  omega

end Taking

/-! ## A round of the founder -/

section Posting

variable {resolve : Bytes → Bytes → Option RmpAddress} {roll : List Member} {a address : RmpAddress}
  {weather : Weather} {locals : Locals} {s s' base : Node} {event : Event}

/-- The list that a leader announces is its own, with the process whose ADD_ME it has received. -/
theorem Announcer.mem_audience (hroll : Enrolled resolve roll) (hl : s.isLeader = true)
    (hread : ∀ buf src, event = .receive buf src →
      Authentic (Census resolve roll) roll ⟨src, address, buf⟩)
    (hbase : Announcer locals s event base) (ha : a ∈ audience resolve base) :
    a ∈ audience resolve s ∨
      ∃ buf rest, event = .receive buf a ∧ Reads locals buf messageAddMe rest := by
  cases hbase with
  | leader _ => exact .inl ha
  | winner hf _ =>
    rw [hf] at hl
    cases hl
  | @host buf rest src _ _ hreads _ hinsert =>
    obtain ⟨hmem, -⟩ := (hread _ _ rfl).addMe hreads
    obtain ⟨q, hq, hfields, hflag⟩ := inserted_of_insertParticipant hinsert none
    have hps : base.participants = s.participants ++ [q] := hq.participants
    have hresolved : resolve q.ipAddress q.portNum = some src :=
      (hroll.listable _ hmem).getAddressFor hfields
    rw [audience, hps, others, List.filter_append, List.filterMap_append] at ha
    obtain ha | ha := List.mem_append.1 ha
    · exact .inl ha
    · obtain ⟨p, hp, haddr⟩ := List.mem_filterMap.1 ha
      obtain rfl := List.mem_singleton.1 (List.mem_filter.1 hp).1
      rw [hresolved] at haddr
      obtain rfl := Option.some.inj haddr
      exact .inr ⟨buf, rest, rfl, hreads⟩

/-- **What the founder posts in a round** arrives at each process as a first part of it, at those
left in its list as a whole, and only at those who were in the list or have just asked for it. -/
theorem LeaderRound.posted (h : LeaderRound (Session.env resolve weather) locals s event s')
    (hhonest : weather.Honest) (hroll : Enrolled resolve roll) (hs : Consistent roll address s)
    (hl : s.isLeader = true)
    (hread : ∀ buf src, event = .receive buf src →
      Authentic (Census resolve roll) roll ⟨src, address, buf⟩) (a : RmpAddress) :
    handedTo address a (Session.posted weather address s'.sent) <+:
        broadcasts none (s'.sent.filter fun e => published e.message) ∧
      (a ∈ audience resolve s' → handedTo address a (Session.posted weather address s'.sent) =
        broadcasts none (s'.sent.filter fun e => published e.message)) ∧
      (a ∈ audience resolve s' ∨ handedTo address a (Session.posted weather address s'.sent) ≠ [] →
        a ∈ audience resolve s ∨
          ∃ buf rest, event = .receive buf a ∧ Reads locals buf messageAddMe rest) := by
  cases h with
  | silent hps _ hsent =>
    have hnone : handedTo address a (Session.posted weather address s'.sent) = [] := by
      refine handedTo_eq_nil fun x hx _ => ?_
      obtain ⟨e, he, rfl, -⟩ := Session.mem_posted hx
      exact hsent e he
    have hms : (s'.sent.filter fun e => published e.message) = [] := by
      rw [List.filter_eq_nil_iff]
      intro e he
      rw [hsent e he]
      decide
    have haudience : audience resolve s' = audience resolve s := by rw [audience, hps, audience]
    rw [hnone, hms, haudience]
    exact ⟨List.prefix_rfl, fun _ => rfl, fun h => h.elim .inl fun h => absurd rfl h⟩
  | @broadcast base s₀ s₁ message hbase hsame hmessage _ h hleft =>
    obtain ⟨hps₀, -, hsent₀⟩ := hsame
    obtain ⟨hps₁, -, hsent₁⟩ := hleft
    obtain ⟨t, ht, hsent, hfilter⟩ := exists_broadcast hmessage h hsent₀
    have hconsistent := ((kept_consistent hroll).announcer hs hread hbase).1
    have haudience : audience resolve s₀ = audience resolve base := by rw [audience, hps₀, audience]
    have haudience' : audience resolve s' = audience resolve s₁ := by rw [audience, hps₁, audience]
    have hanswered : Answered weather 0 s₁.sent := by
      refine answered_of_fuel (fun x hx => ?_) h
      rw [hsent₀] at hx
      cases hx
    have hpublished := published_of_broadcast hmessage h hsent₀
    have harrived : handedTo address a (Session.posted weather address s₁.sent) =
        arrived weather a 0 s₁.sent := by
      rw [handedTo_posted, List.filter_eq_self]
      intro m hm
      obtain ⟨x, hx, rfl⟩ := List.mem_map.1 hm
      have hmem : x.1 ∈ (s₁.sent.zipIdx).map Prod.fst := List.mem_map_of_mem (List.mem_filter.1 hx).1
      rw [List.zipIdx_map_fst] at hmem
      exact hpublished _ hmem
    rw [hsent₁, hfilter, harrived, haudience']
    have hnodup : (audience resolve s₀).Nodup := haudience ▸ hconsistent.audience_nodup hroll
    rw [hsent] at hanswered ⊢
    obtain ⟨hfirst, hwhole, hnone⟩ := ht.arrivals hhonest hnodup hanswered a
    refine ⟨hfirst, hwhole, fun ha => hbase.mem_audience hroll hl hread (haudience ▸ ?_)⟩
    obtain ha | ha := ha
    · exact (audience_sublist ht.sublist).subset ha
    · by_contra hout
      exact ha (hnone hout)

/-- **What is posted first to a process that is let in** is the PARTICIPANT_UPDATE with it. -/
theorem LeaderRound.introduced (h : LeaderRound (Session.env resolve weather) locals s event s')
    (hroll : Enrolled resolve roll) (hs : Consistent roll address s)
    (hread : ∀ buf src, event = .receive buf src →
      Authentic (Census resolve roll) roll ⟨src, address, buf⟩)
    (ha : a ∈ audience resolve s') (hnew : a ∉ audience resolve s) :
    ∃ m ∈ roll, m.address = a ∧ ∃ update rest, Introduces m update ∧
      broadcasts none (s'.sent.filter fun e => published e.message) = update :: rest := by
  cases h with
  | silent hps _ _ =>
    rw [audience, hps] at ha
    exact absurd ha hnew
  | @broadcast base s₀ s₁ message hbase hsame hmessage hupdate h hleft =>
    obtain ⟨hps₀, -, hsent₀⟩ := hsame
    obtain ⟨hps₁, -, hsent₁⟩ := hleft
    obtain ⟨t, ht, -, hfilter⟩ := exists_broadcast hmessage h hsent₀
    have hconsistent := ((kept_consistent hroll).announcer hs hread hbase).1
    have haudience : audience resolve s₀ = audience resolve base := by rw [audience, hps₀, audience]
    have ha₁ : a ∈ audience resolve s₁ := by
      rw [audience, ← hps₁]
      exact ha
    have hmem : a ∈ audience resolve base := haudience ▸ (audience_sublist ht.sublist).subset ha₁
    have hnodup : (audience resolve s₀).Nodup := haudience ▸ hconsistent.audience_nodup hroll
    obtain ⟨updates, hms, -⟩ := ht.latest hnodup (List.ne_nil_of_mem ha₁)
    obtain ⟨hps, -⟩ | ⟨leader, buf, nickname, src, -, hevent, hreads, hinsert, rfl⟩ := hupdate
    · rw [audience, hps] at hmem
      exact absurd hmem hnew
    obtain ⟨hmember, -⟩ := (hread buf src hevent).addMe hreads
    obtain ⟨q, hq, hfields, hflag⟩ := inserted_of_insertParticipant hinsert none
    have hps : base.participants = s.participants ++ [q] := hq.participants
    have hsrc : src = a := by
      rw [audience, hps, others, List.filter_append, List.filterMap_append] at hmem
      obtain hmem | hmem := List.mem_append.1 hmem
      · exact absurd hmem hnew
      · obtain ⟨p, hp, haddr⟩ := List.mem_filterMap.1 hmem
        obtain rfl := List.mem_singleton.1 (List.mem_filter.1 hp).1
        have hresolved : resolve p.ipAddress p.portNum = some src :=
          (hroll.listable _ hmember).getAddressFor hfields
        exact Option.some.inj (hresolved.symm.trans haddr)
    refine ⟨⟨src, nickname⟩, hmember, hsrc, _, updates,
      ⟨leader, base.participants, rfl, q, ?_, hfields⟩, ?_⟩
    · exact mem_others.2 ⟨hps ▸ List.mem_append_right _ (List.mem_singleton.2 rfl), hflag⟩
    · rw [hsent₁, hfilter, hms]

end Posting

/-! ## Runs -/

/-- What holds in every chronicle: each process has been handed the log without gaps, from its
admission on, and one that is asking to be let in has been handed nothing yet. -/
structure Chronicle.Sequenced (resolve : Bytes → Bytes → Option RmpAddress) (founder : RmpAddress)
    (c : Chronicle) : Prop where
  ordered : (c.bulletin resolve founder).Ordered
  asking : ∀ b, pending b c.session.flight ≤ 1
  fresh : ∀ b, pending b c.session.flight ≠ 0 →
    c.track founder b = [] ∧ ¬ c.Listed resolve founder b
  unknown : ∀ b, b ∉ c.session.roll.map Member.address →
    pending b c.session.flight = 0 ∧ c.track founder b = []
  admitted : ∀ a, c.Listed resolve founder a → c.FromAdmission founder a

/-- What is known of the session of a chronicle. -/
structure Chronicle.Known (resolve : Bytes → Bytes → Option RmpAddress) (founder : RmpAddress)
    (c : Chronicle) : Prop where
  sole : c.session.Sole founder
  enrolled : Enrolled resolve c.session.roll
  all : c.session.All (InOrder (Consistent c.session.roll) c.session.roll)
    (Authentic (Census resolve c.session.roll) c.session.roll)

section Runs

variable {resolve : Bytes → Bytes → Option RmpAddress} {founder : Member} {c c' : Chronicle}
  {address a b : RmpAddress} {cue : Cue} {weather : Weather} {locals : Locals} {p p' : Process}
  {event : Event} {rest : List (Packet RmpAddress Bytes)}

theorem chronicleStep_eq_some {founder : RmpAddress} {action : Action}
    (h : chronicleStep resolve founder c action = some c') :
    sessionStep resolve c.session action = some c'.session ∧
      c'.received = c.received ++ c.session.taken action ∧
      c'.log = c.log ++ c'.session.posts founder action := by
  obtain ⟨g, hg, rfl⟩ := Option.map_eq_some_iff.1 h
  exact ⟨hg, rfl, rfl⟩

/-- The session of a chronicle. -/
theorem session_of_reach
    (h : Reach (chronicleStep resolve founder.address) (Reliable resolve) (Opened founder) c) :
    Reach (sessionStep resolve) (fun g action => Admissible resolve g action ∧ Unopposed action)
      (Founded founder) c.session := by
  refine h.map (fun c hc => hc.1) fun c action c' hok hs => ⟨?_, (chronicleStep_eq_some hs).1⟩
  cases action with
  | join address nickname addrPort weather => exact ⟨hok.1, trivial⟩
  | round address cue weather locals =>
    refine ⟨trivial, ?_⟩
    cases cue with
    | victory => exact absurd rfl hok.1.1
    | receive k | stdin buf | heartbeat | restart => trivial
  | crash address => exact ⟨trivial, trivial⟩
  | lose k => exact hok.1.elim
  | copy k => exact hok.1.elim

theorem known_of_reach (hfounder : founder.Listable resolve)
    (h : Reach (chronicleStep resolve founder.address) (Reliable resolve) (Opened founder) c) :
    c.Known resolve founder.address := by
  have hs := session_of_reach h
  have hadmissible : Reach (sessionStep resolve) (Admissible resolve) (Founded founder) c.session :=
    hs.mono fun g action g' hok hstep => ⟨hok.1, hstep⟩
  exact ⟨sole_of_reach (fun g action hok => hok.2) hs, enrolled_of_reach hfounder hadmissible,
    consistent_of_reach hfounder hadmissible⟩

/-- A round adds what is posted to each track. -/
theorem track_round (founder : RmpAddress)
    (hm : c.session.Moved resolve address cue weather locals p p' event rest c'.session)
    (hturn : InTurn c.session cue)
    (hreceived : c'.received = c.received ++ c.session.taken (.round address cue weather locals))
    (a : RmpAddress) : c'.track founder a =
      c.track founder a ++ handedTo founder a (Session.posted weather address p'.node.sent) := by
  rw [Chronicle.track, Chronicle.track, hreceived, hm.flight, handedTo_append, handedTo_append,
    ← handedTo_read weather locals hturn hm.read]
  simp only [List.append_assoc]

/-- An action in which the founder posts nothing. -/
theorem Chronicle.Sequenced.quiet {founder : RmpAddress} (h : c.Sequenced resolve founder)
    (hlog : c'.log = c.log) (htrack : ∀ a, c'.track founder a = c.track founder a)
    (hlisted : ∀ a, c'.Listed resolve founder a → c.Listed resolve founder a)
    (hpending : ∀ b, pending b c'.session.flight ≤ pending b c.session.flight)
    (hroll : c'.session.roll = c.session.roll) : c'.Sequenced resolve founder := by
  have hadmitted : ∀ a, c'.Listed resolve founder a → c'.FromAdmission founder a := by
    intro a ha
    rw [Chronicle.FromAdmission, hroll, hlog, htrack]
    exact h.admitted a (hlisted a ha)
  have hposted :
      (c.bulletin resolve founder).Posted [] (fun _ => []) (c'.bulletin resolve founder) := by
    refine ⟨?_, fun a => ?_, fun a => List.prefix_rfl, fun a _ => rfl, fun a ha => .inl ?_⟩
    · rw [List.append_nil]
      exact hlog
    · rw [List.append_nil]
      exact htrack a
    · exact ha.elim (hlisted a) fun ha => absurd rfl ha
  refine ⟨h.ordered.post hposted, fun b => (hpending b).trans (h.asking b), fun b hb => ?_,
    fun b hb => ?_, hadmitted⟩
  · obtain ⟨hnone, hout⟩ := h.fresh b fun hzero => hb (Nat.le_zero.1 (hzero ▸ hpending b))
    exact ⟨(htrack b).trans hnone, fun hin => hout (hlisted b hin)⟩
  · rw [hroll] at hb
    obtain ⟨hzero, hnone⟩ := h.unknown b hb
    exact ⟨Nat.le_zero.1 (hzero ▸ hpending b), (htrack b).trans hnone⟩

/-- An ADD_ME that is under way. -/
theorem pending_ne_zero {g : Session} {buf line : Bytes} {src dst : RmpAddress}
    (hmem : (⟨src, dst, buf⟩ : Packet RmpAddress Bytes) ∈ g.flight)
    (hbody : ∃ word ∈ commands, Carries buf word) (hreads : Reads locals buf messageAddMe line) :
    concerns src ⟨src, dst, buf⟩ = true ∧ pending src g.flight ≠ 0 := by
  have hconcerns : concerns src (⟨src, dst, buf⟩ : Packet RmpAddress Bytes) = true :=
    concerns_iff.2 (.inl ⟨rfl, hreads.commandOf (by decide) hbody⟩)
  exact ⟨hconcerns, fun hzero => List.countP_eq_zero.1 hzero _ hmem hconcerns⟩

/-- What a round of the founder is. -/
theorem Chronicle.Known.leaderRound {founder : RmpAddress} {s s' : Node} (hk : c.Known resolve founder)
    (hcue : cue ≠ .victory)
    (hm : c.session.Moved resolve founder cue weather locals (.chatting s) (.chatting s') event rest
      c'.session) :
    s.isLeader = true ∧
      LeaderRound (Session.env resolve weather) locals { s with sent := [] } event s' ∧
      Consistent c.session.roll founder { s with sent := [] } ∧
      (∀ e ∈ s'.sent, Outgoing locals { s with sent := [] } event s' e) ∧
      ∀ buf src, event = .receive buf src →
        Authentic (Census resolve c.session.roll) c.session.roll ⟨src, founder, buf⟩ := by
  have hvictory := Session.event_ne_victory hcue hm.read
  have hl : s.isLeader = true := by
    obtain ⟨s₁, hs₁, hl⟩ := hk.sole.leads _ hm.live
    exact Process.chatting.inj hs₁ ▸ hl
  have hconsistent : Consistent c.session.roll founder s := hk.all.procs _ _ hm.live
  obtain ⟨j, _, _, hj, -⟩ | ⟨j, _, hj, -⟩ | ⟨_, _, hs, hs', hr, hout⟩ := hm.round.outgoing
  · cases hj
  · cases hj
  obtain rfl := Process.chatting.inj hs
  obtain rfl := Process.chatting.inj hs'
  exact ⟨hl, hr.leaderRound hl rfl hvictory, hconsistent.congr rfl rfl rfl rfl rfl rfl, hout,
    fun buf src hevent => hk.all.flight _ ((Session.mem_of_read hm.read).1 buf src hevent)⟩

theorem Chronicle.Known.bodies {founder : RmpAddress} (hk : c.Known resolve founder) :
    ∀ x ∈ c.session.flight, ∃ word ∈ commands, Carries x.body word := by
  intro x hx
  obtain ⟨word, hword, hcarries, -⟩ := hk.all.flight x hx
  exact ⟨word, hword, hcarries⟩

/-- The messages of a round of the founder, and the log. -/
theorem posts_founder {s s' : Node}
    (hm : c.session.Moved resolve address cue weather locals (.chatting s) (.chatting s') event rest
      c'.session) :
    c'.session.posts address (.round address cue weather locals) =
      broadcasts none (s'.sent.filter fun e => published e.message) := by
  simp only [Session.posts, if_pos, hm.procs, Function.update_self, Option.map_some,
    Option.getD_some, Process.node]

/-- **A round of the founder.** -/
theorem Chronicle.Sequenced.founder_round {s s' : Node} (h : c.Sequenced resolve address)
    (hk : c.Known resolve address) (hcue : cue ≠ .victory) (hturn : InTurn c.session cue)
    (hhonest : weather.Honest)
    (hm : c.session.Moved resolve address cue weather locals (.chatting s) (.chatting s') event rest
      c'.session)
    (hreceived : c'.received = c.received ++ c.session.taken (.round address cue weather locals))
    (hlog : c'.log = c.log ++ c'.session.posts address (.round address cue weather locals)) :
    c'.Sequenced resolve address := by
  obtain ⟨hl, hround, hconsistent, hout, hauthentic⟩ := hk.leaderRound hcue hm
  have hread : ∀ buf src, event = .receive buf src →
      (⟨src, address, buf⟩ : Packet RmpAddress Bytes) ∈ c.session.flight :=
    (Session.mem_of_read hm.read).1
  have hposted := hround.posted hhonest hk.enrolled hconsistent hl hauthentic
  have hlisted : ∀ a, c'.Listed resolve address a ↔ a ∈ audience resolve s' := by
    intro a
    simp only [Chronicle.Listed, hm.procs, Function.update_self, Option.some.injEq,
      Process.chatting.injEq, exists_eq_left']
  have hlisted₀ : ∀ a, a ∈ audience resolve s → c.Listed resolve address a :=
    fun a ha => ⟨s, hm.live, ha⟩
  have hpending : ∀ b, pending b (c.session.taken (.round address cue weather locals)) +
      pending b c'.session.flight = pending b c.session.flight :=
    fun b => hm.pending_leader hl rfl hout
  -- who has just asked to be let in has nothing more under way
  have hasked : ∀ a, (∃ buf line, event = .receive buf a ∧ Reads locals buf messageAddMe line) →
      pending a c.session.flight ≠ 0 ∧ pending a c'.session.flight = 0 := by
    rintro a ⟨buf, line, rfl, hreads⟩
    have hmem := hread buf a rfl
    obtain ⟨hconcerns, hne⟩ := pending_ne_zero hmem (hk.bodies _ hmem) hreads
    have htaken : 1 ≤ pending a (c.session.taken (.round address cue weather locals)) := by
      obtain ⟨-, -, hnone⟩ | ⟨k, x, -, htaken, hevent, hdst, -⟩ :=
        Session.taken_of_read weather locals hm.read
      · exact absurd rfl (hnone buf a)
      · obtain ⟨rfl, rfl⟩ := Event.receive.inj hevent
        rw [htaken, pending, List.countP_singleton, if_pos]
        subst hdst
        exact hconcerns
    have hle := h.asking a
    have hsum := hpending a
    exact ⟨hne, by omega⟩
  have htrack := track_round address hm hturn hreceived
  have hlog' : c'.log = c.log ++ broadcasts none (s'.sent.filter fun e => published e.message) :=
    hlog.trans (by rw [posts_founder hm])
  refine ⟨h.ordered.post
    ⟨hlog', htrack, fun a => (hposted a).1, fun a ha => (hposted a).2.1 ((hlisted a).1 ha), ?_⟩,
    fun b => ?_, fun b hb => ?_, fun b hb => ?_, fun a ha => ?_⟩
  · intro a ha
    obtain hin | hadd := (hposted a).2.2 (ha.imp_left (hlisted a).1)
    · exact .inl (hlisted₀ a hin)
    · exact .inr (h.fresh a (hasked a hadd).1).1
  · have hle := h.asking b
    have hsum := hpending b
    omega
  · have hne : pending b c.session.flight ≠ 0 := by
      have hsum := hpending b
      omega
    obtain ⟨hnone, hout⟩ := h.fresh b hne
    have hneither : ¬ (b ∈ audience resolve s' ∨
        handedTo address b (Session.posted weather address s'.sent) ≠ []) := by
      intro hnew
      obtain hin | hadd := (hposted b).2.2 hnew
      · exact hout (hlisted₀ b hin)
      · exact hb (hasked b hadd).2
    obtain ⟨hout', hnone'⟩ := not_or.1 hneither
    refine ⟨?_, fun hin => hout' ((hlisted b).1 hin)⟩
    rw [htrack, hnone, List.nil_append]
    exact not_not.1 hnone'
  · rw [hm.roll] at hb
    obtain ⟨hzero, hnone⟩ := h.unknown b hb
    have hsum := hpending b
    refine ⟨by omega, ?_⟩
    rw [htrack, hnone, List.nil_append]
    by_contra hnew
    obtain hin | hadd := (hposted b).2.2 (.inr hnew)
    · exact hb (hconsistent.mem_audience hk.enrolled hin)
    · exact (hasked b hadd).1 hzero
  · have hin' := (hlisted a).1 ha
    have htrack' : c'.track address a =
        c.track address a ++ broadcasts none (s'.sent.filter fun e => published e.message) :=
      (htrack a).trans (congrArg (c.track address a ++ ·) ((hposted a).2.1 hin'))
    rw [Chronicle.FromAdmission, hm.roll, hlog', htrack']
    by_cases hin : a ∈ audience resolve s
    · obtain ⟨m, hmem, rfl, before, update, rest, hintro, hlog₀, htrack₀⟩ :=
        h.admitted a (hlisted₀ a hin)
      refine ⟨m, hmem, rfl, before, update,
        rest ++ broadcasts none (s'.sent.filter fun e => published e.message), hintro, ?_, ?_⟩
      · rw [hlog₀, List.append_assoc, List.cons_append]
      · rw [htrack₀, List.cons_append]
    · -- it has been handed nothing before
      obtain hold | hadd := (hposted a).2.2 (.inl hin')
      · exact absurd hold hin
      have hnone := (h.fresh a (hasked a hadd).1).1
      obtain ⟨m, hmem, rfl, update, rest, hintro, hms⟩ :=
        hround.introduced hk.enrolled hconsistent hauthentic hin' hin
      refine ⟨m, hmem, rfl, c.log, update, rest, hintro, ?_, ?_⟩
      · rw [hms]
      · rw [hnone, List.nil_append, hms]

/-- A process is started. -/
theorem Chronicle.Sequenced.join {founder : RmpAddress} {nickname addrPort : Bytes} {j : Joining}
    (h : c.Sequenced resolve founder) (hk : c.Known resolve founder)
    (hnew : address ∉ c.session.roll.map Member.address)
    (hj : joinChat (Session.env resolve weather) nickname (inetNtoa address) (portText address)
      addrPort = .ok j)
    (hg : c'.session = ⟨Function.update c.session.procs address (some (.joining j)),
      c.session.flight ++ Session.posted weather address j.node.sent,
      c.session.roll ++ [⟨address, nickname⟩], c.session.heard⟩)
    (hreceived : c'.received = c.received ++ c.session.taken (.join address nickname addrPort weather))
    (hlog : c'.log = c.log ++ c'.session.posts founder (.join address nickname addrPort weather)) :
    c'.Sequenced resolve founder := by
  have hne : address ≠ founder := fun heq => hnew (heq ▸ hk.sole.enrolled)
  obtain ⟨e, lines, hnode, hmessage⟩ := joinChat_ok hj
  have hsent : j.node.sent = [e] := by rw [hnode]
  have hword : commandOf e.message = messageAddMe :=
    hmessage ▸ (carries_addMeCmd nickname).commandOf (by decide)
  have htrack : ∀ a, c'.track founder a = c.track founder a := by
    intro a
    have hreceived' : c'.received = c.received := hreceived.trans (List.append_nil _)
    rw [Chronicle.track, Chronicle.track, hreceived', hg, handedTo_append, handedTo_posted_ne hne,
      List.append_nil]
  have hlisted : ∀ a, c'.Listed resolve founder a → c.Listed resolve founder a := by
    rintro a ⟨s, hs, hmem⟩
    rw [hg] at hs
    obtain ⟨rfl, -⟩ | ⟨-, hold⟩ := live_of_update hs
    · exact absurd rfl hne
    · exact ⟨s, hold, hmem⟩
  have hout : ¬ c.Listed resolve founder address := by
    rintro ⟨s, hs, hmem⟩
    have hconsistent : Consistent c.session.roll founder s := hk.all.procs _ _ hs
    exact hnew (hconsistent.mem_audience hk.enrolled hmem)
  have hpending : ∀ b, pending b c'.session.flight ≤
      pending b c.session.flight + if b = address then 1 else 0 := by
    intro b
    have hposted : pending b (Session.posted weather address j.node.sent) ≤
        if b = address then 1 else 0 := by
      rw [hsent]
      refine ((Session.posted_sublist weather address [e]).countP_le (p := concerns b)).trans ?_
      rw [List.map_singleton, List.countP_singleton]
      by_cases hb : b = address
      · rw [if_pos hb]
        split <;> omega
      · rw [if_neg, if_neg hb]
        rw [concerns_iff]
        rintro (⟨hsrc, -⟩ | ⟨-, hanswer⟩)
        · exact hb hsrc.symm
        · rw [answers_addMe hword] at hanswer
          cases hanswer
    have happend : pending b c'.session.flight = pending b c.session.flight +
        pending b (Session.posted weather address j.node.sent) := by
      rw [hg, pending, List.countP_append]
      rfl
    omega
  have hsame : ∀ b, b ≠ address → pending b c'.session.flight ≤ pending b c.session.flight := by
    intro b hb
    have hle := hpending b
    rw [if_neg hb] at hle
    exact hle
  obtain ⟨hzero, hnone⟩ := h.unknown address hnew
  refine ⟨?_, fun b => ?_, fun b hb => ?_, fun b hb => ?_, fun a ha => ?_⟩
  · have hposted :
        (c.bulletin resolve founder).Posted [] (fun _ => []) (c'.bulletin resolve founder) := by
      refine ⟨?_, fun a => ?_, fun a => List.prefix_rfl, fun a _ => rfl, fun a ha => .inl ?_⟩
      · exact hlog
      · rw [List.append_nil]
        exact htrack a
      · exact ha.elim (hlisted a) fun ha => absurd rfl ha
    exact h.ordered.post hposted
  · by_cases hb : b = address
    · have hle := hpending b
      rw [if_pos hb, hb, hzero] at hle
      rw [hb]
      exact hle
    · exact (hsame b hb).trans (h.asking b)
  · by_cases hba : b = address
    · subst hba
      exact ⟨(htrack b).trans hnone, fun hin => hout (hlisted b hin)⟩
    · obtain ⟨hnone, hout⟩ := h.fresh b fun hz => hb (Nat.le_zero.1 (hz ▸ hsame b hba))
      exact ⟨(htrack b).trans hnone, fun hin => hout (hlisted b hin)⟩
  · rw [hg, List.map_append, List.mem_append, not_or] at hb
    have hba : b ≠ address := fun heq => hb.2 (by simp [heq])
    obtain ⟨hz, hnone⟩ := h.unknown b hb.1
    exact ⟨Nat.le_zero.1 (hz ▸ hsame b hba), (htrack b).trans hnone⟩
  · obtain ⟨m, hm, rfl, before, update, rest, hintro, hlog₀, htrack₀⟩ := h.admitted a (hlisted a ha)
    have hroll : c'.session.roll = c.session.roll ++ [⟨address, nickname⟩] := by rw [hg]
    exact ⟨m, hroll ▸ List.mem_append_left _ hm, rfl, before, update, rest, hintro,
      (hlog.trans (List.append_nil _)).trans hlog₀, (htrack _).trans htrack₀⟩

/-- **An action keeps the order.** -/
theorem Chronicle.Sequenced.step {founder : RmpAddress} {action : Action}
    (h : c.Sequenced resolve founder) (hk : c.Known resolve founder) (hok : Reliable resolve c action)
    (hs : chronicleStep resolve founder c action = some c') : c'.Sequenced resolve founder := by
  obtain ⟨hs, hreceived, hlog⟩ := chronicleStep_eq_some hs
  cases action with
  | join address nickname addrPort weather =>
    obtain ⟨j, hnew, hj, hg⟩ := joined_of_join hs
    exact h.join hk hnew hj hg hreceived hlog
  | round address cue weather locals =>
    obtain ⟨p, p', event, rest, hm⟩ := moved_of_round hs
    obtain ⟨⟨hcue, hturn⟩, hhonest⟩ := hok
    by_cases ha : address = founder
    · subst ha
      obtain ⟨s, rfl, -⟩ := hk.sole.leads _ hm.live
      obtain ⟨s', rfl⟩ : ∃ s', p' = .chatting s' := by
        cases hm.round with
        | reacted hr => exact ⟨_, rfl⟩
      exact h.founder_round hk hcue hturn hhonest hm hreceived hlog
    · refine h.quiet ?_ (fun a => ?_) (fun a hin => ?_) (fun b => hm.pending_le hk.bodies) hm.roll
      · rw [hlog, Session.posts, if_neg ha, List.append_nil]
      · rw [track_round _ hm hturn hreceived, handedTo_posted_ne ha, List.append_nil]
      · obtain ⟨s, hs, hmem⟩ := hin
        rw [hm.procs, Function.update_of_ne (Ne.symm ha)] at hs
        exact ⟨s, hs, hmem⟩
  | crash address =>
    have hg : { c.session with procs := Function.update c.session.procs address none } = c'.session :=
      Option.some.inj hs
    refine h.quiet ?_ (fun a => ?_) (fun a hin => ?_) (fun b => ?_) (by rw [← hg])
    · exact hlog.trans (List.append_nil _)
    · have hreceived' : c'.received = c.received := hreceived.trans (List.append_nil _)
      rw [Chronicle.track, Chronicle.track, hreceived', ← hg]
    · obtain ⟨s, hs, hmem⟩ := hin
      rw [← hg] at hs
      obtain ⟨-, hnone⟩ | ⟨-, hold⟩ := live_of_update hs
      · cases hnone
      · exact ⟨s, hold, hmem⟩
    · rw [← hg]
  | lose k => exact hok.1.elim
  | copy k => exact hok.1.elim

theorem sequenced_of_opened (h : Opened founder c) : c.Sequenced resolve founder.address := by
  obtain ⟨⟨s, hs, hg⟩, hreceived, hlog⟩ := h
  have hflight : c.session.flight = [] := by rw [hg]
  have htrack : ∀ a, c.track founder.address a = [] := by
    intro a
    rw [Chronicle.track, hreceived, hflight]
    rfl
  have hzero : ∀ b, pending b c.session.flight = 0 := by
    intro b
    rw [hflight]
    rfl
  have hordered : (c.bulletin resolve founder.address).Ordered := by
    have hhanded : ∀ a, (c.bulletin resolve founder.address).handed a = [] := htrack
    refine ⟨fun a => ?_, fun a _ => ?_⟩
    · rw [hhanded]
      exact List.nil_infix
    · rw [hhanded]
      exact List.nil_suffix
  refine ⟨hordered, fun b => ?_, fun b hb => absurd (hzero b) hb, fun b _ => ⟨hzero b, htrack b⟩, ?_⟩
  · rw [hzero]
    exact Nat.zero_le 1
  · -- the founder is the only one on its list
    rintro a ⟨s₁, hs₁, hmem⟩
    rw [hg] at hs₁
    dsimp only at hs₁
    rw [if_pos rfl] at hs₁
    obtain rfl := Process.chatting.inj (Option.some.inj hs₁)
    obtain ⟨leader, hled⟩ := (recorded_of_started (.founder hs)).2
    obtain ⟨q, lines, hnode, -⟩ := startChat_ok hs
    obtain ⟨p, hp, -⟩ := List.mem_filterMap.1 hmem
    obtain ⟨hp, hflag⟩ := mem_others.1 hp
    have hlist : s.participants = [q] := by rw [hnode]
    have hfront : leader ∈ s.participants.filter Participant.isLeader := by
      rw [hled.flagged]
      exact List.mem_singleton.2 rfl
    obtain ⟨hleader, hlead⟩ := List.mem_filter.1 hfront
    rw [hlist] at hp hleader
    rw [List.mem_singleton.1 hp] at hflag
    rw [List.mem_singleton.1 hleader, hflag] at hlead
    cases hlead

theorem sequenced_of_reach (hfounder : founder.Listable resolve)
    (h : Reach (chronicleStep resolve founder.address) (Reliable resolve) (Opened founder) c) :
    c.Sequenced resolve founder.address :=
  h.invariant_of (fun _ hc => known_of_reach hfounder hc) (fun _ hc => sequenced_of_opened hc)
    fun _ _ _ hk hI hok hs => hI.step hk hok hs

/-- **The founder's broadcasts reach everybody in one order**, each member of its list all of them
from the PARTICIPANT_UPDATE with which it was let in. -/
theorem ordered_of_reach (hfounder : founder.Listable resolve)
    (h : Reach (chronicleStep resolve founder.address) (Reliable resolve) (Opened founder) c) :
    (∀ a, c.track founder.address a <:+: c.log) ∧
      (∀ a, c.Listed resolve founder.address a →
        c.track founder.address a <:+ c.log ∧ c.FromAdmission founder.address a) ∧
      ∀ a b, c.Listed resolve founder.address a → c.Listed resolve founder.address b →
        c.track founder.address a <:+ c.track founder.address b ∨
          c.track founder.address b <:+ c.track founder.address a := by
  obtain ⟨hordered, -, -, -, hadmitted⟩ := sequenced_of_reach hfounder h
  exact ⟨hordered.gapless, fun a ha => ⟨hordered.current a ha, hadmitted a ha⟩,
    fun a b ha hb => hordered.comparable ha hb⟩

end Runs

/-! ## A run -/

theorem honest_fairWeather : fairWeather.Honest := fun _ _ _ _ => rfl

/-- What a chronicle looks like after a list of actions from the foundation of its session. -/
theorem exists_chronicle_of_exec {resolve : Bytes → Bytes → Option RmpAddress} {founder : Member}
    {actions : List Action} {β : Type} {f : Chronicle → β} {b : β}
    (hhonest : ∀ action ∈ actions, action.Honest)
    (h : ((founding founder).bind fun g => exec (chronicleStep resolve founder.address)
      (Punctual resolve) ⟨g, [], []⟩ actions).map f = some b) :
    ∃ c, Reach (chronicleStep resolve founder.address) (Reliable resolve) (Opened founder) c ∧
      f c = b := by
  obtain ⟨c, hc, hb⟩ := Option.map_eq_some_iff.1 h
  obtain ⟨g, hg, hrun⟩ := Option.bind_eq_some_iff.1 hc
  obtain ⟨s, hs, rfl⟩ := Option.map_eq_some_iff.1 hg
  refine ⟨c, reach_exec_of (fun c action hmem hok => ⟨hok, hhonest action hmem⟩)
    (.start ⟨⟨s, Fault.toOption_eq_some.1 hs, rfl⟩, rfl, rfl⟩) hrun, hb⟩

/-- The leader `a` sends a line, and `b` receives it before `c` does. -/
def announcement : List Action :=
  gathering ++ [.round (localHost 80) (.stdin [104, 10]) fairWeather .blank, receiveAt 81]

theorem honest_announcement : ∀ action ∈ announcement, action.Honest := by
  simp [announcement, gathering, receiveAt, Action.Honest, honest_fairWeather]

theorem ordered_of_reach_announcement : ∃ c : Chronicle,
    (c.log.length = 3 ∧ (c.track (localHost 80) (localHost 81)).length = 3 ∧
      (c.track (localHost 80) (localHost 82)).length = 2) ∧
    (∀ a, c.track host.address a <:+: c.log) ∧
      (∀ a, c.Listed loopbackAddress host.address a →
        c.track host.address a <:+ c.log ∧ c.FromAdmission host.address a) ∧
      ∀ a b, c.Listed loopbackAddress host.address a → c.Listed loopbackAddress host.address b →
        c.track host.address a <:+ c.track host.address b ∨
          c.track host.address b <:+ c.track host.address a := by
  have hrun : ((founding host).bind fun g => exec (chronicleStep loopbackAddress host.address)
      (Punctual loopbackAddress) ⟨g, [], []⟩ announcement).map (fun c => (c.log.length,
        (c.track (localHost 80) (localHost 81)).length,
        (c.track (localHost 80) (localHost 82)).length)) = some (3, 3, 2) := by decide
  obtain ⟨c, hreach, hlengths⟩ := exists_chronicle_of_exec honest_announcement hrun
  obtain ⟨h₁, h₂⟩ := Prod.mk.inj hlengths
  obtain ⟨h₂, h₃⟩ := Prod.mk.inj h₂
  exact ⟨c, ⟨h₁, h₂, h₃⟩, ordered_of_reach listable_host hreach⟩

end Dchat.Chat
