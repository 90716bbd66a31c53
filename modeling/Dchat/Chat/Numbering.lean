import Dchat.Chat.Nickname
import Dchat.Chat.Session

/-!
# The numbers of the MESSAGE_BROADCASTs

A leader numbers the MESSAGE_BROADCASTs with its `clock_num`, which it increases afterwards, and a
node that receives one sets its own `clock_num` to the number. A node that takes over as the leader
goes on from there: its first MESSAGE_BROADCAST has the number of the last one that it received.

A `Succession` is a session with the process that leads, the last one that has declared victory.
Those that led before it may still be there, and take themselves for the leader: nobody asks them
for a number any more (`Orderly`).

* `increasing_of_reach`: the numbers that a process receives increase in every succession in which
  the leader is ahead of those to whom it is going to send numbers (`Leading`).
* `not_increasing`: a leader is gone, and its successor repeats the last number.
-/

namespace Dchat.Chat

open CString Stdio RMP Links Runs

/-! ## The number in a message -/

/-- The number in a message, if it is a MESSAGE_BROADCAST. -/
def numberIn (body : Bytes) : Option ℤ := do
  let r ← (sscanf [.str 20, .white, .int] body).toOption
  if r.text 0 [] = messageBroadcast then some (r.int 1 0) else none

/-- A message with a command, and with a number if this is MESSAGE_BROADCAST. -/
def Worded (body : Bytes) : Prop :=
  ∃ word ∈ commands, Carries body word ∧ (word = messageBroadcast → ∃ (id : ℤ) (rest : Bytes),
    0 ≤ id ∧ id < 2147483648 ∧ body.length < maxBufferLen ∧
      body = messageBroadcast ++ 32 :: (decimalInt id ++ 32 :: rest))

section Numbers

variable {locals : Locals} {body word rest : Bytes} {id n : ℤ}

theorem numberIn_broadcast (hlo : 0 ≤ id) (hhi : id < 2147483648) (rest : Bytes) :
    numberIn (messageBroadcast ++ 32 :: (decimalInt id ++ 32 :: rest)) = some id := by
  have hne := decimalInt_ne_nil id
  have hblank : sscanf [.white, .int] ([32] ++ (decimalInt id ++ 32 :: rest)) = _ :=
    sscanf_white (by decide) ((stops_append hne _).2 (stops_decimalInt id))
  rw [List.singleton_append] at hblank
  unfold numberIn
  rw [sscanf_str (by decide) (by decide) (by decide) ((stops_cons ..).2 (by decide)), hblank,
    sscanf_int (by omega) hhi ((stops_cons ..).2 (by decide))]
  rfl

theorem numberIn_of_carries (hword : word ∈ commands) (hcarries : Carries body word)
    (hne : word ≠ messageBroadcast) : numberIn body = none := by
  unfold numberIn
  cases h : sscanf [.str 20, .white, .int] body with
  | error e => rfl
  | ok r =>
    have htext := text_of_carries hword hcarries h
    simp only [Except.toOption, Option.bind_eq_bind, Option.bind_some, htext, if_neg hne]

theorem id_of_scanBroadcast {nickname payload : Bytes} (hlo : 0 ≤ id) (hhi : id < 2147483648)
    (h : scanBroadcast locals (decimalInt id ++ 32 :: rest) = .ok (n, nickname, payload)) : id = n := by
  obtain ⟨r, hr, h⟩ := Fault.bind_eq_ok.1 h
  split at h
  · cases h
  obtain ⟨rfl, -⟩ := Prod.mk.inj (Except.ok.inj h)
  rw [broadcastFormat, sscanf_int (by omega) hhi ((stops_cons ..).2 (by decide))] at hr
  cases hrest : sscanf _ (32 :: rest) with
  | error e =>
    rw [hrest] at hr
    cases hr
  | ok r' =>
    rw [hrest] at hr
    obtain rfl := Except.ok.inj hr
    rfl

/-- What a process reads as the number is the number in the message. -/
theorem numberIn_of_numberOf (hbody : Worded body) (h : numberOf locals body = some n) :
    numberIn body = some n := by
  obtain ⟨⟨messageType, restMessage⟩, hscan, h⟩ := Option.bind_eq_some_iff.1 h
  dsimp only at h
  split at h
  · next hcmp =>
    obtain ⟨⟨messageId, nickname, payload⟩, hread, hid⟩ := Option.bind_eq_some_iff.1 h
    have hscan := Fault.toOption_eq_some.1 hscan
    have hread := Fault.toOption_eq_some.1 hread
    obtain ⟨word, hword, hcarries, hnumber⟩ := hbody
    have hreads : Reads locals body messageBroadcast restMessage := ⟨messageType, hscan, hcmp⟩
    obtain rfl := hreads.command_eq (by decide) hword hcarries
    obtain ⟨id, rest, hlo, hhi, hlen, rfl⟩ := hnumber rfl
    rw [numberIn_broadcast hlo hhi]
    have hne := decimalInt_ne_nil id
    have hstop : Stops isSpace (decimalInt id ++ 32 :: rest) :=
      (stops_append hne _).2 (stops_decimalInt id)
    have hdigits : ∀ c ∈ decimalInt id, isLineByte c = true := by
      intro c hc
      refine mem_line fun h10 => ?_
      exact absurd (eq_or_isDigit_of_mem_decimalInt (h10 ▸ hc)) (by decide)
    -- the number and the blank after it are on the first line
    have hline : (decimalInt id ++ 32 :: rest).takeWhile isLineByte =
        decimalInt id ++ 32 :: rest.takeWhile isLineByte := by
      rw [List.takeWhile_append_of_pos hdigits]
      rfl
    have hcommand : scanCommand locals (messageBroadcast ++ 32 :: (decimalInt id ++ 32 :: rest)) =
        .ok (messageBroadcast, decimalInt id ++ 32 :: rest.takeWhile isLineByte) := by
      rw [← hline]
      refine scanCommand_argument (by decide) (by decide) (by decide) ?_ hstop ?_
      · rw [hline]
        simp [hne]
      · rw [List.length_append, List.length_cons] at hlen
        omega
    obtain ⟨rfl, rfl⟩ := Prod.mk.inj (Except.ok.inj (hcommand.symm.trans hscan))
    rw [id_of_scanBroadcast hlo hhi hread]
    exact hid
  · cases h

end Numbers

/-! ## The numbers of a process -/

/-- The numbers in those of the messages that are for `a`. -/
def numbersTo (a : RmpAddress) (flight : List (Packet RmpAddress Bytes)) : List ℤ :=
  (flight.filter fun x => x.dst = a).filterMap fun x => numberIn x.body

namespace Session

/-- The numbers that the process at `a` has received. -/
def numbers (g : Session) (a : RmpAddress) : List ℤ := (g.heard.filter fun e => e.1 = a).map Prod.snd

/-- The numbers that the process at `a` has received, and those that are under way to it. -/
def track (g : Session) (a : RmpAddress) : List ℤ := g.numbers a ++ numbersTo a g.flight

/-- **No number repeats or goes back.** -/
def Increasing (g : Session) : Prop := ∀ a, (g.numbers a).Pairwise (· < ·)

/-- The process at `a` has crashed. -/
def gone (g : Session) (a : RmpAddress) : Bool :=
  decide (a ∈ g.roll.map Member.address) && (g.procs a).isNone

/-- The process at `a` is in `chat` as the leader. -/
def leads (g : Session) (a : RmpAddress) : Bool :=
  match g.procs a with
  | some (.chatting s) => s.isLeader
  | _ => false

end Session

/-- A session, with the process that has declared victory last, or else its founder. -/
structure Succession where
  session : Session
  leader : RmpAddress

/-- The process at an address declares victory. -/
def Session.declares (g : Session) (address : RmpAddress) (cue : Cue) : Bool :=
  match cue, g.procs address with
  | .victory, some (.chatting s) => !s.isLeader && s.inElection && s.startedElection
  | _, _ => false

/-- The leader after an action. -/
def Succession.next (c : Succession) : Action → RmpAddress
  | .round address cue _ _ => if c.session.declares address cue then address else c.leader
  | .join .. | .crash .. | .lose .. | .copy .. => c.leader

/-- What happens in a session, and who leads after it. -/
def successionStep (resolve : Bytes → Bytes → Option RmpAddress) (c : Succession) (action : Action) :
    Option Succession :=
  (sessionStep resolve c.session action).map fun g => ⟨g, c.next action⟩

/-- A process has just started a chat, and leads. -/
def Succession.Begun (founder : Member) (c : Succession) : Prop :=
  Founded founder c.session ∧ c.leader = founder.address

/-- The message received is the first one under way to the process. -/
def Foremost (g : Session) (address : RmpAddress) : Cue → Prop
  | .receive k => ∀ x ∈ g.flight.take k, x.dst ≠ address
  | .stdin _ | .heartbeat | .victory | .restart => True

/-- Messages are received in the order in which they were sent, and none arrives twice. A process
that has led before the leader, and still does, gets no line and no request. -/
def Orderly (c : Succession) : Action → Prop
  | .round address cue _ locals => Foremost c.session address cue ∧
      (c.session.leads address = true → address ≠ c.leader →
        ∀ x ∈ c.session.read address cue, x.1.asksNumber locals = false)
  | .copy _ => False
  | .join .. | .crash .. | .lose .. => True

/-- The addresses that a leader sends to, of processes that have not crashed. -/
def recipients (resolve : Bytes → Bytes → Option RmpAddress) (g : Session) (s : Node) :
    List RmpAddress :=
  ((others s.participants).filterMap fun p => resolve p.ipAddress p.portNum).filter fun a => !g.gone a

/-- The recipients of a leader are different, and its `clock_num` exceeds every number that one of
them has received or is going to receive. -/
def Ahead (resolve : Bytes → Bytes → Option RmpAddress) (g : Session) (s : Node) : Prop :=
  (recipients resolve g s).Nodup ∧ ∀ a ∈ recipients resolve g s, ∀ n ∈ g.track a, n < s.clockNum

/-- The node as it gets new recipients: when it declares victory, and when it lets in a participant
as the leader. -/
def promoted (locals : Locals) (s : Node) : Event → Option Node
  | .victory => if s.isLeader = false ∧ s.inElection ∧ s.startedElection then some s.victorious else none
  | .receive buf src => do
    let (messageType, restMessage) ← (scanCommand locals buf).toOption
    if s.isLeader ∧ strcmp messageAddMe messageType = 0 ∧ s.containsParticipant restMessage = false
    then (s.insertParticipant restMessage (inetNtoa src) (portText src) false).toOption
    else none
  | _ => none

/-- A leader that gets new recipients is ahead of them. -/
def Leading (resolve : Bytes → Bytes → Option RmpAddress) (c : Succession) : Action → Prop
  | .round address cue weather locals => c.next (.round address cue weather locals) = address →
      ∀ p ∈ c.session.procs address, ∀ x ∈ c.session.read address cue,
        ∀ s ∈ promoted locals p.quiet.node x.1, Ahead resolve c.session s
  | .join .. | .crash .. | .lose .. | .copy .. => True

instance (resolve : Bytes → Bytes → Option RmpAddress) (g : Session) (s : Node) :
    Decidable (Ahead resolve g s) :=
  inferInstanceAs (Decidable (_ ∧ _))

instance (g : Session) (address : RmpAddress) : (cue : Cue) → Decidable (Foremost g address cue)
  | .receive _ => inferInstanceAs (Decidable (∀ x ∈ _, _))
  | .stdin _ | .heartbeat | .victory | .restart => inferInstanceAs (Decidable True)

instance (c : Succession) : (action : Action) → Decidable (Orderly c action)
  | .round .. => inferInstanceAs (Decidable (_ ∧ (_ → _ → ∀ x ∈ _, _)))
  | .join .. | .crash .. | .lose .. => inferInstanceAs (Decidable True)
  | .copy .. => inferInstanceAs (Decidable False)

instance (resolve : Bytes → Bytes → Option RmpAddress) (c : Succession) :
    (action : Action) → Decidable (Leading resolve c action)
  | .round .. => inferInstanceAs (Decidable (_ → ∀ p ∈ _, ∀ x ∈ _, ∀ s ∈ _, Ahead resolve _ s))
  | .join .. | .crash .. | .lose .. | .copy .. => inferInstanceAs (Decidable True)

/-! ## What one round changes -/

section Reactions

variable {env : Env} {locals : Locals} {s s' : Node} {event : Event}

/-- **The clock**: a leader that is asked for a number increases it, another node sets it to the
number of a MESSAGE_BROADCAST. -/
theorem Reaction.clockNum (h : Reaction env locals s event s') : s'.clockNum = s.clockNum ∨
    (event.asksNumber locals = true ∧ s.clockNum ≠ 2147483647 ∧ s'.clockNum = s.clockNum + 1) ∨
    (s.isLeader = false ∧
      ∃ buf src, event = .receive buf src ∧ numberOf locals buf = some s'.clockNum) := by
  cases h with
  | silent lines => exact .inl rfl
  | numbered _ hasks hclock hb =>
    exact .inr (.inl ⟨hasks, hclock, (leaderBroadcastMessage_same hb).clockNum⟩)
  | refused _ _ _ => exact .inl rfl
  | admitted _ _ _ hinsert _ hb =>
    exact .inl
      ((leaderBroadcastMessage_same hb).clockNum.trans (insertParticipant_role hinsert).clockNum)
  | responded _ hr =>
    obtain ⟨log, started, rfl⟩ := respondToLeaderElection_frame hr
    exact .inl rfl
  | heard hl hreads hscan =>
    obtain ⟨word, hcommand, hword⟩ := hreads
    refine .inr (.inr ⟨hl, _, _, rfl, ?_⟩)
    simp only [numberOf, hcommand, hscan, Except.toOption, Option.bind_eq_bind, Option.bind_some,
      if_pos hword]
    rfl
  | updated _ _ hu => exact .inl (processParticipantUpdate_role hu).clockNum
  | referred _ _ _ => exact .inl rfl
  | stopped _ _ => exact .inl rfl
  | followed _ _ => exact .inl rfl
  | asked _ _ => exact .inl rfl
  | suspected _ _ _ _ _ he =>
    obtain ⟨log, rfl, -⟩ := startElection_ok he
    exact .inl rfl
  | beaten _ _ hb => exact .inl (leaderBroadcastMessage_same hb).clockNum
  | declared _ _ _ hd =>
    obtain ⟨s₁, s₂, notice, update, lines, hvictory, -, hupdate, rfl⟩ := declareVictory_broadcasts hd
    exact .inl ((leaderBroadcastMessage_same hupdate).clockNum.trans
      (leaderBroadcastMessage_same hvictory).clockNum)
  | restarted _ _ he =>
    obtain ⟨log, rfl, -⟩ := startElection_ok he
    exact .inl rfl

/-- A leader whose clock goes on has been asked for a number. -/
theorem Reaction.asksNumber (h : Reaction env locals s event s') (hl : s.isLeader = true)
    (hclock : s'.clockNum = s.clockNum + 1) : event.asksNumber locals = true := by
  obtain hsame | ⟨hasks, -, -⟩ | ⟨hf, -⟩ := h.clockNum
  · omega
  · exact hasks
  · rw [hl] at hf
    cases hf

/-- **The list of a leader** is a part of its list before, or of that with which it got new
recipients. -/
theorem Reaction.leads (h : Reaction env locals s event s') (hl : s'.isLeader = true) :
    (s.isLeader = true ∧ s'.participants.Sublist s.participants ∧ s.clockNum ≤ s'.clockNum) ∨
      ∃ base, promoted locals s event = some base ∧ s'.participants.Sublist base.participants ∧
        base.clockNum = s.clockNum ∧ s'.clockNum = s.clockNum := by
  have hsame : ∀ t : Node, t.isLeader = s.isLeader → t.participants = s.participants →
      t.clockNum = s.clockNum → t.isLeader = true →
      s.isLeader = true ∧ t.participants.Sublist s.participants ∧ s.clockNum ≤ t.clockNum :=
    fun t ht hps hclock htl => ⟨ht ▸ htl, hps ▸ List.Sublist.refl _, hclock ▸ Int.le_refl _⟩
  have hnever : s.isLeader = false → s'.isLeader = s.isLeader → False := fun hf hs => by
    rw [hs, hf] at hl
    cases hl
  cases h with
  | silent lines => exact .inl (hsame _ rfl rfl rfl hl)
  | @numbered _ _ _ _ s₁ hl₀ _ _ hb =>
    obtain ⟨t, ht⟩ := broadcast_of_ok hb
    have hclock : s₁.clockNum = s.clockNum + 1 := ht.same.clockNum
    refine .inl ⟨hl₀, ht.sublist, ?_⟩
    rw [Node.print, hclock]
    omega
  | refused _ _ _ => exact .inl (hsame _ rfl rfl rfl hl)
  | admitted hl₀ hreads hnew hinsert _ hb =>
    obtain ⟨word, hscan, hcmp⟩ := hreads
    obtain ⟨t, ht⟩ := broadcast_of_ok hb
    have hclock := (insertParticipant_role hinsert).clockNum
    refine .inr ⟨_, ?_, ht.sublist, hclock, ht.same.clockNum.trans hclock⟩
    simp only [promoted, hscan, hinsert, Except.toOption, Option.bind_eq_bind, Option.bind_some,
      hl₀, hcmp, hnew, and_self, if_true]
  | responded _ hr =>
    obtain ⟨log, started, rfl⟩ := respondToLeaderElection_frame hr
    exact .inl (hsame _ rfl rfl rfl hl)
  | heard hl₀ _ _ => exact (hnever hl₀ rfl).elim
  | updated hl₀ _ hu => exact (hnever hl₀ (processParticipantUpdate_role hu).isLeader).elim
  | referred hl₀ _ _ => exact (hnever hl₀ rfl).elim
  | stopped hl₀ _ => exact (hnever hl₀ rfl).elim
  | followed _ _ => cases hl
  | asked hl₀ _ => exact (hnever hl₀ rfl).elim
  | suspected hl₀ _ _ _ _ he =>
    obtain ⟨log, rfl, -⟩ := startElection_ok he
    exact (hnever hl₀ rfl).elim
  | beaten hl₀ _ hb =>
    obtain ⟨t, ht⟩ := broadcast_of_ok hb
    exact .inl ⟨hl₀, ht.sublist, ht.same.clockNum ▸ Int.le_refl _⟩
  | declared hl₀ hin hstarted hd =>
    obtain ⟨s₁, s₂, notice, update, lines, hvictory, -, hupdate, rfl⟩ := declareVictory_broadcasts hd
    obtain ⟨t, ht⟩ := broadcast_of_ok hvictory
    obtain ⟨u, hu⟩ := broadcast_of_ok hupdate
    refine .inr ⟨s.victorious, if_pos ⟨hl₀, hin, hstarted⟩, hu.sublist.trans ht.sublist, rfl, ?_⟩
    exact hu.same.clockNum.trans ht.same.clockNum
  | restarted hl₀ _ he =>
    obtain ⟨log, rfl, -⟩ := startElection_ok he
    exact (hnever hl₀ rfl).elim

end Reactions

/-! ## Every message is worded -/

/-- The clock is in range, and a process in `join_chat` does not lead. -/
def Clocked (p : Process) : Prop :=
  (0 ≤ p.node.clockNum ∧ p.node.clockNum < 2147483648) ∧ ∀ j, p = .joining j → j.node.isLeader = false

section Wording

variable {env : Env} {locals : Locals} {s s' : Node} {event : Event} {p p' : Process} {e : Sent}
  {id : ℤ}

/-- The number is in the part of a MESSAGE_BROADCAST that fits. -/
theorem exists_broadcastText (hlo : 0 ≤ id) (hhi : id < 2147483648) (nickname payload : Bytes) :
    ∃ rest, snprintf 1024 (broadcastText id nickname payload) =
      messageBroadcast ++ 32 :: (decimalInt id ++ 32 :: rest) := by
  have htext : broadcastText id nickname payload =
      (messageBroadcast ++ 32 :: (decimalInt id ++ [32])) ++ (nickname ++ str "= " ++ payload) := by
    simp [broadcastText, str]
  have h17 : messageBroadcast.length = 17 := by decide
  have hlen := length_decimalInt_le (show -2147483648 ≤ id by omega) hhi
  have hprefix : (messageBroadcast ++ 32 :: (decimalInt id ++ [32])).length < 1024 := by
    simp only [List.length_append, List.length_cons, List.length_nil, h17]
    omega
  rw [htext, snprintf_append _ hprefix]
  simp only [List.append_assoc, List.cons_append, List.nil_append, List.append_cancel_left_eq,
    List.cons.injEq, true_and, exists_eq']

theorem worded_of_carries {body word : Bytes} (hword : word ∈ commands) (h : Carries body word)
    (hne : word ≠ messageBroadcast) : Worded body :=
  ⟨word, hword, h, fun heq => absurd heq hne⟩

theorem Dispatched.numberIn (h : Dispatched env locals s event s' e) :
    numberIn e.message = none ∧ Worded e.message := by
  obtain ⟨word, hword, hcarries, -, hne, -⟩ := h.carries
  exact ⟨numberIn_of_carries hword hcarries hne, worded_of_carries hword hcarries hne⟩

/-- A MESSAGE_BROADCAST of a node. -/
theorem Numbered.numberIn {numbers : List Sent} (h : Numbered env s s' numbers)
    (hlo : 0 ≤ s.clockNum) (hhi : s.clockNum < 2147483648) (he : e ∈ numbers) :
    numberIn e.message = some s.clockNum ∧ Worded e.message := by
  have hcarries := h.carries he
  obtain rfl | ⟨-, -, -, nickname, payload, hall⟩ := h
  · cases he
  obtain ⟨i, hi, rfl⟩ := List.getElem_of_mem he
  obtain ⟨hlen, hget⟩ := List.forall₂_iff_get.1 hall
  obtain ⟨-, hmessage⟩ := hget i (hlen ▸ hi) hi
  obtain ⟨rest, htext⟩ := exists_broadcastText hlo hhi nickname payload
  have hbody := hmessage.trans htext
  have hfit := congrArg List.length hmessage
  rw [snprintf, List.length_take] at hfit
  rw [List.get_eq_getElem] at hbody hfit
  refine ⟨?_, messageBroadcast, by decide, hcarries, fun _ => ⟨_, rest, hlo, hhi, ?_, hbody⟩⟩
  · rw [hbody]
    exact numberIn_broadcast hlo hhi rest
  · rw [hfit, maxBufferLen]
    omega

/-- What a process sends is worded. -/
theorem Round.worded (h : Round env locals p event p') (hp : Clocked p) (he : e ∈ p'.node.sent) :
    Worded e.message := by
  obtain ⟨j, -, hmessage⟩ | ⟨s, s', rfl, -, ⟨numbers, hnumbers, he⟩ | he⟩ := h.sent_cases he
  · exact worded_of_carries (by decide) (hmessage ▸ carries_addMeCmd _) (by decide)
  · exact (hnumbers.numberIn hp.1.1 hp.1.2 he).2
  · exact he.numberIn.2

/-- The clock stays in range. -/
theorem Round.clocked (h : Round env locals p event p') (hp : Clocked p)
    (hread : ∀ buf src, event = .receive buf src → Worded buf) : Clocked p' := by
  cases h with
  | @asked j j' e _ _ hnode _ =>
    have hclock : j'.node.clockNum = j.node.clockNum := by rw [hnode]
    refine ⟨?_, fun j₁ hj₁ => ?_⟩
    · rw [Process.node, hclock]
      exact hp.1
    · obtain rfl := Process.joining.inj hj₁
      rw [hnode]
      exact hp.2 j rfl
  | entered hrole _ _ hu =>
    have hclock := (processParticipantUpdate_role hu).clockNum.trans hrole.2.2
    refine ⟨?_, fun j hj => by cases hj⟩
    rw [Process.node, hclock]
    exact hp.1
  | @reacted s s' _ hr =>
    obtain ⟨hlo, hhi⟩ := hp.1
    refine ⟨?_, fun j hj => by cases hj⟩
    obtain hclock | ⟨-, hne, hclock⟩ | ⟨-, buf, src, rfl, hnumber⟩ := hr.clockNum
    · rw [Process.node, hclock]
      exact hp.1
    · rw [Process.node, hclock]
      dsimp only [Process.node] at hlo hhi hne ⊢
      omega
    · have hnumber := numberIn_of_numberOf (hread buf src rfl) hnumber
      obtain ⟨word, hword, hcarries, hbody⟩ := hread buf src rfl
      by_cases hw : word = messageBroadcast
      · obtain ⟨id, rest, hid, hid', -, rfl⟩ := hbody hw
        rw [numberIn_broadcast hid hid'] at hnumber
        rw [Process.node, ← Option.some.inj hnumber]
        exact ⟨hid, hid'⟩
      · rw [numberIn_of_carries hword hcarries hw] at hnumber
        cases hnumber

end Wording

/-- The clocks are in range and the messages worded in every session. -/
theorem worded_of_reach {resolve : Bytes → Bytes → Option RmpAddress}
    {ok : Session → Action → Prop} {founder : Member} {g : Session}
    (h : Reach (sessionStep resolve) ok (Founded founder) g) :
    g.All (fun _ p => Clocked p) fun x => Worded x.body := by
  have hzero : (0 : ℤ) ≤ 0 ∧ (0 : ℤ) < 2147483648 := by decide
  refine Session.all_of_reach (J := fun _ => True) (P := fun _ _ p => Clocked p)
    (Q := fun _ x => Worded x.body) (fun _ _ => trivial) ?_
    (fun _ _ => ⟨fun _ _ hp => hp, fun _ hx => hx⟩) ?_ ?_ h
  · intro g hg
    refine hg.all fun s hs => ?_
    obtain ⟨q, lines, rfl, -⟩ := startChat_ok hs
    exact ⟨hzero, fun j hj => by cases hj⟩
  · intro g address nickname addrPort weather j _ _ hj
    obtain ⟨_, lines, hnode, -⟩ := joinChat_ok hj
    refine ⟨⟨?_, fun j' hj' => ?_⟩, fun e he => ?_⟩
    · rw [Process.node, hnode]
      exact hzero
    · obtain rfl := Process.joining.inj hj'
      rw [hnode]
      rfl
    · rw [message_of_joinChat hj he]
      exact worded_of_carries (by decide) (carries_addMeCmd nickname) (by decide)
  · intro g address cue weather locals p event p' _ _ hp hread hround
    exact ⟨hround.clocked hp hread, fun e he => hround.worded hp he⟩

/-! ## Tracks -/

section Tracks

variable {resolve : Bytes → Bytes → Option RmpAddress} {g g' : Session} {a address : RmpAddress}
  {cue : Cue} {weather : Weather} {locals : Locals} {p p' : Process} {event : Event}
  {rest : List (Packet RmpAddress Bytes)}

theorem numbersTo_append (flight flight' : List (Packet RmpAddress Bytes)) :
    numbersTo a (flight ++ flight') = numbersTo a flight ++ numbersTo a flight' := by
  simp only [numbersTo, List.filter_append, List.filterMap_append]

theorem numbersTo_sublist {flight flight' : List (Packet RmpAddress Bytes)}
    (h : flight.Sublist flight') : (numbersTo a flight).Sublist (numbersTo a flight') :=
  (h.filter _).filterMap _

/-- Messages without a number. -/
theorem numbersTo_eq_nil {flight : List (Packet RmpAddress Bytes)}
    (h : ∀ x ∈ flight, numberIn x.body = none) : numbersTo a flight = [] :=
  List.filterMap_eq_nil_iff.2 fun x hx => h x (List.mem_filter.1 hx).1

theorem numbersTo_cons (x : Packet RmpAddress Bytes) (flight : List (Packet RmpAddress Bytes)) :
    numbersTo a (x :: flight) =
      if x.dst = a then (numberIn x.body).toList ++ numbersTo a flight else numbersTo a flight := by
  unfold numbersTo
  split
  · next hdst =>
    rw [List.filter_cons_of_pos (by simpa using hdst), List.filterMap_cons]
    cases numberIn x.body <;> rfl
  · next hdst => rw [List.filter_cons_of_neg (by simpa using hdst)]

/-- What a process receives as a number, before what is left for it, has been under way. -/
theorem numbersTo_read (horderly : Foremost g address cue)
    (hworded : ∀ x ∈ g.flight, Worded x.body) (hread : g.read address cue = some (event, rest)) :
    ((if a = address then (p.hears locals event).toList else []) ++ numbersTo a rest).Sublist
      (numbersTo a g.flight) := by
  have hkeep : p.hears locals event = none → rest = g.flight →
      ((if a = address then (p.hears locals event).toList else []) ++ numbersTo a rest).Sublist
        (numbersTo a g.flight) := by
    intro hnone hrest
    rw [hnone, hrest]
    simp
  cases cue with
  | receive k =>
    obtain ⟨x, hx, h⟩ := Option.bind_eq_some_iff.1 hread
    split at h
    · next hdst =>
      obtain ⟨rfl, rfl⟩ := Prod.mk.inj (Option.some.inj h)
      obtain ⟨hk, hx⟩ := List.getElem?_eq_some_iff.1 hx
      have hflight : g.flight = g.flight.take k ++ x :: g.flight.drop (k + 1) := by
        rw [← hx, List.getElem_cons_drop hk, List.take_append_drop]
      have hmem : x ∈ g.flight := hx ▸ List.getElem_mem hk
      rw [List.eraseIdx_eq_take_drop_succ, numbersTo_append]
      conv_rhs => rw [hflight, numbersTo_append, numbersTo_cons]
      by_cases ha : a = address
      · -- nothing for the process is before the message
        have hnone : numbersTo a (g.flight.take k) = [] := by
          refine List.filterMap_eq_nil_iff.2 fun y hy => ?_
          obtain ⟨hy, hya⟩ := List.mem_filter.1 hy
          exact absurd ((of_decide_eq_true hya).trans ha) (horderly y hy)
        rw [if_pos ha, if_pos (hdst.trans ha.symm), hnone, List.nil_append, List.nil_append]
        refine List.Sublist.append_right ?_ _
        cases hnumber : p.hears locals (.receive x.body x.src) with
        | none => exact List.nil_sublist _
        | some n =>
          have hn : numberIn x.body = some n := by
            cases p with
            | joining j => cases hnumber
            | chatting s => exact numberIn_of_numberOf (hworded x hmem) hnumber
          rw [hn]
      · have hother : x.dst ≠ a := fun h => ha (h.symm.trans hdst)
        rw [if_neg ha, if_neg hother, List.nil_append]
    · cases h
  | stdin buf | heartbeat | victory | restart =>
    obtain ⟨rfl, rfl⟩ := Prod.mk.inj (Option.some.inj hread)
    refine hkeep ?_ rfl
    cases p <;> rfl

/-- A process that receives a number has it at the end. -/
theorem Session.Moved.numbers (hm : g.Moved resolve address cue weather locals p p' event rest g')
    (a : RmpAddress) :
    g'.numbers a = g.numbers a ++ if a = address then (p.hears locals event).toList else [] := by
  rw [Session.numbers, hm.heard, List.filter_append, List.map_append]
  congr 1
  cases p.hears locals event with
  | none => simp
  | some n =>
    by_cases ha : a = address
    · simp [ha]
    · simp [ha, Ne.symm ha]

/-- **What a round does to the track of a process.** -/
theorem Session.Moved.track (hm : g.Moved resolve address cue weather locals p p' event rest g')
    (horderly : Foremost g address cue) (hworded : ∀ x ∈ g.flight, Worded x.body) (a : RmpAddress) :
    (g'.track a).Sublist
      (g.track a ++ numbersTo a (Session.posted weather address p'.node.sent)) := by
  rw [Session.track, Session.track, hm.numbers, hm.flight, numbersTo_append, List.append_assoc,
    List.append_assoc, ← List.append_assoc _ (numbersTo a rest)]
  exact ((numbersTo_read horderly hworded hm.read).append_right _).append_left _

/-- A number goes once to each entry of a list. -/
theorem numbersTo_forall₂ {ps : List Participant} {es : List Sent} {n : ℤ} (src : RmpAddress)
    (h : List.Forall₂ (fun p e => resolve p.ipAddress p.portNum = some e.dst ∧
      numberIn e.message = some n) ps es) :
    numbersTo a (es.map fun e => (⟨src, e.dst, e.message⟩ : Packet RmpAddress Bytes)) =
      List.replicate ((ps.filterMap fun p => resolve p.ipAddress p.portNum).count a) n := by
  induction h with
  | nil => rfl
  | @cons p e ps es hpe _ ih =>
    obtain ⟨haddr, hnumber⟩ := hpe
    rw [List.map_cons, numbersTo_cons, ih, List.filterMap_cons, haddr, List.count_cons, hnumber]
    by_cases hdst : e.dst = a
    · simp [hdst, List.replicate_succ]
    · simp [hdst]

/-- **The numbers of a round**: none, or that of the leader's clock, which goes on. -/
theorem numbersTo_posted (weather : Weather) (address : RmpAddress)
    (hround : Round (Session.env resolve weather) locals p event p') (hp : Clocked p) :
    (∀ a, numbersTo a (Session.posted weather address p'.node.sent) = []) ∨
      ∃ s s', p = .chatting s ∧ p' = .chatting s' ∧ s.isLeader = true ∧
        event.asksNumber locals = true ∧ s'.clockNum = s.clockNum + 1 ∧
        ∀ a, (numbersTo a (Session.posted weather address p'.node.sent)).Sublist (List.replicate
          (((others s.participants).filterMap fun p => resolve p.ipAddress p.portNum).count a)
          s.clockNum) := by
  have hquiet : (∀ e ∈ p'.node.sent, numberIn e.message = none) →
      ∀ a, numbersTo a (Session.posted weather address p'.node.sent) = [] := by
    intro hall a
    refine numbersTo_eq_nil fun x hx => ?_
    obtain ⟨e, he, rfl, -⟩ := Session.mem_posted hx
    exact hall e he
  cases hround with
  | @asked j j' e _ _ hnode hmessage =>
    refine .inl (hquiet fun e' he' => ?_)
    rw [Process.node, hnode] at he'
    obtain rfl := List.mem_singleton.1 he'
    exact numberIn_of_carries (by decide) (hmessage ▸ carries_addMeCmd _) (by decide)
  | entered _ hsent _ _ =>
    refine .inl (hquiet fun e he => ?_)
    rw [Process.node, hsent] at he
    cases he
  | @reacted s s' _ hr =>
    obtain ⟨numbers, log, hsent, hnumbers, hlog⟩ := hr.dispatched
    rw [List.nil_append] at hsent
    have hnone : ∀ e ∈ log, numberIn e.message = none := fun e he => (hlog e he).numberIn.1
    have hnumber : ∀ e ∈ numbers, numberIn e.message = some s.clockNum :=
      fun e he => (hnumbers.numberIn hp.1.1 hp.1.2 he).1
    obtain rfl | ⟨hl, -, hclock, nickname, payload, hall⟩ := hnumbers
    · refine .inl (hquiet fun e he => ?_)
      rw [Process.node, hsent, List.nil_append] at he
      exact hnone e he
    · refine .inr ⟨s, s', rfl, rfl, hl, hr.asksNumber hl hclock, hclock, fun a => ?_⟩
      have haddr : List.Forall₂ (fun p e => resolve p.ipAddress p.portNum = some e.dst ∧
          numberIn e.message = some s.clockNum) (others s.participants) numbers := by
        obtain ⟨hlen, hget⟩ := List.forall₂_iff_get.1 hall
        refine List.forall₂_iff_get.2 ⟨hlen, fun i hi hi' => ⟨(hget i hi hi').1, ?_⟩⟩
        exact hnumber _ (List.get_mem numbers ⟨i, hi'⟩)
      have hrest : numbersTo a (log.map fun e => (⟨address, e.dst, e.message⟩ :
          Packet RmpAddress Bytes)) = [] := by
        refine numbersTo_eq_nil fun x hx => ?_
        obtain ⟨e, he, rfl⟩ := List.mem_map.1 hx
        exact hnone e he
      have hposted : (numbersTo a (Session.posted weather address (numbers ++ log))).Sublist _ :=
        numbersTo_sublist (Session.posted_sublist weather address (numbers ++ log))
      rw [List.map_append, numbersTo_append, hrest, List.append_nil,
        numbersTo_forall₂ address haddr] at hposted
      rw [Process.node, hsent]
      exact hposted

end Tracks

/-! ## Runs -/

/-- What holds of the numbers in every state: the tracks of the processes that have not crashed
increase, and the leader is ahead. -/
structure Succession.Ordered (resolve : Bytes → Bytes → Option RmpAddress) (c : Succession) : Prop where
  received : c.session.Increasing
  track : ∀ a, c.session.gone a = false → (c.session.track a).Pairwise (· < ·)
  ahead : ∀ s, c.session.procs c.leader = some (.chatting s) → s.isLeader = true →
    Ahead resolve c.session s

section Steps

variable {resolve : Bytes → Bytes → Option RmpAddress} {founder : Member} {g g' : Session}
  {c c' : Succession} {a address : RmpAddress} {cue : Cue} {weather : Weather} {locals : Locals}
  {p p' : Process} {event : Event} {rest : List (Packet RmpAddress Bytes)} {s base : Node}

theorem leads_iff : g.leads a = true ↔ ∃ s, g.procs a = some (.chatting s) ∧ s.isLeader = true := by
  unfold Session.leads
  cases g.procs a with
  | none => simp
  | some p => cases p <;> simp

theorem recipients_sublist (hgone : ∀ a, g'.gone a = false → g.gone a = false)
    (hps : s.participants.Sublist base.participants) :
    (recipients resolve g' s).Sublist (recipients resolve g base) := by
  have hothers : (others s.participants).Sublist (others base.participants) := hps.filter _
  refine ((hothers.filterMap _).filter _).trans (List.monotone_filter_right _ fun a ha => ?_)
  rw [Bool.not_eq_true'] at ha ⊢
  exact hgone a ha

/-- A leader stays ahead with a part of its list, if its clock is ahead of what is new. -/
theorem Ahead.mono (h : Ahead resolve g base) (hgone : ∀ a, g'.gone a = false → g.gone a = false)
    (hps : s.participants.Sublist base.participants) (hclock : base.clockNum ≤ s.clockNum)
    (hnew : ∀ a n, n ∈ g'.track a → n ∈ g.track a ∨ n < s.clockNum) : Ahead resolve g' s := by
  have hsub : (recipients resolve g' s).Sublist (recipients resolve g base) :=
    recipients_sublist hgone hps
  refine ⟨hsub.nodup h.1, fun a ha n hn => ?_⟩
  obtain hn | hn := hnew a n hn
  · exact Int.lt_of_lt_of_le (h.2 a (hsub.subset ha) n hn) hclock
  · exact hn

/-- An action after which the nodes in `chat` are those before it, or fewer, and
nothing is received. -/
theorem Succession.Ordered.quiet (h : c.Ordered resolve) (hheard : g'.heard = c.session.heard)
    (hflight : ∀ a, (numbersTo a g'.flight).Sublist (numbersTo a c.session.flight))
    (hgone : ∀ a, g'.gone a = false → c.session.gone a = false)
    (hprocs : ∀ a s, g'.procs a = some (.chatting s) → c.session.procs a = some (.chatting s)) :
    Succession.Ordered resolve ⟨g', c.leader⟩ := by
  have hnumbers : ∀ a, g'.numbers a = c.session.numbers a := fun a => by
    rw [Session.numbers, hheard]
    rfl
  have htrack : ∀ a, (g'.track a).Sublist (c.session.track a) := fun a => by
    rw [Session.track, hnumbers]
    exact (hflight a).append_left _
  constructor
  · intro a
    dsimp only
    rw [hnumbers]
    exact h.received a
  · exact fun a ha => (h.track a (hgone a ha)).sublist (htrack a)
  · intro s hs hl
    exact (h.ahead s (hprocs _ s hs) hl).mono hgone (List.Sublist.refl _) (Int.le_refl _)
      fun b n hn => .inl ((htrack b).subset hn)

/-- A number that goes to each recipient of a leader goes to it once. -/
theorem Ahead.once (h : Ahead resolve g s) (ha : g.gone a = false) {l : List ℤ}
    (hl : l.Sublist (List.replicate
      (((others s.participants).filterMap fun p => resolve p.ipAddress p.portNum).count a)
      s.clockNum)) :
    l.Sublist [s.clockNum] ∧ (l ≠ [] → a ∈ recipients resolve g s) := by
  have hcount : (recipients resolve g s).count a =
      ((others s.participants).filterMap fun p => resolve p.ipAddress p.portNum).count a :=
    List.count_filter (by rw [ha]; rfl)
  rw [← hcount] at hl
  refine ⟨hl.trans ?_, fun hne => ?_⟩
  · have hone := List.nodup_iff_count_le_one.1 h.1 a
    exact List.replicate_sublist_replicate s.clockNum |>.2 hone
  · refine List.count_pos_iff.1 (Nat.pos_of_ne_zero fun hzero => hne ?_)
    rw [hzero] at hl
    exact List.sublist_nil.1 hl

/-- A round ends no process. -/
theorem Session.Moved.gone (hm : g.Moved resolve address cue weather locals p p' event rest g')
    (a : RmpAddress) : g'.gone a = g.gone a := by
  unfold Session.gone
  rw [hm.roll, hm.procs]
  by_cases ha : a = address
  · rw [ha, Function.update_self, hm.live]
    rfl
  · rw [Function.update_of_ne ha]

/-- What is new in a track is the number of the clock of a process that leads and has been asked for
it. -/
theorem Session.Moved.fresh (hm : g.Moved resolve address cue weather locals p p' event rest g')
    (horderly : Foremost g address cue) (hp : Clocked p) (hworded : ∀ x ∈ g.flight, Worded x.body)
    {n : ℤ} (hn : n ∈ g'.track a) :
    n ∈ g.track a ∨ ∃ s s', p = .chatting s ∧ p' = .chatting s' ∧ s.isLeader = true ∧
      event.asksNumber locals = true ∧ s'.clockNum = s.clockNum + 1 ∧ n = s.clockNum := by
  obtain hn | hn := List.mem_append.1 ((hm.track horderly hworded a).subset hn)
  · exact .inl hn
  obtain hnone | ⟨s, s', hs, hs', hl, hasks, hclock, hnumber⟩ :=
    numbersTo_posted weather address hm.round hp
  · rw [hnone] at hn
    cases hn
  · exact .inr ⟨s, s', hs, hs', hl, hasks, hclock, List.eq_of_mem_replicate ((hnumber a).subset hn)⟩

/-- Only the leader is asked for a number. -/
theorem Orderly.leader_eq (horderly : Orderly c (.round address cue weather locals))
    (hm : c.session.Moved resolve address cue weather locals (.chatting s) p' event rest g')
    (hl : s.isLeader = true) (hasks : event.asksNumber locals = true) : c.leader = address := by
  by_contra hne
  have hsilent := horderly.2 (leads_iff.2 ⟨s, hm.live, hl⟩) (Ne.symm hne) _ hm.read
  rw [hasks] at hsilent
  cases hsilent

/-- The tracks increase in a round: the leader is ahead of those to whom it sends its number. -/
theorem Succession.Ordered.track_round (h : c.Ordered resolve)
    (hm : c.session.Moved resolve address cue weather locals p p' event rest g')
    (horderly : Orderly c (.round address cue weather locals)) (hp : Clocked p)
    (hworded : ∀ x ∈ c.session.flight, Worded x.body) (ha : g'.gone a = false) :
    (g'.track a).Pairwise (· < ·) := by
  rw [hm.gone] at ha
  refine List.Pairwise.sublist (hm.track horderly.1 hworded a)
    (List.pairwise_append.2 ⟨h.track a ha, ?_⟩)
  obtain hnone | ⟨s, s', rfl, -, hl, hasks, -, hnumber⟩ := numbersTo_posted weather address hm.round hp
  · rw [hnone]
    exact ⟨List.Pairwise.nil, fun n _ m hmem => by cases hmem⟩
  · have hleader := horderly.leader_eq hm hl hasks
    have hahead := h.ahead s (hleader ▸ hm.live) hl
    obtain ⟨hone, hmem⟩ := hahead.once ha (hnumber a)
    refine ⟨(List.pairwise_singleton _ _).sublist hone, fun n hn m hm' => ?_⟩
    rw [List.mem_singleton.1 (hone.subset hm')]
    exact hahead.2 a (hmem (List.ne_nil_of_mem hm')) n hn

/-- The leader is ahead after a round: it is the one that led before, or has declared victory. -/
theorem Succession.Ordered.ahead_round (h : c.Ordered resolve)
    (hm : c.session.Moved resolve address cue weather locals p p' event rest g')
    (horderly : Orderly c (.round address cue weather locals))
    (hleading : Leading resolve c (.round address cue weather locals)) (hp : Clocked p)
    (hworded : ∀ x ∈ c.session.flight, Worded x.body)
    (hs : g'.procs (c.next (.round address cue weather locals)) = some (.chatting s))
    (hl : s.isLeader = true) : Ahead resolve g' s := by
  have hgone : ∀ b, g'.gone b = false → c.session.gone b = false :=
    fun b hb => (hm.gone b).symm.trans hb
  by_cases hself : c.next (.round address cue weather locals) = address
  · rw [hself, hm.procs, Function.update_self] at hs
    obtain rfl := Option.some.inj hs
    cases hm.round with
    | entered hrole _ _ hu =>
      rw [(processParticipantUpdate_role hu).isLeader, hrole.2.1, hp.2 _ rfl] at hl
      cases hl
    | @reacted s₀ _ _ hr =>
      obtain ⟨hl₀, hps, hclock⟩ | ⟨base, hbase, hps, hclock, hsame⟩ := hr.leads hl
      · -- a process that leads declares no victory
        have hdeclares : c.session.declares address cue = false := by
          have hl₀ : s₀.isLeader = true := hl₀
          cases cue <;> simp [Session.declares, hm.live, hl₀]
        have hleader : c.leader = address := by
          rw [Succession.next, hdeclares] at hself
          exact hself
        refine (h.ahead s₀ (hleader ▸ hm.live) hl₀).mono hgone hps hclock fun b n hn => ?_
        obtain hn | ⟨t, t', ht, ht', -, -, hnext, rfl⟩ := hm.fresh horderly.1 hp hworded hn
        · exact .inl hn
        · obtain rfl := Process.chatting.inj ht
          obtain rfl := Process.chatting.inj ht'
          exact .inr (by omega)
      · have hahead : Ahead resolve c.session base := hleading hself _ hm.live _ hm.read base hbase
        refine hahead.mono hgone hps (by omega) fun b n hn => ?_
        obtain hn | ⟨t, t', ht, ht', -, -, hnext, -⟩ := hm.fresh horderly.1 hp hworded hn
        · exact .inl hn
        · -- no number is sent by who gets new recipients
          obtain rfl := Process.chatting.inj ht
          obtain rfl := Process.chatting.inj ht'
          dsimp only at hsame
          omega
  · have hleader : c.next (.round address cue weather locals) = c.leader := by
      rw [Succession.next] at hself ⊢
      split at hself
      · exact absurd rfl hself
      · next hdeclares => exact if_neg hdeclares
    have hne : c.leader ≠ address := fun heq => hself (hleader.trans heq)
    rw [hleader, hm.procs, Function.update_of_ne hne] at hs
    refine (h.ahead s hs hl).mono hgone (List.Sublist.refl _) (Int.le_refl _) fun b n hn => ?_
    obtain hn | ⟨t, -, rfl, -, hlt, hasks, -⟩ := hm.fresh horderly.1 hp hworded hn
    · exact .inl hn
    · exact absurd (horderly.leader_eq hm hlt hasks) hne

/-- **A round.** -/
theorem Succession.Ordered.round (h : c.Ordered resolve)
    (hall : c.session.All (fun _ p => Clocked p) fun x => Worded x.body)
    (horderly : Orderly c (.round address cue weather locals))
    (hleading : Leading resolve c (.round address cue weather locals))
    (hm : c.session.Moved resolve address cue weather locals p p' event rest g') :
    Succession.Ordered resolve ⟨g', c.next (.round address cue weather locals)⟩ := by
  have hp := hall.procs address p hm.live
  constructor
  · intro a
    by_cases ha : a = address
    · refine (h.track_round (a := a) hm horderly hp hall.flight ?_).sublist
        (List.sublist_append_left _ _)
      rw [hm.gone, Session.gone, ha, hm.live]
      simp
    · dsimp only
      rw [hm.numbers, if_neg ha, List.append_nil]
      exact h.received a
  · exact fun a ha => h.track_round hm horderly hp hall.flight ha
  · exact fun s hs hl => h.ahead_round hm horderly hleading hp hall.flight hs hl

/-- **An action keeps the numbers in order.** -/
theorem Succession.Ordered.step {action : Action} (h : c.Ordered resolve)
    (hall : c.session.All (fun _ p => Clocked p) fun x => Worded x.body) (horderly : Orderly c action)
    (hleading : Leading resolve c action) (hstep : successionStep resolve c action = some c') :
    c'.Ordered resolve := by
  obtain ⟨g', hs, rfl⟩ := Option.map_eq_some_iff.1 hstep
  cases action with
  | join address nickname addrPort weather =>
    obtain ⟨j, hnew, hj, rfl⟩ := joined_of_join hs
    refine h.quiet rfl (fun a => ?_) (fun a ha => ?_) (fun a s hs => ?_)
    · have hposted : numbersTo a (Session.posted weather address j.node.sent) = [] := by
        refine numbersTo_eq_nil fun x hx => ?_
        obtain ⟨e, he, rfl, -⟩ := Session.mem_posted hx
        rw [message_of_joinChat hj he]
        exact numberIn_of_carries (by decide) (carries_addMeCmd nickname) (by decide)
      dsimp only
      rw [numbersTo_append, hposted, List.append_nil]
    · by_cases haddr : a = address
      · -- the address is new
        simp [Session.gone, haddr, hnew]
      · simpa [Session.gone, Function.update_of_ne haddr, haddr] using ha
    · obtain ⟨-, hj'⟩ | ⟨-, hold⟩ := live_of_update hs
      · cases hj'
      · exact hold
  | round address cue weather locals =>
    obtain ⟨p, p', event, rest, hm⟩ := moved_of_round hs
    exact h.round hall horderly hleading hm
  | crash address =>
    obtain rfl := Option.some.inj hs
    refine h.quiet rfl (fun a => List.Sublist.refl _) (fun a ha => ?_) (fun a s hs => ?_)
    · by_cases haddr : a = address
      · simp only [Session.gone, haddr, Function.update_self, Option.isNone_none, Bool.and_true,
          decide_eq_false_iff_not] at ha
        simp [Session.gone, haddr, ha]
      · simpa [Session.gone, Function.update_of_ne haddr] using ha
    · obtain ⟨-, hnone⟩ | ⟨-, hold⟩ := live_of_update hs
      · cases hnone
      · exact hold
  | lose k =>
    obtain rfl := Option.some.inj hs
    exact h.quiet rfl (fun a => numbersTo_sublist (List.eraseIdx_sublist _ _)) (fun a ha => ha)
      (fun a s hs => hs)
  | copy k => exact horderly.elim

/-- The founder alone. -/
theorem ordered_begun (h : c.Begun founder) : c.Ordered resolve := by
  obtain ⟨session, leader⟩ := c
  obtain ⟨⟨s, hs, rfl⟩, hleader⟩ := h
  obtain ⟨q, lines, hnode, -⟩ := startChat_ok hs
  refine ⟨fun a => List.Pairwise.nil, fun a _ => List.Pairwise.nil, fun t ht hl => ?_⟩
  refine ⟨?_, fun b _ n hn => by cases hn⟩
  obtain rfl : s = t := by
    rw [hleader] at ht
    exact Process.chatting.inj (Option.some.inj ((if_pos rfl).symm.trans ht))
  have hsub : ((others s.participants).filterMap fun p => resolve p.ipAddress p.portNum).Sublist
      ([q].filterMap fun p => resolve p.ipAddress p.portNum) := by
    rw [hnode]
    exact (others_sublist [q]).filterMap _
  refine (List.filter_sublist.trans hsub).nodup ?_
  rw [List.filterMap_cons]
  split
  · exact List.nodup_nil
  · exact List.nodup_singleton _

/-- A succession is one of a session. -/
theorem session_of_succession {ok : Succession → Action → Prop}
    (h : Reach (successionStep resolve) ok (Succession.Begun founder) c) :
    Reach (sessionStep resolve) (fun _ _ => True) (Founded founder) c.session := by
  refine h.map (fun c hc => hc.1) fun c action c' _ hs => ⟨trivial, ?_⟩
  obtain ⟨g, hg, rfl⟩ := Option.map_eq_some_iff.1 hs
  exact hg

/-- Every session is that of a succession. -/
theorem exists_succession {ok : Session → Action → Prop}
    (h : Reach (sessionStep resolve) ok (Founded founder) g) :
    ∃ c, Reach (successionStep resolve) (fun c action => ok c.session action)
      (Succession.Begun founder) c ∧ c.session = g := by
  have hbegun : ∀ g, Founded founder g → ∃ c, Succession.Begun founder c ∧ c.session = g :=
    fun g hg => ⟨⟨g, founder.address⟩, ⟨hg, rfl⟩, rfl⟩
  refine h.simulate hbegun ?_
  rintro g c action g' rfl hok hs
  exact ⟨⟨g', c.next action⟩, hok, by rw [successionStep, hs, Option.map_some], rfl⟩

/-- **The numbers that a process receives increase**, in every session of orderly actions in which a
leader that gets new recipients is ahead of them. -/
theorem increasing_of_reach
    (h : Reach (successionStep resolve) (fun c action => Orderly c action ∧ Leading resolve c action)
      (Succession.Begun founder) c) : c.session.Increasing := by
  have hordered : c.Ordered resolve :=
    h.invariant_of (fun c hc => worded_of_reach (session_of_succession hc))
      (fun c hc => ordered_begun hc) fun c action c' hall hI hok hs => hI.step hall hok.1 hok.2 hs
  exact hordered.received

end Steps

/-! ## Two runs -/

/-- What a succession looks like after a list of actions from its beginning. -/
theorem exists_succession_of_exec {resolve : Bytes → Bytes → Option RmpAddress}
    {ok : Succession → Action → Prop} [∀ c l, Decidable (ok c l)] {founder : Member}
    {actions : List Action} {β : Type} {f : Succession → β} {b : β}
    (h : ((founding founder).bind fun g =>
      exec (successionStep resolve) ok ⟨g, founder.address⟩ actions).map f = some b) :
    ∃ c, Reach (successionStep resolve) ok (Succession.Begun founder) c ∧ f c = b := by
  obtain ⟨c, hc, hb⟩ := Option.map_eq_some_iff.1 h
  obtain ⟨g₀, hg₀, hrun⟩ := Option.bind_eq_some_iff.1 hc
  obtain ⟨s, hs, rfl⟩ := Option.map_eq_some_iff.1 hg₀
  exact ⟨c, reach_exec actions (.start ⟨⟨s, Fault.toOption_eq_some.1 hs, rfl⟩, rfl⟩) hrun, hb⟩

/-- A line from the standard input of the process at a port of the local host. -/
def say (port : BitVec 16) : Action := .round (localHost port) (.stdin [104, 10]) fairWeather .blank

/-- `c` misses the leader `a` at its next heartbeat, declares victory and sends a line, and `b`
receives what `c` has sent. -/
def takeover : List Action :=
  [.round (localHost 82) .heartbeat (deafWeather (localHost 80)) .blank,
    .round (localHost 82) .victory (deafWeather (localHost 80)) .blank, say 82] ++
  List.replicate 5 (receiveAt 81)

/-- `b` and `c` have received the number 0, and only `c` the number 1. -/
def unevenly : List Action :=
  gathering ++ [say 80, receiveAt 81, receiveAt 82, say 80, .lose 0, receiveAt 82] ++ takeover

/-- `a` has not crashed, and still takes itself for the leader. -/
theorem increasing_of_reach_unevenly : ∃ c : Succession,
    c.session.heard = [(localHost 81, 0), (localHost 82, 0), (localHost 82, 1), (localHost 81, 1)] ∧
      c.leader = localHost 82 ∧ c.session.leads (localHost 80) = true ∧ c.session.Increasing := by
  have hrun : ((founding host).bind fun g => exec (successionStep loopbackAddress)
      (fun c action => Orderly c action ∧ Leading loopbackAddress c action) ⟨g, host.address⟩
        unevenly).map (fun c => (c.session.heard, c.leader, c.session.leads (localHost 80))) =
      some ([(localHost 81, 0), (localHost 82, 0), (localHost 82, 1), (localHost 81, 1)],
        localHost 82, true) := by decide
  obtain ⟨c, hreach, hres⟩ := exists_succession_of_exec hrun
  obtain ⟨hheard, hres⟩ := Prod.mk.inj hres
  obtain ⟨hleader, hleads⟩ := Prod.mk.inj hres
  exact ⟨c, hheard, hleader, hleads, increasing_of_reach hreach⟩

/-- `b` and `c` have received the number 0, and `a` has crashed. -/
def evenly : List Action :=
  gathering ++ [say 80, receiveAt 81, receiveAt 82, .crash (localHost 80)] ++ takeover

/-- `b` receives the number 0 from `a` and from its successor. -/
theorem not_increasing : ¬ ∀ founder resolve c,
    Reach (successionStep resolve) Orderly (Succession.Begun founder) c → c.session.Increasing := by
  intro h
  have hrun : ((founding host).bind fun g =>
      exec (successionStep loopbackAddress) Orderly ⟨g, host.address⟩ evenly).map
        (fun c => c.session.heard) =
      some [(localHost 81, 0), (localHost 82, 0), (localHost 81, 0)] := by decide
  obtain ⟨c, hreach, hheard⟩ := exists_succession_of_exec hrun
  have hnumbers : c.session.numbers (localHost 81) = [0, 0] := by
    rw [Session.numbers, hheard]
    decide
  have hrepeated := h host loopbackAddress c hreach (localHost 81)
  rw [hnumbers] at hrepeated
  exact absurd hrepeated (by decide)

end Dchat.Chat
