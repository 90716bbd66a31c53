import Dchat.Chat.Referral
import Dchat.Chat.Honest

/-!
# Every message is a string

What a node sends is put together from its own texts, from the message it reacts to and from the
text of a line after `encrypt`. None of these has a NUL inside it, so that every message ends where
its NUL is, and with the NUL it fits a buffer of `MAX_BUFFER_LEN` bytes.

* `Node.Strings` is kept by everything that sends, and `Speech.length_lt` bounds the lengths.
* `strings_of_reach`: every message under way in a session is a string that fits.
-/

namespace Dchat.Chat

open CString Stdio RMP Links Runs Encryption

/-! ## Strings -/

/-- The texts of a participant have no NUL inside. -/
structure Peer.Strings (p : Peer) : Prop where
  nickname : 0 ∉ p.nickname
  ipAddress : 0 ∉ p.ipAddress
  portNum : 0 ∉ p.portNum

/-- The texts of a node and the messages it has sent have no NUL inside. -/
structure Node.Strings (s : Node) : Prop where
  self : 0 ∉ s.thisNickname
  participants : ∀ p ∈ s.participants, p.toPeer.Strings
  leader : ∀ q, s.leader = some q → q.Strings
  sent : ∀ e ∈ s.sent, 0 ∉ e.message

/-- What the arrays for texts hold before they are written is a string as well. -/
structure Locals.Strings (locals : Locals) : Prop where
  rest : 0 ∉ locals.rest
  senderNickname : 0 ∉ locals.senderNickname
  payload : 0 ∉ locals.payload

instance : DecidablePred Locals.Strings := fun locals =>
  decidable_of_iff (0 ∉ locals.rest ∧ 0 ∉ locals.senderNickname ∧ 0 ∉ locals.payload)
    ⟨fun ⟨h, h', h''⟩ => ⟨h, h', h''⟩, fun h => ⟨h.rest, h.senderNickname, h.payload⟩⟩

section Pieces

variable {a b : Bytes} {s s' : Node}

theorem zero_not_mem_append (ha : 0 ∉ a) (hb : 0 ∉ b) : 0 ∉ a ++ b := fun h =>
  (List.mem_append.1 h).elim ha hb

theorem zero_not_mem_snprintf (h : 0 ∉ a) (size : ℕ) : 0 ∉ snprintf size a := fun h0 =>
  h (List.mem_of_mem_take h0)

theorem zero_not_mem_cString (memory : Bytes) : 0 ∉ cString memory := fun h =>
  absurd (List.mem_takeWhile_imp h) (by decide)

theorem zero_not_mem_decimalInt (z : ℤ) : 0 ∉ decimalInt z := fun h =>
  (eq_or_isDigit_of_mem_decimalInt h).elim (absurd · (by decide)) (absurd · (by decide))

/-- A text that is scanned from a string, or was one before. -/
theorem zero_not_mem_text {ds : List Directive} {r : Scan} (h : sscanf ds a = .ok r) (ha : 0 ∉ a)
    (i : ℕ) {before : Bytes} (hbefore : 0 ∉ before) : 0 ∉ r.text i before := by
  obtain hsub | heq := Scan.text_subset h i before
  · exact fun h0 => ha (hsub h0)
  · rw [heq]
    exact hbefore

/-- A piece is added to a text. -/
theorem zero_not_mem_cursor {c c' : Cursor} {capacity : ℕ} {size : ℤ} {piece : Bytes}
    (h : c.snprintf capacity size piece = .ok c') (hc : 0 ∉ c.text) (hpiece : 0 ∉ piece) :
    0 ∉ c'.text := by
  have hwritten : 0 ∉ if size < 0 then piece else piece.take (size.toNat - 1) := by
    split
    · exact hpiece
    · exact fun h0 => hpiece (List.mem_of_mem_take h0)
  unfold Cursor.snprintf at h
  dsimp only at h
  generalize (if size < 0 then piece else piece.take (size.toNat - 1)) = written at h hwritten
  split at h
  · obtain rfl := Except.ok.inj h
    exact hc
  split at h
  · obtain rfl := Except.ok.inj h
    dsimp only
    split
    · exact hc
    · exact zero_not_mem_append (fun h0 => hc (List.mem_of_mem_take h0)) hwritten
  · cases h

theorem Peer.Strings.entryText {p : Peer} (h : p.Strings) : 0 ∉ entryText p := by
  refine zero_not_mem_append h.nickname fun h0 => ?_
  obtain h0 | h0 := List.mem_cons.1 h0
  · cases h0
  refine zero_not_mem_append h.ipAddress (fun h0 => ?_) h0
  obtain h0 | h0 := List.mem_cons.1 h0
  · cases h0
  · exact zero_not_mem_append h.portNum (by decide) h0

/-- The list as it is announced. -/
theorem zero_not_mem_updateText {leader : Peer} {ps : List Participant} {notice : Bytes}
    (hleader : leader.Strings) (hps : ∀ p ∈ ps, p.toPeer.Strings) (hnotice : 0 ∉ notice) :
    0 ∉ updateText leader ps notice := by
  refine zero_not_mem_append (zero_not_mem_append (zero_not_mem_append (by decide)
    hleader.entryText) fun h0 => ?_) (zero_not_mem_append (by decide) hnotice)
  obtain ⟨entry, hentry, h0⟩ := List.mem_flatten.1 h0
  obtain ⟨p, hp, rfl⟩ := List.mem_map.1 hentry
  exact (hps p (mem_others.1 hp).1).entryText h0

theorem Node.Strings.generate (h : s.Strings) {buffLen : ℕ} {notice update : Bytes}
    (hb : 0 < buffLen) (hnotice : 0 ∉ notice)
    (hgen : generateParticipantUpdate s buffLen notice = .ok update) : 0 ∉ update := by
  obtain ⟨leader, hleader, rfl⟩ := leader_of_generate hgen hb
  exact zero_not_mem_updateText (h.leader leader hleader) h.participants hnotice

end Pieces

/-! ## What is sent -/

section Sending

variable {env : Env} {locals : Locals} {s s' : Node} {src dst : RmpAddress} {buf message : Bytes}

/-- The same node after other strings were sent. -/
theorem Node.Strings.said (h : s.Strings) (hself : s'.thisNickname = s.thisNickname)
    (hps : s'.participants = s.participants) (hleader : s'.leader = s.leader)
    (hsent : ∀ e ∈ s'.sent, 0 ∉ e.message) : s'.Strings :=
  ⟨hself ▸ h.self, hps ▸ h.participants, hleader ▸ h.leader, hsent⟩

theorem Node.Strings.congr (h : s.Strings) (hself : s'.thisNickname = s.thisNickname)
    (hps : s'.participants = s.participants) (hleader : s'.leader = s.leader)
    (hsent : s'.sent = s.sent) : s'.Strings :=
  h.said hself hps hleader (hsent ▸ h.sent)

/-- A string is sent. -/
theorem Node.Strings.send (h : s.Strings) (hmessage : 0 ∉ message) :
    (s.rmpSendTo env dst message).2.Strings := by
  refine ⟨h.self, h.participants, h.leader, fun e he => ?_⟩
  obtain he | he := List.mem_append.1 he
  · exact h.sent e he
  · obtain rfl := List.mem_singleton.1 he
    exact hmessage

theorem Node.Strings.insert {nickname ipAddress portNum : Bytes} {isLeader : Bool} (h : s.Strings)
    (hp : 0 ∉ nickname ∧ 0 ∉ ipAddress ∧ 0 ∉ portNum)
    (hinsert : s.insertParticipant nickname ipAddress portNum isLeader = .ok s') : s'.Strings := by
  unfold Node.insertParticipant at hinsert
  dsimp only at hinsert
  split at hinsert
  · cases hinsert
  obtain rfl := Except.ok.inj hinsert
  have hnew : Peer.Strings ⟨s.nextPtr, nickname, ipAddress, portNum⟩ := ⟨hp.1, hp.2.1, hp.2.2⟩
  refine ⟨h.self, fun p hp => ?_, fun q hq => ?_, h.sent⟩
  · obtain hp | hp := List.mem_append.1 hp
    · exact h.participants p hp
    · obtain rfl := List.mem_singleton.1 hp
      exact hnew
  · dsimp only at hq
    split at hq
    · obtain rfl := Option.some.inj hq
      exact hnew
    · exact h.leader q hq

/-- A new leader is set. -/
theorem Node.Strings.setLeaderBy (h : s.Strings) (test : Participant → Bool) :
    (s.setLeaderBy test).Strings := by
  refine ⟨h.self, fun p hp => ?_, fun q hq => ?_, h.sent⟩
  · obtain ⟨p₀, hp₀, rfl⟩ := List.mem_map.1 hp
    exact h.participants p₀ hp₀
  · obtain ⟨p, hp, -, rfl⟩ | hold := leader_of_setLeaderBy hq
    · exact h.participants p hp
    · exact h.leader q hold

theorem Node.Strings.setNewLeader (h : s.Strings) (src : RmpAddress) :
    (setNewLeader s src).Strings := by
  have hstopped : Node.Strings { s with inElection := false, startedElection := false } :=
    h.congr rfl rfl rfl rfl
  exact (hstopped.setLeaderBy _).congr rfl rfl rfl rfl

/-- One pass of a broadcast, with the names of those who are lost. -/
theorem Node.Strings.broadcastLoop {ps : List Participant} {d d' : Departures} (h : s.Strings)
    (hps : ∀ p ∈ ps, p.toPeer.Strings) (hmessage : 0 ∉ message) (hd : 0 ∉ d.updateBuff.text)
    (hs : broadcastLoop env message ps d s = .ok (d', s')) :
    s'.Strings ∧ 0 ∉ d'.updateBuff.text := by
  induction ps generalizing d s with
  | nil =>
    obtain ⟨rfl, rfl⟩ := Prod.mk.inj (Except.ok.inj hs)
    exact ⟨h, hd⟩
  | cons p ps ih =>
    have hps' : ∀ q ∈ ps, q.toPeer.Strings := fun q hq => hps q (.tail _ hq)
    rw [Chat.broadcastLoop] at hs
    split at hs
    · exact ih h hps' hd hs
    split at hs
    · cases hs
    next addr _ =>
    have hsent : (s.rmpSendTo env addr message).2.Strings := h.send hmessage
    dsimp only at hs
    split at hs
    · obtain ⟨c, hc, hs⟩ := Fault.bind_eq_ok.1 hs
      have hname := zero_not_mem_append (hps p (by simp)).nickname (b := str ", ") (by decide)
      have hremoved :
          ((s.rmpSendTo env addr message).2.tailqRemove p.ptr).decrNumParticipants.Strings :=
        ⟨hsent.self, fun q hq => hsent.participants q (List.mem_filter.1 hq).1, hsent.leader, hsent.sent⟩
      exact ih hremoved hps' (zero_not_mem_cursor hc hd hname) hs
    · exact ih hsent hps' hd hs

/-- **A broadcast** of a string, and the notices about those who are lost. -/
theorem Node.Strings.broadcast (h : s.Strings) (hmessage : 0 ∉ message)
    (hs : leaderBroadcastMessage env s message = .ok s') : s'.Strings := by
  have hfuel : ∀ (fuel : ℕ) {s s' : Node} {message : Bytes}, s.Strings → 0 ∉ message →
      leaderBroadcastMessageFuel env fuel s message = .ok s' → s'.Strings := by
    intro fuel
    induction fuel with
    | zero => exact fun _ _ hs => by cases hs
    | succ fuel ih =>
      intro s s' message h hmessage hs
      rw [leaderBroadcastMessageFuel] at hs
      obtain ⟨⟨d, s₁⟩, hloop, hs⟩ := Fault.bind_eq_ok.1 hs
      obtain ⟨h₁, hnames⟩ := h.broadcastLoop h.participants hmessage (by decide) hloop
      dsimp only at hs
      split at hs
      · split at hs
        · cases hs
        obtain ⟨update, hgen, hs⟩ := Fault.bind_eq_ok.1 hs
        obtain ⟨s₂, hrec, hs⟩ := Fault.bind_eq_ok.1 hs
        obtain rfl := Except.ok.inj hs
        have hleave := zero_not_mem_append (zero_not_mem_append (a := str "NOTICE ") (by decide)
          fun h0 => hnames (List.mem_of_mem_take (i := d.updateBuff.pos - 2) h0))
          (b := str " left the chat or crashed") (by decide)
        have hupdate := h₁.generate (by decide) (zero_not_mem_snprintf hleave 1024) hgen
        exact (ih h₁ hupdate hrec).congr rfl rfl rfl rfl
      · obtain rfl := Except.ok.inj hs
        exact h₁
  exact hfuel _ h hmessage hs

theorem Node.Strings.startElection (h : s.Strings) (hs : startElection env s = .ok s') :
    s'.Strings := by
  obtain ⟨log, rfl, hlog⟩ := startElection_ok hs
  refine ⟨h.self, h.participants, h.leader, fun e he => ?_⟩
  obtain he | he := List.mem_append.1 he
  · exact h.sent e he
  · rw [(hlog.entries e he).1]
    decide

theorem Node.Strings.respond (h : s.Strings)
    (hs : respondToLeaderElection env locals s src = .ok s') : s'.Strings := by
  obtain ⟨nickname, -, ⟨-, hs⟩ | ⟨-, rfl⟩⟩ := respondToLeaderElection_eq_ok hs
  · exact (h.send (by decide)).startElection hs
  · exact h.congr rfl rfl rfl rfl

/-- The first scan of a message. -/
theorem zero_not_mem_scanCommand {r : Bytes × Bytes} (hlocals : locals.Strings) (hbuf : 0 ∉ buf)
    (h : scanCommand locals buf = .ok r) : 0 ∉ r.2 := by
  obtain ⟨scan, hscan, h⟩ := Fault.bind_eq_ok.1 h
  split at h
  · cases h
  · obtain rfl := Except.ok.inj h
    exact zero_not_mem_text hscan hbuf 1 hlocals.rest

/-- A blank, or another constant, between two texts. -/
theorem zero_not_mem_around {a b c : Bytes} (ha : 0 ∉ a) (hb : 0 ∉ b) (hc : 0 ∉ c) :
    0 ∉ a ++ b ++ c := zero_not_mem_append (zero_not_mem_append ha hb) hc

/-- The text of a MESSAGE_BROADCAST. -/
theorem zero_not_mem_broadcastText {nickname payload : Bytes} (clock : ℤ) (hnickname : 0 ∉ nickname)
    (hpayload : 0 ∉ payload) : 0 ∉ broadcastText clock nickname payload := by
  have hclock := zero_not_mem_around (a := messageBroadcast) (b := str " ") (by decide) (by decide)
    (zero_not_mem_decimalInt clock)
  exact zero_not_mem_around (zero_not_mem_around hclock (by decide) hnickname) (by decide) hpayload

/-- The notice about a new participant. -/
theorem zero_not_mem_joinMessage {nickname : Bytes} (h : 0 ∉ nickname) (src : RmpAddress) :
    0 ∉ joinMessage nickname (inetNtoa src) (portText src) := by
  have hname := zero_not_mem_around (a := str "NOTICE ") (c := str " joined on ") (by decide) h
    (by decide)
  exact zero_not_mem_around (zero_not_mem_append hname (zero_not_mem_inetNtoa src)) (by decide)
    (zero_not_mem_portText src)

/-- A message to the leader, and an election if it times out. -/
theorem Node.Strings.enquire (h : s.Strings) (hmessage : 0 ∉ message)
    (hs : (if (s.rmpSendTo env dst message).1 = rmpETimeout then
        Chat.startElection env (s.rmpSendTo env dst message).2
      else if (s.rmpSendTo env dst message).1 < 0 then .error .exit
      else .ok (s.rmpSendTo env dst message).2) = .ok s') : s'.Strings := by
  have hsent : (s.rmpSendTo env dst message).2.Strings := h.send hmessage
  split at hs
  · exact hsent.startElection hs
  split at hs
  · cases hs
  · exact Except.ok.inj hs ▸ hsent

/-- A leader that reacts to a message. -/
theorem Node.Strings.leaderReceive (h : s.Strings) (hlocals : locals.Strings) (hbuf : 0 ∉ buf)
    (hs : leaderReceiveMessage env locals s buf src = .ok s') : s'.Strings := by
  obtain ⟨⟨word, rest⟩, hscan, hs⟩ := Fault.bind_eq_ok.1 hs
  have hrest : 0 ∉ rest := zero_not_mem_scanCommand hlocals hbuf hscan
  dsimp only at hs
  split at hs
  · obtain ⟨-, rfl⟩ | ⟨-, s₁, update, s₂, hinsert, hgen, hbroadcast, rfl⟩ :=
      leaderReceiveAddMe_eq_ok hs
    · exact h.send (by decide)
    · have hjoined := zero_not_mem_snprintf (zero_not_mem_joinMessage hrest src) maxBufferLen
      have h₁ := h.insert ⟨hrest, zero_not_mem_inetNtoa src, zero_not_mem_portText src⟩ hinsert
      have h₂ := h₁.broadcast (h₁.generate (by decide) hjoined hgen) hbroadcast
      exact h₂.congr rfl rfl rfl rfl
  split at hs
  · obtain ⟨⟨nickname, payload⟩, hrequest, hs⟩ := Fault.bind_eq_ok.1 hs
    obtain ⟨⟨clock, s₁⟩, hclock, hs⟩ := Fault.bind_eq_ok.1 hs
    obtain ⟨-, rfl, rfl⟩ := incrClock_ok hclock
    obtain ⟨s₂, hbroadcast, hs⟩ := Fault.bind_eq_ok.1 hs
    obtain rfl := Except.ok.inj hs
    obtain ⟨scan, hscan, hrequest⟩ := Fault.bind_eq_ok.1 hrequest
    split at hrequest
    · cases hrequest
    obtain ⟨rfl, rfl⟩ := Prod.mk.inj (Except.ok.inj hrequest)
    have hmessage := zero_not_mem_snprintf (zero_not_mem_broadcastText s.clockNum
      (zero_not_mem_text hscan hrest 0 hlocals.senderNickname)
      (zero_not_mem_text hscan hrest 1 hlocals.payload)) 1024
    have hcounted : Node.Strings { s with clockNum := s.clockNum + 1 } := h.congr rfl rfl rfl rfl
    exact (hcounted.broadcast hmessage hbroadcast).congr rfl rfl rfl rfl
  split at hs
  · exact Except.ok.inj hs ▸ h
  split at hs
  · exact h.respond hs
  · exact Except.ok.inj hs ▸ h.congr rfl rfl rfl rfl

/-- The loop over the entries of a PARTICIPANT_UPDATE. -/
theorem Node.Strings.scanParticipants {joining isFirst : Bool} {fuel : ℕ} {currPos rest : Bytes}
    (h : s.Strings) (hpos : 0 ∉ currPos)
    (hs : scanParticipants joining fuel s currPos isFirst = .ok (s', rest)) : s'.Strings := by
  induction fuel generalizing s currPos isFirst with
  | zero => cases hs
  | succ fuel ih =>
    obtain ⟨rfl, -⟩ | ⟨r, s₁, q, -, hr, -, hq, hfields, -, hrec⟩ := scanParticipants_eq_ok hs
    · exact h
    have htext : ∀ i, 0 ∉ r.text i [] := fun i => zero_not_mem_text hr hpos i List.not_mem_nil
    obtain ⟨hnick, hip, hport⟩ : q.nickname = r.text 0 [] ∧ q.ipAddress = r.text 1 [] ∧
        q.portNum = r.text 2 [] := by simpa [Peer.fields] using hfields
    have hnew : q.toPeer.Strings := ⟨hnick ▸ htext 0, hip ▸ htext 1, hport ▸ htext 2⟩
    refine ih ⟨?_, fun p hp => ?_, fun p hp => ?_, ?_⟩ (fun h0 => hpos ?_) hrec
    · exact hq.role.thisNickname ▸ h.self
    · rw [hq.participants] at hp
      obtain hp | hp := List.mem_append.1 hp
      · exact h.participants p hp
      · exact List.mem_singleton.1 hp ▸ hnew
    · rw [hq.leader] at hp
      split at hp
      · exact Option.some.inj hp ▸ hnew
      · exact h.leader p hp
    · exact hq.role.sent ▸ h.sent
    · exact List.mem_of_mem_drop ((List.dropWhile_sublist _).subset h0)

/-- A PARTICIPANT_UPDATE. -/
theorem Node.Strings.update {joining : Bool} (h : s.Strings) (hbuf : 0 ∉ buf)
    (hs : processParticipantUpdate s buf joining = .ok s') : s'.Strings := by
  obtain ⟨found, s₁, currPos, hfound, hscan, -, rfl⟩ := processParticipantUpdate_eq_ok hs
  have hempty : s.emptyList.Strings :=
    ⟨h.self, fun p hp => (by cases hp), fun q hq => (by cases hq), h.sent⟩
  refine (hempty.scanParticipants (fun h0 => hbuf ?_) hscan).congr rfl rfl rfl rfl
  exact (strchr_suffix hfound).subset (List.mem_of_mem_tail ((List.dropWhile_sublist _).subset h0))

/-- A non-leader that reacts to a message. -/
theorem Node.Strings.nonLeaderReceive (h : s.Strings) (hlocals : locals.Strings) (hbuf : 0 ∉ buf)
    (hs : nonLeaderReceiveMessage env locals s buf src = .ok s') : s'.Strings := by
  obtain ⟨⟨word, rest⟩, hscan, hs⟩ := Fault.bind_eq_ok.1 hs
  have hrest : 0 ∉ rest := zero_not_mem_scanCommand hlocals hbuf hscan
  dsimp only at hs
  split at hs
  · obtain ⟨⟨id, nickname, payload⟩, -, hs⟩ := Fault.bind_eq_ok.1 hs
    exact Except.ok.inj hs ▸ h.congr rfl rfl rfl rfl
  split at hs
  · exact h.update hbuf hs
  split at hs
  · unfold nonLeaderReceiveAddMe at hs
    split at hs
    · exact Except.ok.inj hs ▸ h.send (by decide)
    split at hs
    · cases hs
    next leader hleader =>
    have hq := h.leader leader hleader
    have hreferral := zero_not_mem_around (zero_not_mem_around (a := messageLeaderId) (b := str " ")
      (by decide) (by decide) hq.ipAddress) (b := str ":") (by decide) hq.portNum
    dsimp only at hs
    split at hs
    · cases hs
    · exact Except.ok.inj hs ▸ h.send (zero_not_mem_snprintf hreferral _)
  split at hs
  · exact Except.ok.inj hs ▸ h
  split at hs
  · exact h.respond hs
  split at hs
  · exact Except.ok.inj hs ▸ h.congr rfl rfl rfl rfl
  split at hs
  · exact Except.ok.inj hs ▸ h.setNewLeader _
  · cases hs

/-- A line that is passed on. -/
theorem Node.Strings.recvStdin {line : Bytes} (h : s.Strings)
    (hs : recvStdin env locals s line = .ok s') : s'.Strings := by
  unfold Chat.recvStdin at hs
  dsimp only at hs
  generalize hcipher : cString ((encrypt line encryptionKey maxBufferLen).2 ++
    locals.ciphertext.drop (encrypt line encryptionKey maxBufferLen).2.length) = ciphertext at hs
  have hcipher : 0 ∉ ciphertext := hcipher ▸ zero_not_mem_cString _
  split at hs
  · obtain ⟨⟨clock, s₁⟩, hclock, hs⟩ := Fault.bind_eq_ok.1 hs
    obtain ⟨-, rfl, rfl⟩ := incrClock_ok hclock
    obtain ⟨s₂, hbroadcast, hs⟩ := Fault.bind_eq_ok.1 hs
    obtain rfl := Except.ok.inj hs
    have hmessage := zero_not_mem_snprintf
      (zero_not_mem_broadcastText s.clockNum h.self hcipher) maxBufferLen
    have hcounted : Node.Strings { s with clockNum := s.clockNum + 1 } := h.congr rfl rfl rfl rfl
    exact (hcounted.broadcast hmessage hbroadcast).congr rfl rfl rfl rfl
  · obtain ⟨dst, -, hs⟩ := Fault.bind_eq_ok.1 hs
    have hname := zero_not_mem_around (a := messageRequest) (b := str " ") (by decide) (by decide) h.self
    exact h.enquire (zero_not_mem_snprintf
      (zero_not_mem_around hname (b := str "= ") (by decide) hcipher) maxBufferLen) hs

theorem Node.Strings.sendHeartbeat (h : s.Strings) (hs : sendHeartbeat env locals s = .ok s') :
    s'.Strings := by
  unfold Chat.sendHeartbeat at hs
  split at hs
  · exact h.broadcast (by decide) hs
  · obtain ⟨dst, -, hs⟩ := Fault.bind_eq_ok.1 hs
    exact h.enquire (by decide) hs

theorem Node.Strings.declareVictory (h : s.Strings) (hs : declareVictory env s = .ok s') :
    s'.Strings := by
  obtain ⟨s₁, hvictory, hs⟩ := Fault.bind_eq_ok.1 hs
  obtain ⟨update, hgen, hs⟩ := Fault.bind_eq_ok.1 hs
  obtain ⟨s₂, hupdate, hs⟩ := Fault.bind_eq_ok.1 hs
  have hwon : Node.Strings s.victorious := (h.setLeaderBy _).congr rfl rfl rfl rfl
  have h₁ : s₁.Strings := hwon.broadcast (by decide) hvictory
  have hnotice := zero_not_mem_around (a := str "NOTICE ") (c := str " is the new leader") (by decide)
    h₁.self (by decide)
  have h₂ := h₁.broadcast (h₁.generate (by decide) (zero_not_mem_snprintf hnotice 1024) hgen) hupdate
  obtain rfl := Except.ok.inj hs
  split
  · exact h₂.congr rfl rfl rfl rfl
  · exact h₂.congr rfl rfl rfl rfl

/-- **A node that reacts to a string** has texts that are strings, and sends strings. -/
theorem Node.Strings.chatStep {event : Event} (h : s.Strings) (hlocals : locals.Strings)
    (hread : ∀ buf src, event = .receive buf src → 0 ∉ buf)
    (hs : chatStep env locals s event = some (.ok s')) : s'.Strings := by
  cases event with
  | stdin buf =>
    simp only [Chat.chatStep] at hs
    split at hs
    · have hs := Option.some.inj hs
      split at hs
      · exact h.recvStdin hs
      · exact Except.ok.inj hs ▸ h
    · cases hs
  | receive buf src =>
    cases hl : s.isLeader with
    | true =>
      rw [chatStep_receive_leader hl] at hs
      exact h.leaderReceive hlocals (hread buf src rfl) (Option.some.inj hs)
    | false =>
      rw [chatStep_receive_nonLeader hl] at hs
      exact h.nonLeaderReceive hlocals (hread buf src rfl) (Option.some.inj hs)
  | heartbeat =>
    simp only [Chat.chatStep] at hs
    split at hs
    · cases hs
    · exact h.sendHeartbeat (Option.some.inj hs)
  | victory =>
    simp only [Chat.chatStep] at hs
    split at hs
    · exact h.declareVictory (Option.some.inj hs)
    · cases hs
  | restart =>
    simp only [Chat.chatStep] at hs
    split at hs
    · exact h.startElection (Option.some.inj hs)
    · cases hs

end Sending

/-! ## Lengths -/

/-- **Every message fits a buffer**, with its NUL. -/
theorem Speech.length_lt {locals : Locals} {s : Node} {event : Event} {message : Bytes}
    (h : Speech locals s event message) : message.length < maxBufferLen := by
  have hbare : ∀ m ∈ bareCommands, m.length < maxBufferLen := by decide
  cases h with
  | bare hmessage => exact hbare message hmessage
  | refusal _ _ _ _ => decide
  | referral _ => exact (length_snprintf_lt (by decide) _).trans (by decide)
  | request _ _ _ _ _ => exact length_snprintf_lt (by decide) _
  | broadcast _ => exact length_snprintf_lt (by decide) _
  | relay _ _ _ _ => exact length_snprintf_lt (by decide) _
  | update _ _ _ hlen => exact hlen

/-! ## Sessions -/

/-- The nickname of a process that is started, and what the arrays for texts hold in a round, are
strings. -/
def Tidy : Action → Prop
  | .join _ nickname _ _ => 0 ∉ nickname
  | .round _ _ _ locals => locals.Strings
  | _ => True

/-- A string that fits a buffer with its NUL. -/
structure Sendable (message : Bytes) : Prop where
  no_nul : 0 ∉ message
  length_lt : message.length < maxBufferLen

theorem sendable_addMeCmd {nickname : Bytes} (h : 0 ∉ nickname) : Sendable (addMeCmd nickname) where
  no_nul := zero_not_mem_snprintf (zero_not_mem_around (by decide) (by decide) h) 29
  length_lt := (length_snprintf_lt (by decide) _).trans (by decide)

section Sessions

variable {resolve : Bytes → Bytes → Option RmpAddress} {founder : Member} {g : Session}

theorem Node.Strings.modelInit {nickname : Bytes} (h : 0 ∉ nickname) (isLeader : Bool) :
    (Node.modelInit nickname isLeader).Strings :=
  ⟨h, fun p hp => (by cases hp), fun q hq => (by cases hq), fun e he => (by cases he)⟩

/-- **Every message under way is a string that fits**, and so are the texts of every process,
in every session. -/
theorem strings_of_reach (hfounder : 0 ∉ founder.nickname)
    (h : Reach (sessionStep resolve) (fun _ action => Tidy action) (Founded founder) g) :
    g.All (fun _ p => p.node.Strings) fun x => Sendable x.body := by
  refine Session.all_of_moved (P := fun _ _ p => p.node.Strings) (Q := fun _ x => Sendable x.body)
    (J := fun _ => True) (fun _ _ => trivial) (fun g hg => ?_)
    (fun _ _ => ⟨fun _ _ hp => hp, fun _ hx => hx⟩) ?_ ?_ h
  · refine hg.all fun s hs => ?_
    obtain ⟨s₁, hinsert, hs⟩ := Fault.bind_eq_ok.1 hs
    obtain rfl := Except.ok.inj hs
    have h₁ := (Node.Strings.modelInit hfounder true).insert
      ⟨hfounder, zero_not_mem_inetNtoa _, zero_not_mem_portText _⟩ hinsert
    exact h₁.congr rfl rfl rfl rfl
  · intro g address nickname addrPort weather j _ hok hj
    have hmessage : ∀ e ∈ j.node.sent, e.message = addMeCmd nickname :=
      fun e he => message_of_joinChat hj he
    obtain ⟨e, lines, hnode, -⟩ := joinChat_ok hj
    refine ⟨(Node.Strings.modelInit hok false).said ?_ ?_ ?_ fun e he => ?_, fun e he => ?_⟩
    · exact (congrArg Node.thisNickname hnode :)
    · exact (congrArg Node.participants hnode :)
    · exact (congrArg Node.leader hnode :)
    · exact hmessage e he ▸ (sendable_addMeCmd hok).no_nul
    · exact hmessage e he ▸ sendable_addMeCmd hok
  · intro g g' address cue weather locals p p' event rest _ hok hm hp hread
    have hran := hm.ran
    cases hm.round with
    | @asked j j' e buf src hnode hmessage =>
      have hsent : ∀ e' ∈ j'.node.sent, Sendable e'.message := by
        rw [hnode]
        exact fun e' he' => List.mem_singleton.1 he' ▸ hmessage ▸ sendable_addMeCmd hp.self
      refine ⟨hp.said ?_ ?_ ?_ fun e' he' => (hsent e' he').no_nul, hsent⟩
      · exact (congrArg Node.thisNickname hnode :)
      · exact (congrArg Node.participants hnode :)
      · exact (congrArg Node.leader hnode :)
    | @entered j s₁ s' buf src _ hsent _ _ =>
      obtain ⟨j₁, j', hj', -⟩ | ⟨s'', -, hs'', hupdate⟩ := joinReceive_ok (Option.some.inj hran)
      · cases hj'
      obtain rfl := Process.chatting.inj hs''
      have hprinted : ∀ line, (Node.print { j.node with sent := [] } line).Strings := fun line =>
        hp.said rfl rfl rfl fun e he => by cases he
      have hs := (hprinted _).update (hread buf src rfl).no_nul hupdate
      refine ⟨hs, fun e he => ?_⟩
      rw [Process.node, hsent] at he
      cases he
    | @reacted s s' _ _ =>
      obtain ⟨r, hstep, hs'⟩ := Option.map_eq_some_iff.1 hran
      cases r with
      | error e => cases hs'
      | ok s'' =>
        obtain rfl := Process.chatting.inj (Except.ok.inj hs')
        have hquiet : Node.Strings { s with sent := [] } := hp.said rfl rfl rfl fun e he => by cases he
        have hs := hquiet.chatStep hok (fun buf src hevent => (hread buf src hevent).no_nul) hstep
        obtain ⟨log, hsent, hlog⟩ := speech_of_chatStep hstep
        refine ⟨hs, fun e he => ⟨hs.sent e he, ?_⟩⟩
        rw [Process.node, hsent, List.nil_append] at he
        exact (hlog e he).length_lt

end Sessions

end Dchat.Chat
