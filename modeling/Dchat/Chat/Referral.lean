import Dchat.Chat.Outgoing

/-!
# Whom a node takes for the leader

Sessions with any number of elections. A node learns who leads from a PARTICIPANT_UPDATE, from an
ELECTION_VICTORY or by its own victory, it sends its heartbeats and requests there, and it names
this process to those that ask it to be let in.

* `Pointing` and `Directing` are what holds of every node and of every message: they name only
  processes of `L`, if only processes of `L` declare victory.
* `joinReceive_leaderIdText`: a LEADER_ID is read back, and its receiver asks there.
* `referral_of_reach`: nobody is taken for the leader who has never led.
-/

namespace Dchat.Chat

open CString Stdio RMP Links Runs

/-! ## LEADER_ID -/

/-- The LEADER_ID of the process at an address. -/
def leaderIdText (a : RmpAddress) : Bytes :=
  messageLeaderId ++ 32 :: (inetNtoa a ++ 58 :: portText a)

/-- The buffer of the sender is large enough. -/
theorem snprintf_leaderId {q : Peer} {m : Member} (h : q.fields = m.fields) :
    snprintf (10 + maxIpAddressLen + 1 + maxPortNumLen + 1)
      (messageLeaderId ++ str " " ++ q.ipAddress ++ str ":" ++ q.portNum) = leaderIdText m.address := by
  obtain ⟨-, hip, hport⟩ := fields_eq h
  have htext : messageLeaderId ++ str " " ++ q.ipAddress ++ str ":" ++ q.portNum =
      leaderIdText m.address := by
    rw [hip, hport]
    simp [leaderIdText, str]
  have hlen : (leaderIdText m.address).length < 10 + maxIpAddressLen + 1 + maxPortNumLen + 1 := by
    have hle := (isIpAddress_inetNtoa m.address).length_le
    have hle' := (isPortNum_portText m.address).length_le
    have h9 : messageLeaderId.length = 9 := by decide
    rw [leaderIdText]
    simp only [List.length_append, List.length_cons, h9]
    omega
  rw [htext, snprintf_of_lt hlen]

/-- Its command is read. -/
theorem sscanf_leaderIdText (ds : List Directive) (a : RmpAddress) :
    sscanf (.str 20 :: .white :: ds) (leaderIdText a) =
      (sscanf ds (inetNtoa a ++ 58 :: portText a)).map (Scan.cons (.text messageLeaderId)) := by
  have hip := isIpAddress_inetNtoa a
  have hspace : Stops isSpace (inetNtoa a ++ 58 :: portText a) := by
    refine (stops_append hip.ne_nil _).2 fun c hc => ?_
    have hbyte := hip.bytes c (List.mem_of_mem_head? hc)
    obtain hdigit | rfl : isDigit c = true ∨ c = 46 := by simpa [isAddressByte] using hbyte
    · exact isSpace_of_isDigit hdigit
    · decide
  have hblank : 32 :: (inetNtoa a ++ 58 :: portText a) = [32] ++ (inetNtoa a ++ 58 :: portText a) :=
    rfl
  rw [leaderIdText, sscanf_str (by decide) (by decide) (by decide) ((stops_cons ..).2 (by decide)),
    hblank, sscanf_white (by decide) hspace]

/-- **The address in a LEADER_ID is read back.** -/
theorem scanned_leaderIdText (a : RmpAddress) :
    sscanf leaderIdFormat (leaderIdText a) =
      .ok ⟨[.text messageLeaderId, .text (inetNtoa a), .text (portText a)], false⟩ := by
  have hip := isIpAddress_inetNtoa a
  have hport := isPortNum_portText a
  have h1 : Stops isAddressByte (58 :: portText a) := (stops_cons ..).2 (by decide)
  have hset : sscanf [.set isDigit 6] (portText a ++ []) =
      (sscanf [] ([] : Bytes)).map (Scan.cons (.text (portText a))) :=
    sscanf_set hport.ne_nil hport.bytes (Nat.lt_add_one_of_le hport.length_le) (stops_nil _)
  rw [List.append_nil] at hset
  rw [leaderIdFormat, sscanf_leaderIdText,
    sscanf_set hip.ne_nil hip.bytes (Nat.lt_add_one_of_le hip.length_le) h1, sscanf_lit, hset]
  rfl

/-- **The receiver of a LEADER_ID** asks the process that it names. -/
theorem joinReceive_leaderIdText {env : Env} {a leaderHint : RmpAddress} (j : Joining)
    (h : env.getAddressFor (inetNtoa a) (portText a) = some leaderHint) :
    joinReceive env j (leaderIdText a) =
      (sendAddMe env { j with
        addr := inetNtoa a, port := portText a, leaderHint := leaderHint
        failedJoinAttempts := j.failedJoinAttempts + 1 }).map Process.joining := by
  have hjoin : sscanf joinFormat (leaderIdText a) = .ok ⟨[.text messageLeaderId], false⟩ := by
    rw [joinFormat, sscanf_leaderIdText]
    rfl
  have hwords : strcmp messageParticipantUpdate messageLeaderId ≠ 0 ∧
      strcmp messageJoinNicknameFailure messageLeaderId ≠ 0 ∧
      strcmp messageJoinFailure messageLeaderId ≠ 0 ∧ strcmp messageLeaderId messageLeaderId = 0 := by
    decide
  have htext : (⟨[.text messageLeaderId], false⟩ : Scan).text 0 [] = messageLeaderId := rfl
  have hret : (⟨[.text messageLeaderId], false⟩ : Scan).ret ≠ eof := by decide
  rw [joinReceive, hjoin, Fault.ok_bind]
  simp only [htext, if_neg hret, if_neg hwords.1, if_neg hwords.2.1, if_neg hwords.2.2.1,
    if_pos hwords.2.2.2]
  have hret' : (⟨[.text messageLeaderId, .text (inetNtoa a), .text (portText a)], false⟩ : Scan).ret ≠
      eof := by simp [Scan.ret, eof]
  have haddr : (⟨[.text messageLeaderId, .text (inetNtoa a), .text (portText a)], false⟩ : Scan).text 1
      j.addr = inetNtoa a := rfl
  have hport : (⟨[.text messageLeaderId, .text (inetNtoa a), .text (portText a)], false⟩ : Scan).text 2
      j.port = portText a := rfl
  rw [scanned_leaderIdText, Fault.ok_bind, if_neg hret', haddr, hport, h]
  rfl

/-! ## Those who have led -/

/-- Only processes in `L` declare victory. -/
def ClaimedBy (L : Set RmpAddress) : Action → Prop
  | .round address .victory _ _ => address ∈ L
  | _ => True

instance (L : Set RmpAddress) [DecidablePred (· ∈ L)] : DecidablePred (ClaimedBy L)
  | .round address .victory _ _ => inferInstanceAs (Decidable (address ∈ L))
  | .round _ (.receive _) _ _ | .round _ (.stdin _) _ _ | .round _ .heartbeat _ _
  | .round _ .restart _ _ => inferInstanceAs (Decidable True)
  | .join .. | .crash .. | .lose .. | .copy .. => inferInstanceAs (Decidable True)

/-- The entry is that of a member in `L`. -/
def Peer.Names (L : Set RmpAddress) (roll : List Member) (q : Peer) : Prop :=
  ∃ m ∈ roll, m.address ∈ L ∧ q.fields = m.fields

/-- **The leader of a node** is in `L`: the one that it takes for it, and itself if it leads.
Otherwise it has its own entry, and will be its leader by that. -/
structure Pointing (L : Set RmpAddress) (roll : List Member) (a : RmpAddress) (s : Node) : Prop where
  pointer : ∃ q, s.leader = some q ∧ q.Names L roll
  leads : s.isLeader = true → a ∈ L
  listed : s.isLeader = false → ∃ p ∈ s.participants, p.fields = (⟨a, s.thisNickname⟩ : Member).fields

/-- A list of members that is announced to one of them by a leader in `L`. -/
def Nominates (resolve : Bytes → Bytes → Option RmpAddress) (L : Set RmpAddress) (roll : List Member)
    (dst : RmpAddress) (body : Bytes) : Prop :=
  ∃ leader ps notice, body = updateText leader ps notice ∧ leader.Names L roll ∧
    (∀ p ∈ others ps, ∃ m ∈ roll, p.fields = m.fields) ∧
    ∃ p ∈ others ps, resolve p.ipAddress p.portNum = some dst

/-- **The leaders in a message** are in `L`. -/
structure Directing (resolve : Bytes → Bytes → Option RmpAddress) (L : Set RmpAddress)
    (roll : List Member) (x : Packet RmpAddress Bytes) : Prop where
  update : commandOf x.body = messageParticipantUpdate → Nominates resolve L roll x.dst x.body
  referral : commandOf x.body = messageLeaderId →
    ∃ m ∈ roll, m.address ∈ L ∧ x.body = leaderIdText m.address
  victory : commandOf x.body = messageElectionVictory → x.src ∈ L ∧ x.src ∈ roll.map Member.address

section Pointers

variable {resolve : Bytes → Bytes → Option RmpAddress} {L : Set RmpAddress} {roll : List Member}
  {a src : RmpAddress} {env : Env} {weather : Weather} {locals : Locals} {s s' base : Node}
  {event : Event} {message : Bytes}

/-- A node that keeps its leader, and its list unless it leads. -/
theorem Pointing.congr (h : Pointing L roll a s) (hleader : s'.leader = s.leader)
    (hrole : s'.isLeader = s.isLeader) (hnick : s'.thisNickname = s.thisNickname)
    (hps : s.isLeader = false → s'.participants = s.participants) : Pointing L roll a s' where
  pointer := hleader ▸ h.pointer
  leads hl := h.leads (hrole ▸ hl)
  listed hl := by
    rw [hps (hrole ▸ hl), hnick]
    exact h.listed (hrole ▸ hl)

theorem Pointing.broadcast (h : Pointing L roll a s) (hl : s.isLeader = true)
    (hs : leaderBroadcastMessage env s message = .ok s') : Pointing L roll a s' := by
  have hsame := leaderBroadcastMessage_same hs
  refine h.congr hsame.leader hsame.isLeader hsame.thisNickname fun hl' => ?_
  rw [hl] at hl'
  cases hl'

theorem Pointing.insert {nickname ipAddress portNum : Bytes} (h : Pointing L roll a s)
    (hl : s.isLeader = true)
    (hs : s.insertParticipant nickname ipAddress portNum false = .ok s') : Pointing L roll a s' := by
  obtain ⟨q, hq, -, hflag⟩ := inserted_of_insertParticipant hs none
  have hrole : SameRole s s' := hq.role
  have hleader : s'.leader = if q.isLeader then some q.toPeer else s.leader := hq.leader
  rw [hflag] at hleader
  refine h.congr hleader hrole.isLeader hrole.thisNickname fun hl' => ?_
  rw [hl] at hl'
  cases hl'

/-- The leader after a new one has been set. -/
theorem leader_of_setLeaderBy {test : Participant → Bool} {q : Peer}
    (h : (s.setLeaderBy test).leader = some q) :
    (∃ p ∈ s.participants, test p = true ∧ q = p.toPeer) ∨ s.leader = some q := by
  rw [Node.setLeaderBy, Option.or_eq_some_iff] at h
  obtain h | ⟨-, h⟩ := h
  · obtain ⟨p, hp, rfl⟩ := Option.map_eq_some_iff.1 h
    obtain ⟨hmem, htest⟩ := List.mem_filter.1 (List.mem_of_getLast? hp)
    exact .inl ⟨p, hmem, htest, rfl⟩
  · exact .inr h

/-- There is one after that if there was one before. -/
theorem exists_leader_setLeaderBy (test : Participant → Bool) (h : ∃ q, s.leader = some q) :
    ∃ q, (s.setLeaderBy test).leader = some q := by
  obtain ⟨q, hq⟩ := h
  rw [Node.setLeaderBy, hq]
  cases ((s.participants.filter test).getLast?.map Participant.toPeer) with
  | none => exact ⟨q, rfl⟩
  | some q' => exact ⟨q', rfl⟩

/-- **A node that declares victory** takes its own entry for the leader's. -/
theorem Pointing.victorious (hroll : Enrolled resolve roll) (hcons : Consistent roll a s)
    (h : Pointing L roll a s) (hl : s.isLeader = false) (ha : a ∈ L) :
    Pointing L roll a s.victorious := by
  obtain ⟨q₀, hq₀, hnames⟩ := h.pointer
  obtain ⟨q, hq⟩ := exists_leader_setLeaderBy (fun p => strcmp s.thisNickname p.nickname = 0) ⟨q₀, hq₀⟩
  refine ⟨⟨q, hq, ?_⟩, fun _ => ha, fun hl' => by cases hl'⟩
  obtain ⟨p, hp, htest, rfl⟩ | hold := leader_of_setLeaderBy hq
  · obtain ⟨own, hown, hfields⟩ := h.listed hl
    obtain ⟨m, hm, hp'⟩ := hcons.enrolled p hp
    have h0 : 0 ∉ p.nickname := (fields_eq hp').1 ▸ (hroll.listable m hm).admitted.no_nul
    have h0' : 0 ∉ s.thisNickname := (hroll.listable _ hcons.self).admitted.no_nul
    have hnick : s.thisNickname = p.nickname := (strcmp_eq_zero h0' h0).1 (of_decide_eq_true htest)
    obtain rfl : p = own := List.inj_on_of_nodup_map hcons.distinct hp hown
      (hnick.symm.trans (fields_eq hfields).1.symm)
    exact ⟨_, hcons.self, ha, hfields⟩
  · rw [hq₀] at hold
    exact Option.some.inj hold ▸ hnames

/-- **A node that follows a new leader** takes the entry of the sender for the leader's. -/
theorem Pointing.followed (hroll : Enrolled resolve roll) (hcons : Consistent roll a s)
    (h : Pointing L roll a s) (hl : s.isLeader = false) (hsrc : src ∈ roll.map Member.address)
    (hclaimed : src ∈ L) : Pointing L roll a (setNewLeader s src) := by
  obtain ⟨q₀, hq₀, hnames⟩ := h.pointer
  obtain ⟨q, hq⟩ := exists_leader_setLeaderBy (fun p => strcmp (inetNtoa src) p.ipAddress = 0 ∧
    strcmp (portText src) p.portNum = 0) ⟨q₀, hq₀⟩
  refine ⟨⟨q, hq, ?_⟩, (fun hl' => by cases hl'), fun _ => ?_⟩
  · obtain ⟨p, hp, htest, rfl⟩ | hold := leader_of_setLeaderBy hq
    · obtain ⟨m, hm, hfields⟩ := hcons.enrolled p hp
      obtain ⟨m', hm', rfl⟩ := List.mem_map.1 hsrc
      obtain ⟨-, hip, hport⟩ := fields_eq hfields
      obtain ⟨hip', hport'⟩ := of_decide_eq_true htest
      rw [hip, strcmp_eq_zero (zero_not_mem_inetNtoa _) (zero_not_mem_inetNtoa _)] at hip'
      rw [hport, strcmp_eq_zero (zero_not_mem_portText _) (zero_not_mem_portText _)] at hport'
      have hresolved := (hroll.listable m' hm').resolved
      rw [hip', hport', (hroll.listable m hm).resolved] at hresolved
      exact ⟨m, hm, (Option.some.inj hresolved).symm ▸ hclaimed, hfields⟩
    · rw [hq₀] at hold
      exact Option.some.inj hold ▸ hnames
  · obtain ⟨p, hp, hfields⟩ := h.listed hl
    exact ⟨_, List.mem_map_of_mem hp, hfields⟩

/-- **A node that takes over a list** takes its first entry for the leader's. -/
theorem Pointing.update (hroll : Enrolled resolve roll) (h : Nominates resolve L roll a message)
    (hself : ⟨a, s.thisNickname⟩ ∈ roll) (hl : s.isLeader = false) {joining : Bool}
    (hs : processParticipantUpdate s message joining = .ok s') : Pointing L roll a s' := by
  obtain ⟨leader, ps, notice, rfl, ⟨m, hm, hclaimed, hleader⟩, hothers, p, hp, haddr⟩ := h
  have hplain : ∀ q ∈ others ps, q.Plain := by
    intro q hq
    obtain ⟨m, hm, hfields⟩ := hothers q hq
    exact (hroll.listable m hm).plain hfields
  obtain ⟨s₁, q, qs, hs₁, hd⟩ :=
    decoded_updateText ((hroll.listable m hm).plain hleader) hplain notice s joining
  obtain rfl := Except.ok.inj (hs₁.symm.trans hs)
  refine ⟨⟨q.toPeer, hd.pointer, m, hm, hclaimed, hd.first.trans hleader⟩, fun hl' => ?_, fun _ => ?_⟩
  · rw [hd.role.isLeader, hl] at hl'
    cases hl'
  · have hmem : p.fields ∈ qs.map fun p => p.fields := hd.others ▸ List.mem_map_of_mem hp
    obtain ⟨own, hown, heq⟩ := List.mem_map.1 hmem
    obtain ⟨m', hm', hfields⟩ := hothers p hp
    have haddr' : m'.address = a :=
      Option.some.inj (((hroll.listable m' hm').getAddressFor hfields).symm.trans haddr)
    obtain rfl : m' = ⟨a, s.thisNickname⟩ :=
      List.inj_on_of_nodup_map hroll.addresses_nodup hm' hself haddr'
    refine ⟨own, hd.participants ▸ List.mem_cons_of_mem _ hown, ?_⟩
    rw [heq, hfields, hd.role.thisNickname]

/-! ## What is sent -/

/-- The node whose list is announced. -/
theorem Pointing.announcer (hroll : Enrolled resolve roll) (hcons : Consistent roll a s)
    (h : Pointing L roll a s) (hvictory : event = .victory → a ∈ L)
    (hbase : Announcer locals s event base) : Pointing L roll a base := by
  cases hbase with
  | leader _ => exact h
  | host hl _ _ hinsert => exact h.insert hl hinsert
  | winner hl _ => exact h.victorious hroll hcons hl (hvictory rfl)

/-- **The answer to an ADD_ME** names the leader. -/
theorem Pointing.referral (h : Pointing L roll a s) (hmessage : Referral s message)
    (hword : commandOf message = messageLeaderId) :
    ∃ m ∈ roll, m.address ∈ L ∧ message = leaderIdText m.address := by
  obtain rfl | ⟨leader, hleader, rfl⟩ := hmessage
  · exact absurd hword (by decide)
  · obtain ⟨q, hq, m, hm, hclaimed, hfields⟩ := h.pointer
    obtain rfl := Option.some.inj (hq.symm.trans hleader)
    exact ⟨m, hm, hclaimed, snprintf_leaderId hfields⟩

/-- **What a node sends** names leaders in `L`. -/
theorem Pointing.sent {e : Sent} (hroll : Enrolled resolve roll) (hcons : Consistent roll a s)
    (h : Pointing L roll a s) (hvictory : event = .victory → a ∈ L)
    (hread : ∀ buf src, event = .receive buf src → Authentic (Census resolve roll) roll ⟨src, a, buf⟩)
    (hr : Reaction (Session.env resolve weather) locals s event s') (hsent : s.sent = [])
    (he : e ∈ s'.sent) : Directing resolve L roll ⟨a, e.dst, e.message⟩ := by
  refine ⟨fun hword => ?_, fun hword => ?_, fun hword => ?_⟩
  · have hword : commandOf e.message = messageParticipantUpdate := hword
    obtain ⟨numbers, log, hlog, hnumbers, hdispatched⟩ := hr.dispatched
    rw [hlog, hsent, List.nil_append] at he
    obtain he | he := List.mem_append.1 he
    · rw [(hnumbers.carries he).commandOf (by decide)] at hword
      exact absurd hword (by decide)
    cases hdispatched e he with
    | start _ _ hmessage _ _ _ =>
      rw [hmessage] at hword
      exact absurd hword (by decide)
    | update hbase hnotice haddr =>
      obtain ⟨leader, ps, notice, hleader, hmessage, hsub, hp⟩ := hnotice
      obtain ⟨q, hq, hnames⟩ := (h.announcer hroll hcons hvictory hbase).pointer
      obtain rfl := Option.some.inj (hq.symm.trans hleader)
      have hbase := ((kept_consistent hroll).announcer hcons hread hbase).1
      refine ⟨q, ps, notice, hmessage, hnames, fun p hp => ?_, _, hp, haddr⟩
      exact hbase.enrolled p (hsub.subset ((others_sublist ps).subset hp))
    | other hmem hcarries hother =>
      rw [hcarries.commandOf hmem] at hword
      exact absurd hword hother.2.1
  · have hnot : ∀ {words : List Bytes}, commandOf e.message ∈ words → messageLeaderId ∈ words :=
      fun hmem => hword ▸ hmem
    cases hr.outgoing hsent he with
    | published _ hpublished =>
      exact absurd (hnot (List.contains_iff_mem.1 hpublished)) (by decide)
    | answer _ _ _ _ hmessage => exact h.referral hmessage hword
    | declared _ _ hmem => exact absurd (hnot hmem) (by decide)
    | other hmem => exact absurd (hnot hmem) (by decide)
  · have hnot : ∀ {words : List Bytes}, commandOf e.message ∈ words → messageElectionVictory ∈ words :=
      fun hmem => hword ▸ hmem
    cases hr.outgoing hsent he with
    | published _ hpublished =>
      exact absurd (hnot (List.contains_iff_mem.1 hpublished)) (by decide)
    | answer _ _ _ _ hmessage =>
      exact absurd (hnot (List.contains_iff_mem.1 (answers_of_referral hmessage))) (by decide)
    | declared _ hevent _ => exact ⟨hvictory hevent, List.mem_map_of_mem hcons.self⟩
    | other hmem => exact absurd (hnot hmem) (by decide)

/-- **Every reaction** keeps the leader of the node in `L`. -/
theorem Pointing.reaction (hroll : Enrolled resolve roll) (hcons : Consistent roll a s)
    (h : Pointing L roll a s) (hvictory : event = .victory → a ∈ L)
    (hread : ∀ buf src, event = .receive buf src →
      Authentic (Census resolve roll) roll ⟨src, a, buf⟩ ∧ Directing resolve L roll ⟨src, a, buf⟩)
    (hr : Reaction env locals s event s') : Pointing L roll a s' := by
  have hbody : ∀ buf src, event = .receive buf src → ∃ word ∈ commands, Carries buf word := by
    intro buf src hevent
    obtain ⟨word, hword, hcarries, -⟩ := (hread buf src hevent).1
    exact ⟨word, hword, hcarries⟩
  cases hr with
  | silent lines => exact h.congr rfl rfl rfl fun _ => rfl
  | numbered hl _ _ hb =>
    have hclock : Pointing L roll a { s with clockNum := s.clockNum + 1 } :=
      h.congr rfl rfl rfl fun _ => rfl
    exact (hclock.broadcast hl hb).congr rfl rfl rfl fun _ => rfl
  | refused _ _ _ => exact h.congr rfl rfl rfl fun _ => rfl
  | admitted hl _ _ hinsert _ hb =>
    have hl₁ := (insertParticipant_role hinsert).isLeader.trans hl
    exact ((h.insert hl hinsert).broadcast hl₁ hb).congr rfl rfl rfl fun _ => rfl
  | responded _ hrespond =>
    obtain ⟨log, started, rfl⟩ := respondToLeaderElection_frame hrespond
    exact h.congr rfl rfl rfl fun _ => rfl
  | heard _ _ _ => exact h.congr rfl rfl rfl fun _ => rfl
  | updated hl hreads hu =>
    have hword := hreads.commandOf (by decide) (hbody _ _ rfl)
    exact Pointing.update hroll ((hread _ _ rfl).2.update hword) hcons.self hl hu
  | referred _ _ _ => exact h.congr rfl rfl rfl fun _ => rfl
  | stopped _ _ => exact h.congr rfl rfl rfl fun _ => rfl
  | followed hl hreads =>
    have hword := hreads.commandOf (by decide) (hbody _ _ rfl)
    obtain ⟨hclaimed, hsrc⟩ := (hread _ _ rfl).2.victory hword
    exact h.followed hroll hcons hl hsrc hclaimed
  | asked _ _ => exact h.congr rfl rfl rfl fun _ => rfl
  | suspected _ _ _ _ _ hstart =>
    obtain ⟨log, rfl, -⟩ := startElection_ok hstart
    exact h.congr rfl rfl rfl fun _ => rfl
  | beaten hl _ hb => exact h.broadcast hl hb
  | declared hl _ _ hd =>
    obtain ⟨s₁, s₂, notice, update, lines, hclaim, -, hupdate, rfl⟩ := declareVictory_broadcasts hd
    have hl₁ : s₁.isLeader = true := (leaderBroadcastMessage_same hclaim).isLeader
    have h₁ := (h.victorious hroll hcons hl (hvictory rfl)).broadcast rfl hclaim
    exact (h₁.broadcast hl₁ hupdate).congr rfl rfl rfl fun _ => rfl
  | restarted _ _ hstart =>
    obtain ⟨log, rfl, -⟩ := startElection_ok hstart
    exact h.congr rfl rfl rfl fun _ => rfl

end Pointers

/-! ## Runs -/

/-- The leader of a process in `chat` is in `L`. -/
def Directed (L : Set RmpAddress) (roll : List Member) (a : RmpAddress) : Process → Prop
  | .joining _ => True
  | .chatting s => Pointing L roll a s

section Runs

variable {resolve : Bytes → Bytes → Option RmpAddress} {L : Set RmpAddress} {founder : Member}
  {g g' : Session} {address : RmpAddress} {cue : Cue} {weather : Weather} {locals : Locals}
  {p p' : Process} {event : Event} {rest : List (Packet RmpAddress Bytes)}

theorem Peer.Names.grow {roll : List Member} {q : Peer} (m : Member) (h : q.Names L roll) :
    q.Names L (roll ++ [m]) := by
  obtain ⟨m', hm', hnames⟩ := h
  exact ⟨m', List.mem_append_left _ hm', hnames⟩

theorem Directing.grow {roll : List Member} {x : Packet RmpAddress Bytes} (m : Member)
    (h : Directing resolve L roll x) : Directing resolve L (roll ++ [m]) x := by
  refine ⟨fun hword => ?_, fun hword => ?_, fun hword => ?_⟩
  · obtain ⟨leader, ps, notice, hbody, hnames, hothers, hself⟩ := h.update hword
    refine ⟨leader, ps, notice, hbody, hnames.grow m, fun p hp => ?_, hself⟩
    obtain ⟨m', hm', hfields⟩ := hothers p hp
    exact ⟨m', List.mem_append_left _ hm', hfields⟩
  · obtain ⟨m', hm', hnames⟩ := h.referral hword
    exact ⟨m', List.mem_append_left _ hm', hnames⟩
  · obtain ⟨hclaimed, hsrc⟩ := h.victory hword
    rw [List.map_append]
    exact ⟨hclaimed, List.mem_append_left _ hsrc⟩

/-- An ADD_ME names nobody. -/
theorem directing_addMe {roll : List Member} (src dst : RmpAddress) (nickname : Bytes) :
    Directing resolve L roll ⟨src, dst, addMeCmd nickname⟩ := by
  have hword : commandOf (addMeCmd nickname) = messageAddMe :=
    (carries_addMeCmd nickname).commandOf (by decide)
  have hne : ∀ word, word ≠ messageAddMe → commandOf (addMeCmd nickname) ≠ word :=
    fun word hne heq => hne (heq.symm.trans hword)
  exact ⟨fun h => absurd h (hne _ (by decide)), fun h => absurd h (hne _ (by decide)),
    fun h => absurd h (hne _ (by decide))⟩

/-- **A round** names leaders in `L`. -/
theorem Session.Moved.directed
    (hm : g.Moved resolve address cue weather locals p p' event rest g')
    (hroll : Enrolled resolve g.roll)
    (hall : g.All (InOrder (Consistent g.roll) g.roll) (Authentic (Census resolve g.roll) g.roll))
    (hvictory : cue = .victory → address ∈ L) (hp : Directed L g.roll address p)
    (hread : ∀ buf src, event = .receive buf src → Directing resolve L g.roll ⟨src, address, buf⟩) :
    Directed L g.roll address p' ∧
      ∀ e ∈ p'.node.sent, Directing resolve L g.roll ⟨address, e.dst, e.message⟩ := by
  have hvictory : event = .victory → address ∈ L := by
    intro hevent
    by_contra hnot
    exact Session.event_ne_victory (fun hcue => hnot (hvictory hcue)) hm.read hevent
  have hauthentic : ∀ buf src, event = .receive buf src →
      Authentic (Census resolve g.roll) g.roll ⟨src, address, buf⟩ :=
    fun buf src hevent => hall.flight _ ((Session.mem_of_read hm.read).1 buf src hevent)
  cases hm.round with
  | @asked j j' e buf src hnode hmessage =>
    refine ⟨trivial, fun e' he' => ?_⟩
    rw [Process.node, hnode] at he'
    obtain rfl := List.mem_singleton.1 he'
    exact hmessage ▸ directing_addMe _ _ _
  | @entered j s₁ s' buf src hrole hsent hreads hu =>
    obtain ⟨⟨hl, -⟩, -, hself⟩ := hall.procs _ _ hm.live
    obtain ⟨hnick, hl₁, -⟩ := hrole
    obtain ⟨word, hword, hcarries, -⟩ := hauthentic _ _ rfl
    have hcommand := hreads.commandOf (by decide) ⟨word, hword, hcarries⟩
    refine ⟨Pointing.update hroll ((hread _ _ rfl).update hcommand) ?_ (hl₁.trans hl) hu, ?_⟩
    · rw [hnick]
      exact hself
    · intro e he
      rw [Process.node, hsent] at he
      cases he
  | @reacted s s' _ hr =>
    have hcons : Consistent g.roll address { s with sent := [] } :=
      Consistent.congr (hall.procs _ _ hm.live) rfl rfl rfl rfl rfl rfl
    have hpointing : Pointing L g.roll address { s with sent := [] } :=
      Pointing.congr hp rfl rfl rfl fun _ => rfl
    refine ⟨hpointing.reaction hroll hcons hvictory (fun buf src hevent => ?_) hr, fun e he => ?_⟩
    · exact ⟨hauthentic buf src hevent, hread buf src hevent⟩
    · exact hpointing.sent hroll hcons hvictory hauthentic hr rfl he

/-- Leaders in `L` are named everywhere. -/
theorem directed_of_reach (hfounder : founder.Listable resolve) (hL : founder.address ∈ L)
    (h : Reach (sessionStep resolve) (fun g action => Admissible resolve g action ∧ ClaimedBy L action)
      (Founded founder) g) : g.All (Directed L g.roll) (Directing resolve L g.roll) := by
  have hadmissible : ∀ g, Reach (sessionStep resolve)
      (fun g action => Admissible resolve g action ∧ ClaimedBy L action) (Founded founder) g →
      Reach (sessionStep resolve) (Admissible resolve) (Founded founder) g :=
    fun g hg => hg.mono fun _ _ _ hok hs => ⟨hok.1, hs⟩
  refine Session.all_of_moved (P := Directed L) (Q := Directing resolve L)
    (J := fun g => Enrolled resolve g.roll ∧
      g.All (InOrder (Consistent g.roll) g.roll) (Authentic (Census resolve g.roll) g.roll))
    (fun g hg => ⟨enrolled_of_reach hfounder (hadmissible g hg),
      consistent_of_reach hfounder (hadmissible g hg)⟩) ?_
    (fun roll m => ⟨fun a p hp => ?_, fun x hx => hx.grow m⟩) ?_ ?_ h
  · intro g hg
    have hroll : g.roll = [founder] := by
      obtain ⟨s, -, rfl⟩ := hg
      rfl
    refine hg.all fun s hs => ?_
    obtain ⟨q, lines, rfl, hfields⟩ := startChat_ok hs
    rw [hroll]
    exact ⟨⟨q.toPeer, rfl, founder, List.mem_singleton.2 rfl, hL, hfields⟩, fun _ => hL,
      fun hl => by cases hl⟩
  · cases p with
    | joining j => trivial
    | chatting s =>
      obtain ⟨q, hq, hnames⟩ := hp.pointer
      exact ⟨⟨q, hq, hnames.grow m⟩, hp.leads, hp.listed⟩
  · intro g address nickname addrPort weather j _ _ hj
    refine ⟨trivial, fun e he => ?_⟩
    exact message_of_joinChat hj he ▸ directing_addMe _ _ _
  · intro g g' address cue weather locals p p' event rest hJ hok hm hp hread
    refine hm.directed hJ.1 hJ.2 (fun hcue => ?_) hp hread
    have hclaimed := hok.2
    rw [hcue] at hclaimed
    exact hclaimed

/-- **Nobody is taken for the leader who has never led.** If only processes in `L` declare victory,
then in every session every node sends its heartbeats and requests to a member in `L`, only those
lead, and every LEADER_ID sends its receiver to one of them. -/
theorem referral_of_reach (hfounder : founder.Listable resolve) (hL : founder.address ∈ L)
    (h : Reach (sessionStep resolve) (fun g action => Admissible resolve g action ∧ ClaimedBy L action)
      (Founded founder) g) :
    (∀ a s, g.procs a = some (.chatting s) → (s.isLeader = true → a ∈ L) ∧
      ∃ m ∈ g.roll, m.address ∈ L ∧ ∀ env locals, env.getAddressFor = resolve →
        getLeaderAddr env locals s = .ok m.address) ∧
    ∀ x ∈ g.flight, commandOf x.body = messageLeaderId →
      ∃ m ∈ g.roll, m.address ∈ L ∧ ∀ env, env.getAddressFor = resolve → ∀ j : Joining,
        joinReceive env j x.body = (sendAddMe env { j with
          addr := inetNtoa m.address, port := portText m.address, leaderHint := m.address
          failedJoinAttempts := j.failedJoinAttempts + 1 }).map Process.joining := by
  have hroll : Enrolled resolve g.roll :=
    enrolled_of_reach hfounder (h.mono fun _ _ _ hok hs => ⟨hok.1, hs⟩)
  have hall := directed_of_reach hfounder hL h
  refine ⟨fun a s hs => ?_, fun x hx hword => ?_⟩
  · have hpointing : Pointing L g.roll a s := hall.procs a _ hs
    obtain ⟨q, hq, m, hm, hclaimed, hfields⟩ := hpointing.pointer
    refine ⟨hpointing.leads, m, hm, hclaimed, fun env locals henv => ?_⟩
    rw [getLeaderAddr, hq]
    simp only [henv, (hroll.listable m hm).getAddressFor hfields, Option.getD_some]
  · obtain ⟨m, hm, hclaimed, hbody⟩ := (hall.flight x hx).referral hword
    refine ⟨m, hm, hclaimed, fun env henv j => ?_⟩
    rw [hbody, joinReceive_leaderIdText j (henv ▸ (hroll.listable m hm).resolved)]

end Runs

/-- `a` crashes, `b` starts an election and `c` wins it, and `d` asks `b`. -/
def handover : List Action :=
  gathering ++ [.crash (localHost 80),
    .round (localHost 81) .heartbeat (deafWeather (localHost 80)) .blank,
    .round (localHost 82) (.receive 0) (deafWeather (localHost 80)) .blank,
    .round (localHost 82) .victory (deafWeather (localHost 80)) .blank,
    .round (localHost 81) (.receive 2) fairWeather .blank,
    .join (localHost 83) (str "d") (str "127.0.0.1:81") fairWeather,
    .round (localHost 81) (.receive 4) fairWeather .blank]

/-- `d` is told to ask `c`. -/
theorem referral_of_reach_handover : ∃ g : Session,
    (⟨localHost 81, localHost 83, leaderIdText (localHost 82)⟩ : Packet RmpAddress Bytes) ∈ g.flight ∧
    (∀ a s, g.procs a = some (.chatting s) →
      (s.isLeader = true → a ∈ {a : RmpAddress | a ∈ [localHost 80, localHost 82]}) ∧
      ∃ m ∈ g.roll, m.address ∈ {a : RmpAddress | a ∈ [localHost 80, localHost 82]} ∧
        ∀ env locals, env.getAddressFor = loopbackAddress →
          getLeaderAddr env locals s = .ok m.address) ∧
    ∀ x ∈ g.flight, commandOf x.body = messageLeaderId →
      ∃ m ∈ g.roll, m.address ∈ {a : RmpAddress | a ∈ [localHost 80, localHost 82]} ∧
        ∀ env, env.getAddressFor = loopbackAddress → ∀ j : Joining,
          joinReceive env j x.body = (sendAddMe env { j with
            addr := inetNtoa m.address, port := portText m.address, leaderHint := m.address
            failedJoinAttempts := j.failedJoinAttempts + 1 }).map Process.joining := by
  let _ : DecidablePred (· ∈ {a : RmpAddress | a ∈ [localHost 80, localHost 82]}) :=
    fun a => inferInstanceAs (Decidable (a ∈ [localHost 80, localHost 82]))
  have hrun : ((founding host).bind fun g => exec (sessionStep loopbackAddress)
      (fun g action => Admissible loopbackAddress g action ∧
        ClaimedBy {a : RmpAddress | a ∈ [localHost 80, localHost 82]} action) g handover).map
      (fun g => g.flight.contains ⟨localHost 81, localHost 83, leaderIdText (localHost 82)⟩) =
      some true := by decide
  obtain ⟨g, hreach, hflight⟩ := exists_session_of_exec hrun
  exact ⟨g, List.contains_iff_mem.1 hflight,
    referral_of_reach listable_host (List.mem_cons_self ..) hreach⟩

end Dchat.Chat
