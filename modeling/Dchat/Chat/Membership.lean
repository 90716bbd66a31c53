import Dchat.Chat.Bookkeeping
import Dchat.Chat.Upkeep

/-!
# The members of a session

In every session whose joining nicknames are `Proper`, the counter of every node is the length of
its list, and the nicknames of the list are distinct (`membership`).

A nickname is compared with the list once, when the leader lets it in. `Consistent` is what keeps it
distinct from then on: the entries of every list are entries of the `roll`, a leader has exactly one
entry for the leader, its `leader`, and any other node has an entry for itself, so that it will be
the leader of its list when it declares victory. `Census` is the same for the PARTICIPANT_UPDATEs
under way: they name distinct members, and their receiver among them.

`main` does not keep the founder of a chat from a nickname that no PARTICIPANT_UPDATE can carry.
Then a list that is taken over has at most one entry (`Detached`).
-/

namespace Dchat.Chat

open CString Stdio RMP Links Runs

/-- A member whose entry a PARTICIPANT_UPDATE can carry, with an address that `RMP_getAddressFor`
reads back from its texts. -/
structure Member.Listable (resolve : Bytes → Bytes → Option RmpAddress) (m : Member) : Prop where
  admitted : Admitted m.nickname
  ne_nil : m.nickname ≠ []
  no_equals : 61 ∉ m.nickname
  resolved : resolve (inetNtoa m.address) (portText m.address) = some m.address

/-- Everybody who was ever started: different addresses, and entries that are read back. -/
structure Enrolled (resolve : Bytes → Bytes → Option RmpAddress) (roll : List Member) : Prop where
  addresses_nodup : (roll.map Member.address).Nodup
  listable : ∀ m ∈ roll, m.Listable resolve

/-- The counter is the length of the list, and structs and nicknames are distinct. -/
structure Tally (s : Node) : Prop where
  sound : Sound s
  counted : s.numParticipants = s.participants.length
  distinct : (s.participants.map fun p => p.nickname).Nodup

/-- The list of the node at `a`. -/
structure Consistent (roll : List Member) (a : RmpAddress) (s : Node) : Prop extends Tally s where
  enrolled : ∀ p ∈ s.participants, ∃ m ∈ roll, p.fields = m.fields
  self : ⟨a, s.thisNickname⟩ ∈ roll
  leads : s.isLeader = true → Led s
  listed : s.isLeader = false → ∃ p ∈ s.participants, p.nickname = s.thisNickname

/-- A PARTICIPANT_UPDATE of distinct members, its receiver among them. -/
def Census (resolve : Bytes → Bytes → Option RmpAddress) (roll : List Member) (dst : RmpAddress)
    (body : Bytes) : Prop :=
  ∃ leader ps notice, body = updateText leader ps notice ∧
    (leader.nickname :: (others ps).map fun p => p.nickname).Nodup ∧
    (∃ m ∈ roll, leader.fields = m.fields) ∧ (∀ p ∈ others ps, ∃ m ∈ roll, p.fields = m.fields) ∧
    ∃ p ∈ others ps, resolve p.ipAddress p.portNum = some dst

/-! ## Entries of members -/

section Entries

variable {resolve : Bytes → Bytes → Option RmpAddress} {roll : List Member} {m : Member} {p : Peer}

theorem fields_eq (h : p.fields = m.fields) : p.nickname = m.nickname ∧
    p.ipAddress = inetNtoa m.address ∧ p.portNum = portText m.address := by
  simpa [Peer.fields, Member.fields] using h

theorem Member.Listable.plain (hm : m.Listable resolve) (h : p.fields = m.fields) : p.Plain := by
  obtain ⟨hnick, hip, hport⟩ := fields_eq h
  refine ⟨⟨hnick ▸ hm.ne_nil, hnick ▸ hm.admitted.length_le, hnick ▸ hm.admitted.bytes, ?_, ?_⟩,
    hnick ▸ hm.no_equals⟩
  · exact hip ▸ isIpAddress_inetNtoa m.address
  · exact hport ▸ isPortNum_portText m.address

theorem Member.Listable.getAddressFor (hm : m.Listable resolve) (h : p.fields = m.fields) :
    resolve p.ipAddress p.portNum = some m.address := by
  obtain ⟨-, hip, hport⟩ := fields_eq h
  rw [hip, hport]
  exact hm.resolved

/-- The entry that leads to an address is that of the member there. -/
theorem Enrolled.nickname_eq (hg : Enrolled resolve roll) {a : RmpAddress} {nickname : Bytes}
    (ha : ⟨a, nickname⟩ ∈ roll) (hp : ∃ m ∈ roll, p.fields = m.fields)
    (haddr : resolve p.ipAddress p.portNum = some a) : p.nickname = nickname := by
  obtain ⟨m, hm, hfields⟩ := hp
  have hma : m.address = a :=
    Option.some.inj (((hg.listable m hm).getAddressFor hfields).symm.trans haddr)
  have hmem : m = ⟨a, nickname⟩ := List.inj_on_of_nodup_map hg.addresses_nodup hm ha hma
  rw [(fields_eq hfields).1, hmem]

end Entries

/-! ## A node as it reads and writes its list -/

section Counting

variable {env : Env} {s s' : Node} {message : Bytes}

theorem Tally.congr (h : Tally s) (hps : s'.participants = s.participants)
    (hnum : s'.numParticipants = s.numParticipants) (hptr : s'.nextPtr = s.nextPtr) : Tally s' :=
  ⟨h.sound.congr hps hptr, by rw [hnum, hps, h.counted], hps ▸ h.distinct⟩

/-- A broadcast takes participants out, and counts them. -/
theorem Tally.broadcast (h : Tally s) (hs : leaderBroadcastMessage env s message = .ok s') :
    Tally s' := by
  obtain ⟨t, ht⟩ := broadcast_of_ok hs
  have hcount := ht.count h.sound.linked
  have hcounted := h.counted
  exact ⟨h.sound.broadcast hs, by omega, (ht.sublist.map _).nodup h.distinct⟩

/-- A participant is put in with a nickname that the list does not have. -/
theorem Tally.insert {nickname ipAddress portNum : Bytes} (h : Tally s) (h0 : 0 ∉ nickname)
    (hnew : s.containsParticipant nickname = false)
    (hs : s.insertParticipant nickname ipAddress portNum false = .ok s') : Tally s' := by
  obtain ⟨q, hq, hfields, -⟩ := inserted_of_insertParticipant hs none
  have hps : s'.participants = s.participants ++ [q] := hq.participants
  have hnum : s'.numParticipants = s.numParticipants + 1 := hq.numParticipants
  have hnick : q.nickname = nickname := (Prod.mk.inj hfields).1
  refine ⟨h.sound.insertParticipant hs, ?_, ?_⟩
  · rw [hnum, hps, h.counted, List.length_append, List.length_singleton]
    omega
  · rw [hps, List.map_append, List.nodup_append]
    refine ⟨h.distinct, List.nodup_singleton _, ?_⟩
    rintro _ hold _ hlast rfl
    obtain ⟨p, hp, hpn⟩ := List.mem_map.1 hold
    have heq : p.nickname = nickname := hpn.trans ((List.mem_singleton.1 hlast).trans hnick)
    rw [Node.containsParticipant, List.any_eq_false] at hnew
    refine hnew p hp (decide_eq_true ?_)
    rw [heq]
    exact (strcmp_eq_zero h0 h0).2 rfl

/-- New flags change nothing. -/
theorem Tally.flags (h : Tally s) (test : Participant → Bool)
    (hps : s'.participants = (s.setLeaderBy test).participants)
    (hnum : s'.numParticipants = s.numParticipants) (hptr : s'.nextPtr = s.nextPtr) : Tally s' := by
  have hmap : s'.participants = s.participants.map fun p => { p with isLeader := test p } := hps
  refine ⟨(h.sound.setLeaderBy test).congr hps hptr, ?_, ?_⟩
  · rw [hnum, hmap, List.length_map]
    exact h.counted
  · rw [hmap, List.map_map]
    exact h.distinct

end Counting

section Lists

variable {resolve : Bytes → Bytes → Option RmpAddress} {roll : List Member} {a : RmpAddress}
  {env : Env} {locals : Locals} {s s' : Node} {message : Bytes}

/-- A node with the same list, leader and role. -/
theorem Consistent.congr (h : Consistent roll a s)
    (hps : s'.participants = s.participants) (hleader : s'.leader = s.leader)
    (hnum : s'.numParticipants = s.numParticipants) (hptr : s'.nextPtr = s.nextPtr)
    (hnick : s'.thisNickname = s.thisNickname) (hrole : s'.isLeader = s.isLeader) :
    Consistent roll a s' where
  toTally := h.toTally.congr hps hnum hptr
  enrolled := hps ▸ h.enrolled
  self := hnick ▸ h.self
  leads hl := (h.leads (hrole ▸ hl)).congr hps hleader
  listed hl := by
    rw [hps, hnick]
    exact h.listed (hrole ▸ hl)

/-- **A list that is taken over.** -/
theorem Census.consistent (hg : Enrolled resolve roll) (h : Census resolve roll a message)
    (hself : ⟨a, s.thisNickname⟩ ∈ roll) (hl : s.isLeader = false) {joining : Bool}
    (hs : processParticipantUpdate s message joining = .ok s') : Consistent roll a s' := by
  obtain ⟨leader, ps, notice, rfl, hnd, ⟨m, hm, hleader⟩, hothers, p, hp, haddr⟩ := h
  have hplain : ∀ q ∈ others ps, q.Plain := by
    intro q hq
    obtain ⟨m, hm, hfields⟩ := hothers q hq
    exact (hg.listable m hm).plain hfields
  obtain ⟨s₁, q, qs, hs₁, hd⟩ :=
    decoded_updateText ((hg.listable m hm).plain hleader) hplain notice s joining
  obtain rfl := Except.ok.inj (hs₁.symm.trans hs)
  have hnicks : (q :: qs).map (fun p => p.nickname) =
      leader.nickname :: (others ps).map fun p => p.nickname := by
    have hfst := congrArg (List.map Prod.fst) hd.others
    rw [List.map_map, List.map_map] at hfst
    rw [List.map_cons, (Prod.mk.inj hd.first).1]
    exact congrArg _ hfst
  have hrole : s₁.isLeader = false := hd.role.isLeader.trans hl
  refine ⟨⟨Sound.processParticipantUpdate hs₁, ?_, ?_⟩, ?_, ?_, ?_, ?_⟩
  · have hlen := congrArg List.length hd.others
    rw [List.length_map, List.length_map] at hlen
    rw [hd.count, hd.participants, List.length_cons, hlen]
    omega
  · rw [hd.participants, hnicks]
    exact hnd
  · rw [hd.participants]
    intro p' hp'
    obtain rfl | hp' := List.mem_cons.1 hp'
    · exact ⟨m, hm, hd.first.trans hleader⟩
    · have hmem : p'.fields ∈ (others ps).map fun p => p.fields := by
        rw [← hd.others]
        exact List.mem_map_of_mem hp'
      obtain ⟨p₀, hp₀, heq⟩ := List.mem_map.1 hmem
      obtain ⟨m', hm', hfields⟩ := hothers p₀ hp₀
      exact ⟨m', hm', heq.symm.trans hfields⟩
  · rw [hd.role.thisNickname]
    exact hself
  · intro hl'
    rw [hrole] at hl'
    cases hl'
  · intro _
    have hown := hg.nickname_eq hself (hothers p hp) haddr
    have hmem : p.nickname ∈ (q :: qs).map fun p => p.nickname := by
      rw [hnicks]
      exact List.mem_cons_of_mem _ (List.mem_map_of_mem hp)
    obtain ⟨p', hp', heq⟩ := List.mem_map.1 hmem
    refine ⟨p', hd.participants ▸ hp', ?_⟩
    rw [heq, hown, hd.role.thisNickname]

/-- **A broadcast** takes participants out. -/
theorem Consistent.broadcast (h : Consistent roll a s) (hl : s.isLeader = true)
    (hs : leaderBroadcastMessage env s message = .ok s') : Consistent roll a s' := by
  obtain ⟨t, ht⟩ := broadcast_of_ok hs
  refine ⟨h.toTally.broadcast hs, fun p hp => h.enrolled p (ht.sublist.subset hp),
    ht.same.thisNickname ▸ h.self, fun _ => (h.leads hl).broadcast h.sound.linked hs, fun hl' => ?_⟩
  rw [ht.same.isLeader, hl] at hl'
  cases hl'

/-- **The leader lets in** a nickname that it does not have. -/
theorem Consistent.insert {address : RmpAddress} {nickname : Bytes}
    (h : Consistent roll a s) (hl : s.isLeader = true) (hmem : ⟨address, nickname⟩ ∈ roll)
    (h0 : 0 ∉ nickname) (hnew : s.containsParticipant nickname = false)
    (hs : s.insertParticipant nickname (inetNtoa address) (portText address) false = .ok s') :
    Consistent roll a s' := by
  obtain ⟨q, hq, hfields, -⟩ := inserted_of_insertParticipant hs none
  have hps : s'.participants = s.participants ++ [q] := hq.participants
  have hrole : SameRole s s' := hq.role
  refine ⟨h.toTally.insert h0 hnew hs, ?_, hrole.thisNickname ▸ h.self, fun _ => ?_, fun hl' => ?_⟩
  · rw [hps]
    intro p hp
    obtain hp | hp := List.mem_append.1 hp
    · exact h.enrolled p hp
    · obtain rfl := List.mem_singleton.1 hp
      exact ⟨_, hmem, hfields⟩
  · obtain ⟨leader, hled⟩ := h.leads hl
    exact ⟨leader, hled.insertParticipant hs⟩
  · rw [hrole.isLeader, hl] at hl'
    cases hl'

/-- New flags for the participants. -/
theorem Consistent.flags (h : Consistent roll a s) (test : Participant → Bool)
    (hps : s'.participants = (s.setLeaderBy test).participants)
    (hnum : s'.numParticipants = s.numParticipants) (hptr : s'.nextPtr = s.nextPtr)
    (hnick : s'.thisNickname = s.thisNickname) (hleads : s'.isLeader = true → Led s')
    (hrole : s'.isLeader = false → s.isLeader = false) : Consistent roll a s' := by
  have hmap : s'.participants = s.participants.map fun p => { p with isLeader := test p } := hps
  refine ⟨h.toTally.flags test hps hnum hptr, ?_, hnick ▸ h.self, hleads, fun hl => ?_⟩
  · rw [hmap]
    intro p hp
    obtain ⟨p₀, hp₀, rfl⟩ := List.mem_map.1 hp
    exact h.enrolled p₀ hp₀
  · obtain ⟨p, hp, hown⟩ := h.listed (hrole hl)
    exact ⟨{ p with isLeader := test p }, hmap ▸ List.mem_map.2 ⟨p, hp, rfl⟩, hnick ▸ hown⟩

/-- **A node that declares victory** is the leader of its list. -/
theorem Consistent.victorious (hg : Enrolled resolve roll) (h : Consistent roll a s)
    (hl : s.isLeader = false) : Consistent roll a s.victorious := by
  let test : Participant → Bool := fun p => strcmp s.thisNickname p.nickname = 0
  have hown : (s.participants.filter test).length = 1 := by
    obtain ⟨p, hp, hnick⟩ := h.listed hl
    have htest : ∀ q ∈ s.participants, test q = true ↔ (q.nickname == s.thisNickname) = true := by
      intro q hq
      obtain ⟨m, hm, hfields⟩ := h.enrolled q hq
      have h0 : 0 ∉ q.nickname := (fields_eq hfields).1 ▸ (hg.listable m hm).admitted.no_nul
      have h0' : 0 ∉ s.thisNickname := (hg.listable _ h.self).admitted.no_nul
      rw [decide_eq_true_iff, strcmp_eq_zero h0' h0, beq_iff_eq]
      exact eq_comm
    have hmem : s.thisNickname ∈ s.participants.map fun p => p.nickname :=
      hnick ▸ List.mem_map_of_mem hp
    calc (s.participants.filter test).length
        = s.participants.countP test := List.countP_eq_length_filter.symm
      _ = s.participants.countP fun q => q.nickname == s.thisNickname := List.countP_congr htest
      _ = (s.participants.map fun p => p.nickname).count s.thisNickname := by
        rw [List.count, List.countP_map]
        rfl
      _ = 1 := List.count_eq_one_of_mem h.distinct hmem
  refine h.flags test rfl rfl rfl rfl (fun _ => ?_) (fun hl' => by cases hl')
  exact ((led_setLeaderBy_iff s test).2 hown).congr rfl rfl

/-- **What a leader announces.** -/
theorem Consistent.census {p : Participant} {dst : RmpAddress}
    (h : Consistent roll a s) (hl : s.isLeader = true) (hnotice : Notice s message p)
    (haddr : resolve p.ipAddress p.portNum = some dst) : Census resolve roll dst message := by
  obtain ⟨leader, ps, notice, hleader, rfl, hsub, hp⟩ := hnotice
  obtain ⟨l, hled⟩ := h.leads hl
  obtain rfl : l.toPeer = leader := Option.some.inj (hled.pointer.symm.trans hleader)
  have hflag : l.isLeader = true := by
    have hmem : l ∈ s.participants.filter Participant.isLeader := by simp [hled.flagged]
    exact (List.mem_filter.1 hmem).2
  have hothers : (others ps).Sublist s.participants := (others_sublist ps).trans hsub
  refine ⟨l.toPeer, ps, notice, rfl, List.nodup_cons.2 ⟨?_, ?_⟩, ?_, ?_, p, hp, haddr⟩
  · intro hmem
    obtain ⟨q, hq, heq⟩ := List.mem_map.1 hmem
    obtain rfl := List.inj_on_of_nodup_map h.distinct (hothers.subset hq) hled.mem heq
    rw [(mem_others.1 hq).2] at hflag
    cases hflag
  · exact (hothers.map _).nodup h.distinct
  · exact h.enrolled l hled.mem
  · exact fun q hq => h.enrolled q (hothers.subset hq)

end Lists

/-- The properties of lists are kept. -/
theorem kept_consistent {resolve : Bytes → Bytes → Option RmpAddress} {roll : List Member}
    (hroll : Enrolled resolve roll) : Kept resolve roll (Consistent roll) (Census resolve roll) where
  congr := Consistent.congr
  enrolled h := h.self
  broadcast h hl hs := h.broadcast hl hs
  insert h hl hmem hproper hnew hs := h.insert hl hmem hproper.admitted.no_nul hnew hs
  victorious h hl := h.victorious hroll hl
  followed h hl := h.flags _ rfl rfl rfl rfl (fun hl' => by cases hl') fun _ => hl
  update h hself hl hs := h.consistent hroll hself hl hs
  announce h hl hnotice haddr := h.census hl hnotice haddr

/-! ## A founder that no update can carry -/

/-- A nickname of which a PARTICIPANT_UPDATE loses the list that follows it. -/
def Uncarried (nickname : Bytes) : Prop := nickname = [] ∨ 61 ∈ nickname

/-- At most the entry of the leader is read. -/
structure Curtailed (leader : Peer) (s : Node) : Prop where
  counted : s.numParticipants = s.participants.length
  short : s.participants.length ≤ 1
  fields : ∀ p ∈ s.participants, p.fields = leader.fields
  pointer : ∀ q, s.leader = some q → q.fields = leader.fields

theorem Curtailed.congr {leader : Peer} {s s' : Node} (h : Curtailed leader s)
    (hps : s'.participants = s.participants) (hnum : s'.numParticipants = s.numParticipants)
    (hleader : s'.leader = s.leader) : Curtailed leader s' :=
  ⟨by rw [hnum, hps, h.counted], hps ▸ h.short, hps ▸ h.fields, hleader ▸ h.pointer⟩

theorem curtailed_emptyList (leader : Peer) (s : Node) : Curtailed leader s.emptyList :=
  ⟨rfl, Nat.zero_le _, fun _ hp => absurd hp (List.not_mem_nil), fun _ hq => nomatch hq⟩

/-- The loop ends at the `=` in the nickname of the leader, if it comes that far. -/
theorem Curtailed.scan {leader : Peer} (hadm : Admitted leader.nickname)
    (h : Uncarried leader.nickname) (hip : IsIpAddress leader.ipAddress)
    (hport : IsPortNum leader.portNum) {joining : Bool} {fuel : ℕ} {s s' : Node} {tail rest : Bytes}
    (hs : scanParticipants joining fuel s.emptyList (entryText leader ++ tail) true = .ok (s', rest)) :
    Curtailed leader s' := by
  obtain _ | fuel := fuel
  · cases hs
  obtain ⟨rfl, -, -⟩ | ⟨r, s₂, q, hend, hr, h3, hq, hfields, hflag, hrec⟩ := scanParticipants_eq_ok hs
  · exact curtailed_emptyList leader s
  obtain hnil | hmem := h
  · -- an empty nickname is not read
    have hword : ∀ t, List.takeWhile isNicknameByte (58 :: t) = [] := fun t =>
      takeWhile_of_stops ((stops_cons ..).2 (by decide))
    rw [entryText_append, hnil, List.nil_append, participantFormat, sscanf_cons_set,
      if_neg (by simp), if_pos (hword _)] at hr
    obtain rfl := Except.ok.inj hr
    exact absurd h3 (by decide)
  · have hscannable : leader.Scannable :=
      ⟨List.ne_nil_of_mem hmem, hadm.length_le, hadm.bytes, hip, hport⟩
    rw [sscanf_entryText hscannable] at hr
    obtain rfl := Except.ok.inj hr
    have hfields : q.fields = leader.fields := hfields
    have hinserted : Curtailed leader s₂ := by
      have hps : s₂.participants = [q] := hq.participants
      have hleader : s₂.leader = some q.toPeer := by rw [hq.leader, hflag]; rfl
      refine ⟨by rw [hq.numParticipants, hps]; rfl, by rw [hps]; exact Nat.le_refl 1, ?_, ?_⟩
      · rw [hps]
        intro p hp
        exact List.mem_singleton.1 hp ▸ hfields
      · intro p hp
        rw [hleader] at hp
        exact Option.some.inj hp ▸ hfields
    -- the cursor moves to the `=` in the nickname
    obtain ⟨before, after, hsplit, hbefore⟩ := List.eq_append_cons_of_mem hmem
    have hstrcspn : strcspn (entryText leader ++ tail) (str " =") = before.length := by
      rw [entryText_append, hsplit, List.append_assoc]
      refine strcspn_append (fun c hc hreject => ?_) ((stops_cons ..).2 (by decide))
      have hcases : c = 32 ∨ c = 61 := by simpa [str] using hreject
      obtain rfl | rfl := hcases
      · have hbyte := hadm.bytes 32 (hsplit ▸ List.mem_append_left _ hc)
        exact absurd hbyte (by decide)
      · exact hbefore hc
    have hdrop : ∃ t, skipSpaces ((entryText leader ++ tail).drop before.length) = 61 :: t := by
      rw [entryText_append, hsplit, List.append_assoc, List.drop_left]
      exact ⟨_, skipSpaces_of_stops ((stops_cons ..).2 (by decide))⟩
    obtain ⟨t, ht⟩ := hdrop
    rw [hstrcspn, ht] at hrec
    obtain _ | fuel := fuel
    · cases hrec
    rw [scanParticipants, if_pos (.inr rfl)] at hrec
    obtain ⟨rfl, -⟩ := Prod.mk.inj (Except.ok.inj hrec)
    exact hinserted

/-- **An update with such an entry at its front** leaves at most this entry. -/
theorem Curtailed.update {leader : Peer} (hadm : Admitted leader.nickname)
    (h : Uncarried leader.nickname) (hip : IsIpAddress leader.ipAddress)
    (hport : IsPortNum leader.portNum) {ps : List Participant} {notice : Bytes} {joining : Bool}
    {s s' : Node} (hs : processParticipantUpdate s (updateText leader ps notice) joining = .ok s') :
    Curtailed leader s' := by
  obtain ⟨found, s₁, rest, hfound, hscan, -, rfl⟩ := processParticipantUpdate_eq_ok hs
  rw [strchr_updateText] at hfound
  obtain rfl := Option.some.inj hfound
  have hskip : ∀ tail, skipSpaces (entryText leader ++ tail) = entryText leader ++ tail := by
    intro tail
    refine skipSpaces_of_stops ?_
    rw [entryText_append]
    cases hnick : leader.nickname with
    | nil => exact (stops_cons ..).2 (by decide)
    | cons c t =>
      refine (stops_cons ..).2 (decide_eq_false ?_)
      rintro rfl
      exact absurd (hadm.bytes 32 (by simp [hnick])) (by decide)
  rw [List.tail_cons, List.append_assoc, hskip] at hscan
  exact (Curtailed.scan hadm h hip hport hscan).congr rfl rfl rfl

/-- The list of the node at `a`, if the founder is not carried: what it has taken over is at most
the entry of the founder. -/
structure Detached (founder : Member) (roll : List Member) (a : RmpAddress) (s : Node) : Prop
    extends Tally s where
  self : ⟨a, s.thisNickname⟩ ∈ roll
  pointer : ∀ q, s.leader = some q → q.fields = founder.fields
  short : s.isLeader = false →
    s.participants.length ≤ 1 ∧ ∀ p ∈ s.participants, p.fields = founder.fields

/-- A PARTICIPANT_UPDATE in the name of the founder. -/
def Headed (founder : Member) (body : Bytes) : Prop :=
  ∃ leader ps notice, body = updateText leader ps notice ∧ leader.fields = founder.fields

section Detached

variable {founder : Member} {roll : List Member} {a : RmpAddress} {env : Env} {s s' : Node}
  {message : Bytes}

theorem Detached.congr (h : Detached founder roll a s) (hps : s'.participants = s.participants)
    (hleader : s'.leader = s.leader) (hnum : s'.numParticipants = s.numParticipants)
    (hptr : s'.nextPtr = s.nextPtr) (hnick : s'.thisNickname = s.thisNickname)
    (hrole : s'.isLeader = s.isLeader) : Detached founder roll a s' where
  toTally := h.toTally.congr hps hnum hptr
  self := hnick ▸ h.self
  pointer := hleader ▸ h.pointer
  short hl := hps ▸ h.short (hrole ▸ hl)

/-- A node that stays or becomes the leader. -/
theorem Detached.leading (h : Detached founder roll a s) (htally : Tally s')
    (hnick : s'.thisNickname = s.thisNickname) (hleader : s'.leader = s.leader)
    (hl : s'.isLeader = true) : Detached founder roll a s' := by
  refine ⟨htally, hnick ▸ h.self, hleader ▸ h.pointer, fun hl' => ?_⟩
  rw [hl] at hl'
  cases hl'

/-- New flags for the participants of a non-leader. -/
theorem Detached.flags (h : Detached founder roll a s) (hl : s.isLeader = false)
    (test : Participant → Bool) (hps : s'.participants = (s.setLeaderBy test).participants)
    (hleader : s'.leader = (s.setLeaderBy test).leader)
    (hnum : s'.numParticipants = s.numParticipants) (hptr : s'.nextPtr = s.nextPtr)
    (hnick : s'.thisNickname = s.thisNickname) : Detached founder roll a s' := by
  have hmap : s'.participants = s.participants.map fun p => { p with isLeader := test p } := hps
  obtain ⟨hlen, hfields⟩ := h.short hl
  refine ⟨h.toTally.flags test hps hnum hptr, hnick ▸ h.self, fun q hq => ?_, fun _ => ⟨?_, ?_⟩⟩
  · rw [hleader, Node.setLeaderBy] at hq
    obtain hq | ⟨-, hq⟩ := Option.or_eq_some_iff.1 hq
    · obtain ⟨p, hp, rfl⟩ := Option.map_eq_some_iff.1 hq
      exact hfields p (List.mem_filter.1 (List.mem_of_getLast? hp)).1
    · exact h.pointer q hq
  · rwa [hmap, List.length_map]
  · rw [hmap]
    intro p hp
    obtain ⟨p₀, hp₀, rfl⟩ := List.mem_map.1 hp
    exact hfields p₀ hp₀

theorem Headed.detached (hadm : Admitted founder.nickname) (hcarried : Uncarried founder.nickname)
    (h : Headed founder message) (hself : ⟨a, s.thisNickname⟩ ∈ roll) {joining : Bool}
    (hs : processParticipantUpdate s message joining = .ok s') : Detached founder roll a s' := by
  obtain ⟨leader, ps, notice, rfl, hleader⟩ := h
  obtain ⟨hnick, hip, hport⟩ := fields_eq hleader
  have hcurtailed := Curtailed.update (hnick ▸ hadm) (hnick ▸ hcarried)
    (hip ▸ isIpAddress_inetNtoa _) (hport ▸ isPortNum_portText _) hs
  have hfields : ∀ p ∈ s'.participants, p.fields = founder.fields :=
    fun p hp => (hcurtailed.fields p hp).trans hleader
  refine ⟨⟨Sound.processParticipantUpdate hs, hcurtailed.counted, ?_⟩, ?_,
    fun q hq => (hcurtailed.pointer q hq).trans hleader, fun _ => ⟨hcurtailed.short, hfields⟩⟩
  · have hlen := hcurtailed.short
    rcases hps : s'.participants with _ | ⟨p, _ | ⟨q, ps⟩⟩
    · exact List.nodup_nil
    · exact List.nodup_singleton _
    · rw [hps, List.length_cons, List.length_cons] at hlen
      omega
  · rw [(processParticipantUpdate_role hs).thisNickname]
    exact hself

/-- The properties of lists are kept. -/
theorem kept_detached {resolve : Bytes → Bytes → Option RmpAddress}
    (hadm : Admitted founder.nickname) (hcarried : Uncarried founder.nickname) :
    Kept resolve roll (Detached founder roll) (fun _ => Headed founder) where
  congr := Detached.congr
  enrolled h := h.self
  broadcast h hl hs :=
    have hsame := leaderBroadcastMessage_same hs
    h.leading (h.toTally.broadcast hs) hsame.thisNickname hsame.leader (hsame.isLeader.trans hl)
  insert h hl _ hproper hnew hs := by
    obtain ⟨q, hq, -, hflag⟩ := inserted_of_insertParticipant hs none
    have hrole := insertParticipant_role hs
    refine h.leading (h.toTally.insert hproper.admitted.no_nul hnew hs) hrole.thisNickname ?_
      (hrole.isLeader.trans hl)
    have hleader := hq.leader
    rw [hflag] at hleader
    exact hleader
  victorious h hl := h.flags hl _ rfl rfl rfl rfl rfl
  followed h hl := h.flags hl _ rfl rfl rfl rfl rfl
  update h hself _ hs := h.detached hadm hcarried hself hs
  announce h _ hnotice _ := by
    obtain ⟨leader, ps, notice, hleader, hmessage, -⟩ := hnotice
    exact ⟨leader, ps, notice, hmessage, h.pointer leader hleader⟩

end Detached

/-! ## Runs -/

section Runs

variable {resolve : Bytes → Bytes → Option RmpAddress} {founder : Member} {g : Session}

/-- Everybody who was ever started is enrolled. -/
theorem enrolled_of_reach (hfounder : founder.Listable resolve)
    (h : Reach (sessionStep resolve) (Admissible resolve) (Founded founder) g) :
    Enrolled resolve g.roll := by
  refine h.invariant (I := fun g => Enrolled resolve g.roll) ?_ ?_
  · rintro g ⟨s, -, rfl⟩
    exact ⟨List.nodup_singleton _, fun m hm => List.mem_singleton.1 hm ▸ hfounder⟩
  · intro g action g' hI hok hs
    cases action with
    | join address nickname addrPort weather =>
      obtain ⟨j, hnew, -, rfl⟩ := joined_of_join hs
      obtain ⟨hproper, hresolve⟩ := hok
      refine ⟨?_, fun m hm => ?_⟩
      · rw [List.map_append, List.nodup_append]
        refine ⟨hI.addresses_nodup, List.nodup_singleton _, fun b hb c hc heq => hnew ?_⟩
        have hc : c = address := List.mem_singleton.1 hc
        rw [← hc, ← heq]
        exact hb
      · obtain hm | hm := List.mem_append.1 hm
        · exact hI.listable m hm
        · obtain rfl := List.mem_singleton.1 hm
          exact ⟨hproper.admitted, hproper.ne_nil, hproper.no_equals, hresolve⟩
    | round address cue weather locals =>
      obtain ⟨p, p', event, rest, hm⟩ := moved_of_round hs
      exact hm.roll ▸ hI
    | crash address => exact Option.some.inj hs ▸ hI
    | lose k => exact Option.some.inj hs ▸ hI
    | copy k =>
      obtain ⟨x, -, rfl⟩ := Option.map_eq_some_iff.1 hs
      exact hI

/-- The list of the founder of a chat. -/
theorem tally_of_startChat {nickname ipAddress portNum : Bytes} {s : Node}
    (hs : startChat nickname ipAddress portNum = .ok s) : Tally s := by
  have hsound := (recorded_of_started (.founder hs)).1
  obtain ⟨q, lines, rfl, -⟩ := startChat_ok hs
  exact ⟨hsound, rfl, List.nodup_singleton _⟩

/-- The claims about the list hold of a process that is in order. -/
theorem InOrder.tally {N : RmpAddress → Node → Prop} {roll : List Member} {a : RmpAddress}
    {p : Process} (h : InOrder N roll a p) (hN : ∀ s, N a s → Tally s) :
    p.node.numParticipants = p.node.participants.length ∧
      (p.node.participants.map fun p => p.nickname).Nodup := by
  cases p with
  | joining j =>
    obtain ⟨⟨-, hps, hnum⟩, -⟩ := h
    rw [Process.node, hps, hnum]
    exact ⟨rfl, List.nodup_nil⟩
  | chatting s =>
    have htally := hN s h
    exact ⟨htally.counted, htally.distinct⟩

/-- **Every process of every session has counted its list, whose nicknames are distinct.** -/
theorem membership (hfounder : Admitted founder.nickname)
    (hresolve : resolve (inetNtoa founder.address) (portText founder.address) = some founder.address)
    (h : Reach (sessionStep resolve) (Admissible resolve) (Founded founder) g) (a : RmpAddress)
    (p : Process) (hp : g.procs a = some p) :
    p.node.numParticipants = p.node.participants.length ∧
      (p.node.participants.map fun p => p.nickname).Nodup := by
  by_cases hcarried : Uncarried founder.nickname
  · have hinit : ∀ s, startChat founder.nickname (inetNtoa founder.address)
        (portText founder.address) = .ok s → Detached founder [founder] founder.address s := by
      intro s hs
      have htally := tally_of_startChat hs
      obtain ⟨q, lines, rfl, hfields⟩ := startChat_ok hs
      exact ⟨htally, List.mem_singleton.2 rfl, fun q' hq' => Option.some.inj hq' ▸ hfields,
        fun hl => by cases hl⟩
    have hgrow : ∀ roll m a, (∀ s, Detached founder roll a s → Detached founder (roll ++ [m]) a s) ∧
        ∀ body, Headed founder body → Headed founder body :=
      fun roll m a => ⟨fun s hs => ⟨hs.toTally, List.mem_append_left _ hs.self, hs.pointer, hs.short⟩,
        fun body hbody => hbody⟩
    have hall := inOrder_of_reach (N := Detached founder) (C := fun _ _ => Headed founder)
      (fun g _ => kept_detached hfounder hcarried) hinit hgrow h
    exact (hall.procs a p hp).tally fun _ hs => hs.toTally
  · obtain ⟨hne, hno⟩ := not_or.1 hcarried
    have hlistable : founder.Listable resolve := ⟨hfounder, hne, hno, hresolve⟩
    have hinit : ∀ s, startChat founder.nickname (inetNtoa founder.address)
        (portText founder.address) = .ok s → Consistent [founder] founder.address s := by
      intro s hs
      have htally := tally_of_startChat hs
      have hled := (recorded_of_started (.founder hs)).2
      obtain ⟨q, lines, rfl, hfields⟩ := startChat_ok hs
      refine ⟨htally, fun p hp => ?_, List.mem_singleton.2 rfl, fun _ => hled, fun hl => by cases hl⟩
      exact List.mem_singleton.1 hp ▸ ⟨founder, List.mem_singleton.2 rfl, hfields⟩
    have hgrow : ∀ roll m a, (∀ s, Consistent roll a s → Consistent (roll ++ [m]) a s) ∧
        ∀ body, Census resolve roll a body → Census resolve (roll ++ [m]) a body := by
      intro roll m a
      have hmono : ∀ p : Peer, (∃ m ∈ roll, p.fields = m.fields) →
          ∃ m' ∈ roll ++ [m], p.fields = m'.fields :=
        fun p ⟨m', hm', hfields⟩ => ⟨m', List.mem_append_left _ hm', hfields⟩
      refine ⟨fun s hs => ?_, ?_⟩
      · exact ⟨hs.toTally, fun p hp => hmono p.toPeer (hs.enrolled p hp),
          List.mem_append_left _ hs.self, hs.leads, hs.listed⟩
      · rintro body ⟨leader, ps, notice, hbody, hnd, hleader, hothers, hself⟩
        exact ⟨leader, ps, notice, hbody, hnd, hmono leader hleader,
          fun p hp => hmono p.toPeer (hothers p hp), hself⟩
    have hall := inOrder_of_reach
      (fun g hg => kept_consistent (enrolled_of_reach hlistable hg)) hinit hgrow h
    exact (hall.procs a p hp).tally fun _ hs => hs.toTally

end Runs

end Dchat.Chat
