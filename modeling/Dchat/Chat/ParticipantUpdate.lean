import Dchat.Chat.Model
import Mathlib.Data.List.TakeWhile

/-!
# The participant list on the wire

`generate_participant_update` of `leader.c`, which writes the list of the leader as a
PARTICIPANT_UPDATE, and `process_participant_update` of `nonleader.c`, which rebuilds a list from
one.

* `generateParticipantUpdate_eq`: the text written is `updateText`, if it fits the buffer, and
  otherwise the buffer overflows.
* `processParticipantUpdate_generateParticipantUpdate` is the round trip of a list of plain
  participants.
-/

namespace Dchat.Chat

open CString Stdio RMP

/-! ## Writing -/

/-- `"%s:%s:%s "`. -/
def entryText (p : Peer) : Bytes :=
  p.nickname ++ 58 :: (p.ipAddress ++ 58 :: (p.portNum ++ [32]))

/-- The participants that are not flagged as the leader. -/
def others (ps : List Participant) : List Participant := ps.filter fun p => !p.isLeader

/-- The text of a PARTICIPANT_UPDATE: the leader, the others, and the notice. -/
def updateText (leader : Peer) (ps : List Participant) (joinLeaveMessage : Bytes) : Bytes :=
  messageParticipantUpdate ++ str " @" ++ entryText leader ++
    ((others ps).map fun p => entryText p.toPeer).flatten ++ (str "= " ++ joinLeaveMessage)

/-- The loop over the participants. -/
def writeParticipants (buffLen : ℕ) : List Participant → Cursor → Except Fault Cursor
  | [], c => .ok c
  | p :: ps, c =>
    if p.isLeader then writeParticipants buffLen ps c
    else do
      let c ← c.snprintf buffLen buffLen (entryText p.toPeer)
      writeParticipants buffLen ps c

/-- `generate_participant_update`, into a buffer of `buffLen` bytes. -/
def generateParticipantUpdate (s : Node) (buffLen : ℕ) (joinLeaveMessage : Bytes) :
    Except Fault Bytes :=
  match s.leader with
  | none => .error .nullPointer
  | some leader => do
    let c ← Cursor.empty.snprintf buffLen buffLen
      (messageParticipantUpdate ++ str " @" ++ entryText leader)
    let c ← writeParticipants buffLen s.participants c
    let c ← c.snprintf buffLen buffLen (str "= " ++ joinLeaveMessage)
    .ok c.text

theorem others_cons (p : Participant) (ps : List Participant) :
    others (p :: ps) = if p.isLeader then others ps else p :: others ps := by
  unfold others
  rw [List.filter_cons]
  cases p.isLeader <;> rfl

theorem renders_writeParticipants {buffLen : ℕ} (hb : 0 < buffLen) (ps : List Participant)
    {r : Except Fault Cursor} {text : Bytes} (h : Cursor.Renders buffLen r text) :
    Cursor.Renders buffLen (r >>= writeParticipants buffLen ps)
      (text ++ ((others ps).map fun p => entryText p.toPeer).flatten) := by
  induction ps generalizing r text with
  | nil =>
    have : (r >>= writeParticipants buffLen []) = r := by cases r <;> rfl
    simpa [this, others] using h
  | cons p ps ih =>
    rw [others_cons]
    cases hp : p.isLeader with
    | true =>
      have : writeParticipants buffLen (p :: ps) = writeParticipants buffLen ps := by
        funext c
        rw [writeParticipants, if_pos hp]
      rw [this]
      exact ih h
    | false =>
      have : (r >>= writeParticipants buffLen (p :: ps)) =
          (r >>= fun c => c.snprintf buffLen buffLen (entryText p.toPeer)) >>=
            writeParticipants buffLen ps := by
        cases r with
        | error e => rfl
        | ok c => simp [writeParticipants, hp]
      rw [this]
      simpa using ih (h.snprintf hb (entryText p.toPeer))

/-- **The text written is `updateText`, or the buffer overflows.** -/
theorem generateParticipantUpdate_eq {s : Node} {leader : Peer} (h : s.leader = some leader)
    {buffLen : ℕ} (hb : 0 < buffLen) (joinLeaveMessage : Bytes) :
    generateParticipantUpdate s buffLen joinLeaveMessage =
      if (updateText leader s.participants joinLeaveMessage).length < buffLen then
        .ok (updateText leader s.participants joinLeaveMessage)
      else .error .bufferOverflow := by
  have h1 := (Cursor.renders_empty hb).snprintf hb
    (messageParticipantUpdate ++ str " @" ++ entryText leader)
  have h2 := renders_writeParticipants hb s.participants h1
  have hne : [] ++ (messageParticipantUpdate ++ str " @" ++ entryText leader) ++
      ((others s.participants).map fun p => entryText p.toPeer).flatten ≠ [] := by
    simp [messageParticipantUpdate, str]
  have h3 := h2.snprintf_last hb hne (str "= " ++ joinLeaveMessage)
  rw [Fault.ok_bind] at h3
  have hgen : generateParticipantUpdate s buffLen joinLeaveMessage =
      ((Cursor.empty.snprintf buffLen buffLen
          (messageParticipantUpdate ++ str " @" ++ entryText leader) >>=
        writeParticipants buffLen s.participants) >>= fun c =>
          c.snprintf buffLen buffLen (str "= " ++ joinLeaveMessage)) >>= fun c => .ok c.text := by
    simp only [generateParticipantUpdate, h, bind_assoc]
  rw [hgen, h3, List.nil_append, updateText]
  split <;> rfl

theorem eq_updateText {s : Node} {leader : Peer} (h : s.leader = some leader) {buffLen : ℕ}
    (hb : 0 < buffLen) {joinLeaveMessage update : Bytes}
    (hgen : generateParticipantUpdate s buffLen joinLeaveMessage = .ok update) :
    update = updateText leader s.participants joinLeaveMessage := by
  rw [generateParticipantUpdate_eq h hb] at hgen
  split at hgen
  · exact (Except.ok.inj hgen).symm
  · cases hgen

/-! ## Reading -/

/-- `[^@: ]`. -/
def isNicknameByte (c : UInt8) : Bool := !(str "@: ").contains c

/-- `"%[^@: ]:%[0-9.]:%[0-9]"`. -/
def participantFormat : List Directive :=
  [.set isNicknameByte (maxNicknameLen + 1), .lit 58, .set isAddressByte (maxIpAddressLen + 1),
    .lit 58, .set isDigit 6]

/-- The loop of `process_participant_update` over the entries, from `currPos` on: the state and
`currPos` at its end. An entry takes at least one byte, so that the loop ends within as many rounds
as there are bytes. -/
def scanParticipants (joining : Bool) :
    ℕ → Node → Bytes → Bool → Except Fault (Node × Bytes)
  | 0, _, _, _ => .error .diverges
  | fuel + 1, s, currPos, isFirst =>
    if currPos = [] ∨ currPos.head? = some 61 then .ok (s, currPos)
    else do
      let r ← sscanf participantFormat currPos
      if r.ret = eof then .error .exit
      else if r.ret < 3 then .error .exit
      else
        let s ← s.insertParticipant (r.text 0 []) (r.text 1 []) (r.text 2 []) isFirst
        let line := r.text 0 [] ++ str " " ++ r.text 1 [] ++ str ":" ++ r.text 2 [] ++
          if isFirst then str " (Leader)" else []
        let s := if joining then s.print line else s
        scanParticipants joining fuel s
          (skipSpaces (currPos.drop (strcspn currPos (str " =")))) false

/-- `process_participant_update`. -/
def processParticipantUpdate (s : Node) (command : Bytes) (joining : Bool) :
    Except Fault Node := do
  let s := s.emptyList
  match strchr command 64 with
  | none => .error .nullPointer
  | some found =>
    let currPos := skipSpaces found.tail
    let (s, currPos) ← scanParticipants joining (currPos.length + 1) s currPos true
    let s := if joining then s.print [] else s
    if currPos.head? = some 61 then
      .ok (if joining then s else s.print (skipSpaces currPos.tail))
    else .error .exit

/-! ## The loop reads one entry after the other -/

/-- What is transmitted of a participant. -/
def Peer.fields (p : Peer) : Bytes × Bytes × Bytes := (p.nickname, p.ipAddress, p.portNum)

/-- The fields of an entry fit their arrays and contain none of the bytes that end them. -/
@[mk_iff]
structure Peer.Scannable (p : Peer) : Prop where
  nickname_ne_nil : p.nickname ≠ []
  nickname_length : p.nickname.length ≤ maxNicknameLen
  nickname_bytes : ∀ c ∈ p.nickname, isNicknameByte c = true
  ip : IsIpAddress p.ipAddress
  port : IsPortNum p.portNum

/-- In addition, the nickname does not contain the byte that ends the list. -/
@[mk_iff]
structure Peer.Plain (p : Peer) : Prop extends p.Scannable where
  no_equals : 61 ∉ p.nickname

instance : DecidablePred Peer.Scannable := fun p =>
  decidable_of_iff (p.nickname ≠ [] ∧ p.nickname.length ≤ maxNicknameLen ∧
      p.nickname.all isNicknameByte = true ∧ IsIpAddress p.ipAddress ∧ IsPortNum p.portNum)
    (by rw [Peer.scannable_iff, List.all_eq_true])

instance : DecidablePred Peer.Plain := fun p =>
  decidable_of_iff (p.Scannable ∧ 61 ∉ p.nickname) (Peer.plain_iff p).symm

/-- The globals that the participant list does not concern. -/
structure SameRole (s s' : Node) : Prop where
  thisNickname : s'.thisNickname = s.thisNickname
  isLeader : s'.isLeader = s.isLeader
  clockNum : s'.clockNum = s.clockNum
  inElection : s'.inElection = s.inElection
  startedElection : s'.startedElection = s.startedElection
  sent : s'.sent = s.sent

theorem SameRole.refl (s : Node) : SameRole s s := ⟨rfl, rfl, rfl, rfl, rfl, rfl⟩

theorem SameRole.trans {s s' s'' : Node} (h : SameRole s s') (h' : SameRole s' s'') :
    SameRole s s'' where
  thisNickname := h'.thisNickname.trans h.thisNickname
  isLeader := h'.isLeader.trans h.isLeader
  clockNum := h'.clockNum.trans h.clockNum
  inElection := h'.inElection.trans h.inElection
  startedElection := h'.startedElection.trans h.startedElection
  sent := h'.sent.trans h.sent

/-- `s'` is `s` with the participant `q` at the end of its list. -/
structure Inserted (s s' : Node) (q : Participant) : Prop where
  participants : s'.participants = s.participants ++ [q]
  numParticipants : s'.numParticipants = s.numParticipants + 1
  leader : s'.leader = if q.isLeader then some q.toPeer else s.leader
  role : SameRole s s'

theorem inserted_of_insertParticipant {s s' : Node} {nickname ipAddress portNum : Bytes}
    {isLeader : Bool} (h : s.insertParticipant nickname ipAddress portNum isLeader = .ok s')
    (line : Option Bytes) :
    ∃ q, Inserted s (line.elim s' s'.print) q ∧ q.fields = (nickname, ipAddress, portNum) ∧
      q.isLeader = isLeader := by
  unfold Node.insertParticipant at h
  dsimp only at h
  split at h
  · cases h
  · obtain rfl := Except.ok.inj h
    refine ⟨⟨⟨s.nextPtr, nickname, ipAddress, portNum⟩, isLeader⟩, ?_, rfl, rfl⟩
    cases line <;> exact ⟨rfl, rfl, rfl, ⟨rfl, rfl, rfl, rfl, rfl, rfl⟩⟩

/-- **One round of the loop** that does not exit: it inserts the participant whose fields are
scanned at `currPos`. -/
theorem scanParticipants_succ (joining : Bool) (fuel : ℕ) {s : Node} {currPos : Bytes}
    {isFirst : Bool} (hend : ¬(currPos = [] ∨ currPos.head? = some 61)) {r : Scan}
    (hr : sscanf participantFormat currPos = .ok r) (h3 : 3 ≤ r.ret) {s₁ : Node}
    (h₁ : s.insertParticipant (r.text 0 []) (r.text 1 []) (r.text 2 []) isFirst = .ok s₁) :
    ∃ s₂ q, scanParticipants joining (fuel + 1) s currPos isFirst =
        scanParticipants joining fuel s₂
          (skipSpaces (currPos.drop (strcspn currPos (str " =")))) false ∧
      Inserted s s₂ q ∧ q.fields = (r.text 0 [], r.text 1 [], r.text 2 []) ∧
      q.isLeader = isFirst := by
  have heof : r.ret ≠ eof := by simp only [eof]; omega
  have hlt : ¬ r.ret < 3 := by omega
  rw [scanParticipants, if_neg hend, hr, Fault.ok_bind, if_neg heof, if_neg hlt, h₁, Fault.ok_bind]
  dsimp only
  cases joining with
  | true =>
    obtain ⟨q, hq⟩ := inserted_of_insertParticipant h₁ (some (r.text 0 [] ++ str " " ++
      r.text 1 [] ++ str ":" ++ r.text 2 [] ++ if isFirst then str " (Leader)" else []))
    exact ⟨_, q, rfl, hq⟩
  | false =>
    obtain ⟨q, hq⟩ := inserted_of_insertParticipant h₁ none
    exact ⟨_, q, rfl, hq⟩

/-- The rounds of the loop that do not exit, seen from their result. -/
theorem scanParticipants_eq_ok {joining : Bool} {fuel : ℕ} {s s' : Node} {currPos rest : Bytes}
    {isFirst : Bool} (h : scanParticipants joining (fuel + 1) s currPos isFirst = .ok (s', rest)) :
    s' = s ∧ rest = currPos ∧ (currPos = [] ∨ currPos.head? = some 61) ∨
    ∃ r s₂ q, ¬(currPos = [] ∨ currPos.head? = some 61) ∧
      sscanf participantFormat currPos = .ok r ∧ 3 ≤ r.ret ∧ Inserted s s₂ q ∧
      q.fields = (r.text 0 [], r.text 1 [], r.text 2 []) ∧ q.isLeader = isFirst ∧
      scanParticipants joining fuel s₂ (skipSpaces (currPos.drop (strcspn currPos (str " =")))) false
        = .ok (s', rest) := by
  by_cases hend : currPos = [] ∨ currPos.head? = some 61
  · rw [scanParticipants, if_pos hend] at h
    obtain ⟨rfl, rfl⟩ := Prod.mk.inj (Except.ok.inj h)
    exact .inl ⟨rfl, rfl, hend⟩
  · have h' := h
    rw [scanParticipants, if_neg hend] at h'
    obtain ⟨r, hr, h'⟩ := Fault.bind_eq_ok.1 h'
    split at h'
    · cases h'
    split at h'
    · cases h'
    next hlt =>
    obtain ⟨s₁, h₁, -⟩ := Fault.bind_eq_ok.1 h'
    obtain ⟨s₂, q, hstep, hq, hfields, hflag⟩ :=
      scanParticipants_succ joining fuel hend hr (Int.not_lt.1 hlt) h₁
    exact .inr ⟨r, s₂, q, hend, hr, Int.not_lt.1 hlt, hq, hfields, hflag, hstep ▸ h⟩

theorem skipSpaces_of_stops {s : Bytes} (h : Stops (· == 32) s) : skipSpaces s = s :=
  dropWhile_of_stops h

/-- An entry begins with a byte that `strcspn` steps over. -/
theorem strcspn_pos {currPos : Bytes} (hend : ¬(currPos = [] ∨ currPos.head? = some 61))
    (hword : currPos.takeWhile isNicknameByte ≠ []) : 0 < strcspn currPos (str " =") := by
  obtain ⟨hne, h61⟩ := not_or.1 hend
  cases currPos with
  | nil => exact absurd rfl hne
  | cons c t =>
    have hc : isNicknameByte c = true := by
      by_contra hc
      exact hword (List.takeWhile_cons_of_neg hc)
    have hreject : (str " =").contains c = false := by
      have h1 : c ≠ 32 := by
        rintro rfl
        exact absurd hc (by decide)
      have h2 : c ≠ 61 := fun h => h61 (by rw [List.head?_cons, h])
      simp [str, h1, h2]
    rw [strcspn, List.takeWhile_cons, if_pos (by rw [hreject]; rfl)]
    simp

/-- A round advances. -/
theorem length_advance_lt {currPos : Bytes} {r : Scan}
    (hend : ¬(currPos = [] ∨ currPos.head? = some 61))
    (hr : sscanf participantFormat currPos = .ok r) (h3 : 3 ≤ r.ret) :
    (skipSpaces (currPos.drop (strcspn currPos (str " =")))).length < currPos.length := by
  have hassigned : r.assigned ≠ [] := by
    intro hnil
    unfold Scan.ret at h3
    split at h3
    · omega
    · rw [hnil, List.length_nil] at h3
      omega
  have hpos := strcspn_pos hend (sscanf_set_eq_ok hr hassigned).1
  have hlt : 0 < currPos.length := List.length_pos_of_ne_nil (not_or.1 hend).1
  calc (skipSpaces (currPos.drop (strcspn currPos (str " =")))).length
      ≤ (currPos.drop (strcspn currPos (str " ="))).length := (List.dropWhile_suffix _).length_le
    _ < currPos.length := by
      rw [List.length_drop]
      omega

/-- **The loop ends**: with more rounds than bytes, their number does not matter. -/
theorem scanParticipants_fuel {joining : Bool} {fuel fuel' : ℕ} {s : Node} {currPos : Bytes}
    {isFirst : Bool} (h : currPos.length < fuel) (h' : currPos.length < fuel') :
    scanParticipants joining fuel s currPos isFirst =
      scanParticipants joining fuel' s currPos isFirst := by
  induction fuel generalizing fuel' s currPos isFirst with
  | zero => omega
  | succ fuel ih =>
    obtain _ | fuel' := fuel'
    · omega
    unfold scanParticipants
    by_cases hend : currPos = [] ∨ currPos.head? = some 61
    · rw [if_pos hend, if_pos hend]
    rw [if_neg hend, if_neg hend]
    cases hr : sscanf participantFormat currPos with
    | error e => rfl
    | ok r =>
      simp only [Fault.ok_bind]
      split
      · rfl
      split
      · rfl
      next hlt =>
      have hadv := length_advance_lt hend hr (Int.not_lt.1 hlt)
      cases s.insertParticipant (r.text 0 []) (r.text 1 []) (r.text 2 []) isFirst with
      | error e => rfl
      | ok s₁ =>
        simp only [Fault.ok_bind]
        exact ih (by omega) (by omega)

/-- Entries after the first leave the leader as it is. -/
theorem scanParticipants_frame {joining : Bool} {fuel : ℕ} {s s' : Node} {currPos rest : Bytes}
    {isFirst : Bool} (h : scanParticipants joining fuel s currPos isFirst = .ok (s', rest)) :
    SameRole s s' ∧ (isFirst = false → s'.leader = s.leader) := by
  induction fuel generalizing s currPos isFirst with
  | zero => cases h
  | succ fuel ih =>
    obtain ⟨rfl, -⟩ | ⟨r, s₂, q, -, -, -, hq, -, hflag, hrec⟩ := scanParticipants_eq_ok h
    · exact ⟨SameRole.refl s', fun _ => rfl⟩
    · obtain ⟨hrole, hleader⟩ := ih hrec
      refine ⟨hq.role.trans hrole, fun hfirst => ?_⟩
      rw [hleader rfl, hq.leader, hflag, hfirst]
      rfl

/-- The command is read from behind its first `@`; after the scan, lines are printed and nothing
else happens. -/
theorem processParticipantUpdate_of_strchr {command found : Bytes}
    (hfound : strchr command 64 = some found) (s : Node) (joining : Bool) :
    processParticipantUpdate s command joining =
      scanParticipants joining ((skipSpaces found.tail).length + 1) s.emptyList
        (skipSpaces found.tail) true >>= fun (s, currPos) =>
          if currPos.head? = some 61 then
            .ok (s.print (if joining then [] else skipSpaces currPos.tail))
          else .error .exit := by
  unfold processParticipantUpdate
  simp only [hfound]
  cases joining <;> rfl

/-- What a PARTICIPANT_UPDATE that is accepted has gone through. -/
theorem processParticipantUpdate_eq_ok {s s' : Node} {command : Bytes} {joining : Bool}
    (h : processParticipantUpdate s command joining = .ok s') :
    ∃ found s₁ currPos, strchr command 64 = some found ∧
      scanParticipants joining ((skipSpaces found.tail).length + 1) s.emptyList
        (skipSpaces found.tail) true = .ok (s₁, currPos) ∧
      currPos.head? = some 61 ∧
      s' = s₁.print (if joining then [] else skipSpaces currPos.tail) := by
  cases hfound : strchr command 64 with
  | none =>
    unfold processParticipantUpdate at h
    simp only [hfound] at h
    cases h
  | some found =>
    rw [processParticipantUpdate_of_strchr hfound] at h
    obtain ⟨⟨s₁, currPos⟩, hscan, h⟩ := Fault.bind_eq_ok.1 h
    dsimp only at h
    split at h
    · next hend => exact ⟨found, s₁, currPos, rfl, hscan, hend, (Except.ok.inj h).symm⟩
    · cases h

/-- A PARTICIPANT_UPDATE concerns the list only. -/
theorem processParticipantUpdate_role {s s' : Node} {command : Bytes} {joining : Bool}
    (h : processParticipantUpdate s command joining = .ok s') : SameRole s s' := by
  obtain ⟨found, s₁, currPos, -, hscan, -, rfl⟩ := processParticipantUpdate_eq_ok h
  have hempty : SameRole s s.emptyList := ⟨rfl, rfl, rfl, rfl, rfl, rfl⟩
  obtain ⟨h1, h2, h3, h4, h5, h6⟩ := hempty.trans (scanParticipants_frame hscan).1
  exact ⟨h1, h2, h3, h4, h5, h6⟩

/-! ## What a received list is made of -/

/-- A participant that `process_participant_update` can insert: the byte that ends the list is not
the first of its nickname. -/
@[mk_iff]
structure Peer.Received (p : Peer) : Prop extends p.Scannable where
  head_ne_equals : p.nickname.head? ≠ some 61

instance : DecidablePred Peer.Received := fun p =>
  decidable_of_iff (p.Scannable ∧ p.nickname.head? ≠ some 61) (Peer.received_iff p).symm

theorem three_le_ret {r : Scan} (h : 3 ≤ r.ret) : 3 ≤ r.assigned.length := by
  unfold Scan.ret at h
  split at h
  · omega
  · exact Int.ofNat_le.1 h

/-- What the three conversions of an entry assign. -/
theorem sscanf_participantFormat_eq_ok {currPos : Bytes} {r : Scan}
    (h : sscanf participantFormat currPos = .ok r) (h3 : 3 ≤ r.ret) :
    r.text 0 [] = currPos.takeWhile isNicknameByte ∧
      (∀ ptr, Peer.Scannable ⟨ptr, r.text 0 [], r.text 1 [], r.text 2 []⟩) := by
  have hlen := three_le_ret h3
  have hne : r.assigned ≠ [] := fun h => by simp [h] at hlen
  obtain ⟨hn, hnlen, r₁, h₁, rfl⟩ := sscanf_set_eq_ok h hne
  have hlen₁ : 2 ≤ r₁.assigned.length := Nat.le_of_succ_le_succ hlen
  have hne₁ : r₁.assigned ≠ [] := fun h => by simp [h] at hlen₁
  obtain ⟨t₁, -, h₁⟩ := sscanf_lit_eq_ok h₁ hne₁
  obtain ⟨hi, hilen, r₂, h₂, rfl⟩ := sscanf_set_eq_ok h₁ hne₁
  have hlen₂ : 1 ≤ r₂.assigned.length := Nat.le_of_succ_le_succ hlen₁
  have hne₂ : r₂.assigned ≠ [] := fun h => by simp [h] at hlen₂
  obtain ⟨t₂, -, h₂⟩ := sscanf_lit_eq_ok h₂ hne₂
  obtain ⟨hp, hplen, r₃, h₃, rfl⟩ := sscanf_set_eq_ok h₂ hne₂
  refine ⟨rfl, fun ptr => ⟨hn, Nat.le_of_lt_succ hnlen, fun c hc => List.mem_takeWhile_imp hc, ?_, ?_⟩⟩
  · exact ⟨hi, Nat.le_of_lt_succ hilen, fun c hc => List.mem_takeWhile_imp hc⟩
  · exact ⟨hp, Nat.le_of_lt_succ hplen, fun c hc => List.mem_takeWhile_imp hc⟩

theorem received_of_scanParticipants {joining : Bool} {fuel : ℕ} {s s' : Node}
    {currPos rest : Bytes} {isFirst : Bool}
    (h : scanParticipants joining fuel s currPos isFirst = .ok (s', rest))
    (hs : ∀ p ∈ s.participants, p.Received) : ∀ p ∈ s'.participants, p.Received := by
  induction fuel generalizing s currPos isFirst with
  | zero => cases h
  | succ fuel ih =>
    obtain ⟨rfl, -⟩ | ⟨r, s₂, q, hend, hr, h3, hq, hfields, -, hrec⟩ := scanParticipants_eq_ok h
    · exact hs
    · refine ih hrec fun p hp => ?_
      rw [hq.participants, List.mem_append, List.mem_singleton] at hp
      obtain hp | rfl := hp
      · exact hs p hp
      obtain ⟨hnick, hscan⟩ := sscanf_participantFormat_eq_ok hr h3
      obtain ⟨hn, hi, hport⟩ : p.nickname = r.text 0 [] ∧ p.ipAddress = r.text 1 [] ∧
          p.portNum = r.text 2 [] := by simpa [Peer.fields] using hfields
      have hp : p.toPeer = ⟨p.ptr, r.text 0 [], r.text 1 [], r.text 2 []⟩ := by
        rw [← hn, ← hi, ← hport]
      refine ⟨hp ▸ hscan p.ptr, fun h61 => hend (.inr ?_)⟩
      rw [hn, hnick] at h61
      cases currPos with
      | nil => cases h61
      | cons c t =>
        rw [List.takeWhile_cons] at h61
        split at h61
        · exact h61
        · cases h61

/-- **Every participant of a list that came with a PARTICIPANT_UPDATE** has a nickname that such a
message can carry to the other end. -/
theorem received_of_processParticipantUpdate {s s' : Node} {command : Bytes} {joining : Bool}
    (h : processParticipantUpdate s command joining = .ok s') :
    ∀ p ∈ s'.participants, p.Received := by
  obtain ⟨found, s₁, currPos, -, hscan, -, rfl⟩ := processParticipantUpdate_eq_ok h
  have hnone : ∀ p ∈ s.emptyList.participants, p.Received := fun p hp => by cases hp
  have hps := received_of_scanParticipants hscan hnone
  exact hps

/-! ## The round trip -/

theorem entryText_append (p : Peer) (rest : Bytes) :
    entryText p ++ rest =
      p.nickname ++ 58 :: (p.ipAddress ++ 58 :: (p.portNum ++ 32 :: rest)) := by
  simp [entryText]

theorem exists_cons_entryText {p : Peer} (h : p.Scannable) (rest : Bytes) :
    ∃ c t, entryText p ++ rest = c :: t ∧ p.nickname.head? = some c ∧ c ≠ 32 := by
  have hne := h.nickname_ne_nil
  cases hn : p.nickname with
  | nil => exact absurd hn hne
  | cons c t =>
    refine ⟨c, t ++ 58 :: (p.ipAddress ++ 58 :: (p.portNum ++ 32 :: rest)), ?_, rfl, ?_⟩
    · rw [entryText_append, hn, List.cons_append]
    · rintro rfl
      exact absurd (h.nickname_bytes 32 (by simp [hn])) (by decide)

/-- **An entry is scanned as it was written.** -/
theorem sscanf_entryText {p : Peer} (h : p.Scannable) (rest : Bytes) :
    sscanf participantFormat (entryText p ++ rest) =
      .ok ⟨[.text p.nickname, .text p.ipAddress, .text p.portNum], false⟩ := by
  have h1 : Stops isNicknameByte (58 :: (p.ipAddress ++ 58 :: (p.portNum ++ 32 :: rest))) :=
    (stops_cons ..).2 (by decide)
  have h2 : Stops isAddressByte (58 :: (p.portNum ++ 32 :: rest)) := (stops_cons ..).2 (by decide)
  have h3 : Stops isDigit (32 :: rest) := (stops_cons ..).2 (by decide)
  have hip := h.ip
  have hport := h.port
  have h6 : p.portNum.length < 6 := Nat.lt_add_one_of_le hport.length_le
  rw [participantFormat, entryText_append,
    sscanf_set h.nickname_ne_nil h.nickname_bytes (Nat.lt_add_one_of_le h.nickname_length) h1,
    sscanf_lit, sscanf_set hip.ne_nil hip.bytes (Nat.lt_add_one_of_le hip.length_le) h2,
    sscanf_lit, sscanf_set hport.ne_nil hport.bytes h6 h3]
  rfl

/-- The cursor moves from one entry to the next. -/
theorem skip_entryText {p : Peer} (h : p.Plain) {rest : Bytes} (hr : Stops (· == 32) rest) :
    skipSpaces ((entryText p ++ rest).drop (strcspn (entryText p ++ rest) (str " ="))) = rest := by
  have hw : entryText p ++ rest =
      (p.nickname ++ 58 :: (p.ipAddress ++ 58 :: p.portNum)) ++ 32 :: rest := by
    simp [entryText]
  have hbytes : ∀ c ∈ p.nickname ++ 58 :: (p.ipAddress ++ 58 :: p.portNum), c ∉ str " =" := by
    intro c hc
    have hcases : c ∉ str " =" ↔ c ≠ 32 ∧ c ≠ 61 := by simp [str]
    rw [hcases]
    simp only [List.mem_append, List.mem_cons] at hc
    obtain hc | rfl | hc | rfl | hc := hc
    · refine ⟨?_, fun h61 => h.no_equals (h61 ▸ hc)⟩
      rintro rfl
      exact absurd (h.nickname_bytes 32 hc) (by decide)
    · decide
    · have := h.ip.bytes c hc
      constructor <;> (rintro rfl; exact absurd this (by decide))
    · decide
    · have := h.port.bytes c hc
      constructor <;> (rintro rfl; exact absurd this (by decide))
  have hstop : Stops (fun c => !(str " =").contains c) (32 :: rest) :=
    (stops_cons ..).2 (by decide)
  rw [hw, strcspn_append hbytes hstop, List.drop_left, skipSpaces, List.dropWhile_cons]
  exact skipSpaces_of_stops hr

/-- A blank ends each entry and none begins one. -/
theorem stops_entries {ps : List Peer} (h : ∀ p ∈ ps, p.Scannable) (rest : Bytes) :
    Stops (· == 32) ((ps.map entryText).flatten ++ 61 :: rest) := by
  cases ps with
  | nil => exact (stops_cons ..).2 (by decide)
  | cons p ps =>
    obtain ⟨c, t, hct, -, hc⟩ :=
      exists_cons_entryText (h p (by simp)) ((ps.map entryText).flatten ++ 61 :: rest)
    rw [List.map_cons, List.flatten_cons, List.append_assoc, hct]
    exact (stops_cons ..).2 (by simpa using hc)

theorem length_le_length_entries (ps : List Peer) :
    ps.length ≤ (ps.map entryText).flatten.length := by
  induction ps with
  | nil => exact le_rfl
  | cons p ps ih =>
    rw [List.map_cons, List.flatten_cons, List.length_append, List.length_cons]
    simp only [entryText, List.length_append, List.length_cons]
    omega

theorem insertParticipant_of_scannable {p : Peer} (h : p.Scannable) (s : Node) (isLeader : Bool) :
    ∃ s', s.insertParticipant p.nickname p.ipAddress p.portNum isLeader = .ok s' := by
  have h1 := h.nickname_length
  have h2 := h.ip.length_le
  have h3 := h.port.length_le
  unfold Node.insertParticipant
  dsimp only
  rw [if_neg (by omega)]
  exact ⟨_, rfl⟩

/-- One entry of the list is read. -/
theorem scanParticipants_entry {p : Peer} (h : p.Plain) {rest : Bytes} (hr : Stops (· == 32) rest)
    (joining : Bool) (fuel : ℕ) (s : Node) (isFirst : Bool) :
    ∃ s₂ q, scanParticipants joining (fuel + 1) s (entryText p ++ rest) isFirst =
        scanParticipants joining fuel s₂ rest false ∧
      Inserted s s₂ q ∧ q.fields = p.fields ∧ q.isLeader = isFirst := by
  obtain ⟨c, t, hct, hc, -⟩ := exists_cons_entryText h.toScannable rest
  have hend : ¬(entryText p ++ rest = [] ∨ (entryText p ++ rest).head? = some 61) := by
    rw [hct, List.head?_cons]
    rintro (h' | h')
    · cases h'
    · exact h.no_equals (Option.some.inj h' ▸ List.mem_of_head? hc)
  obtain ⟨s₁, h₁⟩ := insertParticipant_of_scannable h.toScannable s isFirst
  obtain ⟨s₂, q, hstep, hq, hfields, hflag⟩ := scanParticipants_succ joining fuel hend
    (sscanf_entryText h.toScannable rest) (by simp [Scan.ret]) h₁
  exact ⟨s₂, q, by rw [hstep, skip_entryText h hr], hq, hfields, hflag⟩

/-- **The rest of the list is read**, by induction on the entries. -/
theorem scanParticipants_entries {ps : List Peer} (h : ∀ p ∈ ps, p.Plain) (joining : Bool)
    {fuel : ℕ} (hf : ps.length < fuel) (s : Node) (rest : Bytes) :
    ∃ s' qs, scanParticipants joining fuel s ((ps.map entryText).flatten ++ 61 :: rest) false =
        .ok (s', 61 :: rest) ∧
      SameRole s s' ∧ s'.participants = s.participants ++ qs ∧
      qs.map (fun q => q.fields) = ps.map Peer.fields ∧ (∀ q ∈ qs, q.isLeader = false) ∧
      s'.leader = s.leader ∧ s'.numParticipants = s.numParticipants + ps.length := by
  induction ps generalizing fuel s with
  | nil =>
    obtain _ | fuel := fuel
    · cases hf
    refine ⟨s, [], ?_, SameRole.refl s, by simp, rfl, by simp, rfl, by simp⟩
    rw [scanParticipants, if_pos (by simp)]
    rfl
  | cons p ps ih =>
    obtain _ | fuel := fuel
    · cases hf
    have hstop := stops_entries (fun p' hp' => (h p' (.tail _ hp')).toScannable) rest
    obtain ⟨s₂, q, hstep, hq, hfields, hflag⟩ :=
      scanParticipants_entry (h p (by simp)) hstop joining fuel s false
    obtain ⟨s', qs, hrec, hrole, hps, hmap, hflags, hleader, hnum⟩ :=
      ih (fun p' hp' => h p' (.tail _ hp')) (Nat.lt_of_succ_lt_succ hf) s₂
    refine ⟨s', q :: qs, ?_, hq.role.trans hrole, ?_, ?_, ?_, ?_, ?_⟩
    · rw [List.map_cons, List.flatten_cons, List.append_assoc, hstep, hrec]
    · rw [hps, hq.participants, List.append_assoc, List.singleton_append]
    · rw [List.map_cons, List.map_cons, hfields, hmap]
    · intro q' hq'
      obtain rfl | hq' := List.mem_cons.1 hq'
      · exact hflag
      · exact hflags q' hq'
    · rw [hleader, hq.leader, hflag]
      rfl
    · rw [hnum, hq.numParticipants, List.length_cons]
      omega

theorem updateText_eq (leader : Peer) (ps : List Participant) (joinLeaveMessage : Bytes) :
    updateText leader ps joinLeaveMessage =
      str "PARTICIPANT_UPDATE " ++ 64 :: (entryText leader ++
        (((others ps).map fun p => entryText p.toPeer).flatten ++ 61 :: 32 :: joinLeaveMessage)) := by
  have h1 : messageParticipantUpdate ++ str " @" = str "PARTICIPANT_UPDATE " ++ [64] := by decide
  have h2 : str "= " = [61, 32] := by decide
  rw [updateText, h1, h2]
  simp only [List.append_assoc, List.cons_append, List.nil_append]

/-- Exactly one participant is flagged as the leader, and `leader` points to it. -/
structure LedBy (s : Node) (leader : Participant) : Prop where
  flagged : s.participants.filter Participant.isLeader = [leader]
  pointer : s.leader = some leader.toPeer

/-- A list that a PARTICIPANT_UPDATE can carry: one leader, plain participants, the counter of the
node, and a text that fits the buffer. White space other than the blank is harmless in a
nickname here. -/
structure Encodable (s : Node) (leader : Participant) (joinLeaveMessage : Bytes) : Prop where
  led : LedBy s leader
  plain : ∀ p ∈ s.participants, p.Plain
  counted : s.numParticipants = s.participants.length
  fits : (updateText leader.toPeer s.participants joinLeaveMessage).length < maxBufferLen

theorem LedBy.mem {s : Node} {leader : Participant} (h : LedBy s leader) :
    leader ∈ s.participants := by
  have : leader ∈ s.participants.filter Participant.isLeader := by simp [h.flagged]
  exact (List.mem_filter.1 this).1

theorem LedBy.length_others {s : Node} {leader : Participant} (h : LedBy s leader) :
    s.participants.length = (others s.participants).length + 1 := by
  have hsplit := List.length_eq_length_filter_add (l := s.participants) Participant.isLeader
  rw [h.flagged] at hsplit
  have hnot : (s.participants.filter fun p => !p.isLeader) = others s.participants := rfl
  rw [hsplit, hnot, List.length_singleton]
  omega

/-- What `process_participant_update` makes of the text of a list: the leader first and the others
in their order, with equal texts, the flag on the first one only and the pointer at it. -/
structure Decoded (leader : Peer) (ps : List Participant) (s s' : Node) (q : Participant)
    (qs : List Participant) : Prop where
  participants : s'.participants = q :: qs
  first : q.fields = leader.fields
  others : qs.map (fun p => p.fields) = (others ps).map fun p => p.fields
  flagged : q.isLeader = true
  unflagged : ∀ p ∈ qs, p.isLeader = false
  pointer : s'.leader = some q.toPeer
  count : s'.numParticipants = (Chat.others ps).length + 1
  role : SameRole s s'

/-- `strchr` finds the `@` before the entry of the leader. -/
theorem strchr_updateText (leader : Peer) (ps : List Participant) (joinLeaveMessage : Bytes) :
    strchr (updateText leader ps joinLeaveMessage) 64 =
      some (64 :: (entryText leader ++
        (((others ps).map Participant.toPeer).map entryText).flatten ++
          61 :: 32 :: joinLeaveMessage)) := by
  rw [updateText_eq, List.map_map, List.append_assoc]
  exact strchr_append (by decide) _

/-- No white space is skipped in front of an entry. -/
theorem skipSpaces_entryText {p : Peer} (h : p.Scannable) (rest : Bytes) :
    skipSpaces (entryText p ++ rest) = entryText p ++ rest := by
  obtain ⟨c, t, hct, -, hc⟩ := exists_cons_entryText h rest
  rw [hct]
  exact skipSpaces_of_stops ((stops_cons ..).2 (by simpa using hc))

/-- **The entry of the leader comes through**, whatever follows it: a node that accepts the text of
a list ends with a leader of the same fields. -/
theorem leader_of_updateText {leader : Peer} {ps : List Participant} {joinLeaveMessage : Bytes}
    {s s' : Node} {joining : Bool} (hleader : leader.Received)
    (h : processParticipantUpdate s (updateText leader ps joinLeaveMessage) joining = .ok s') :
    SameRole s s' ∧ ∃ q : Peer, s'.leader = some q ∧ q.fields = leader.fields := by
  have hscannable := hleader.toScannable
  let rest := (((others ps).map Participant.toPeer).map entryText).flatten ++
    61 :: 32 :: joinLeaveMessage
  obtain ⟨c, t, hct, hc, -⟩ := exists_cons_entryText hscannable rest
  have hend : ¬(entryText leader ++ rest = [] ∨ (entryText leader ++ rest).head? = some 61) := by
    rw [hct, List.head?_cons]
    rintro (h' | h')
    · cases h'
    · exact hleader.head_ne_equals (hc.trans h')
  obtain ⟨found, s₁, currPos, hfound, hscan, -, rfl⟩ := processParticipantUpdate_eq_ok h
  rw [strchr_updateText] at hfound
  obtain rfl := Option.some.inj hfound
  rw [List.tail_cons, List.append_assoc, skipSpaces_entryText hscannable] at hscan
  obtain ⟨-, -, hend'⟩ | ⟨r, s₂, q, -, hr, -, hq, hfields, hflag, hrec⟩ := scanParticipants_eq_ok hscan
  · exact absurd hend' hend
  rw [sscanf_entryText hscannable] at hr
  obtain rfl := Except.ok.inj hr
  obtain ⟨hrole, hptr⟩ := scanParticipants_frame hrec
  have hrole₁ := hq.role.trans hrole
  have hs₁ : s₁.leader = some q.toPeer := by
    rw [hptr rfl, hq.leader, hflag]
    rfl
  obtain ⟨h1, h2, h3, h4, h5, h6⟩ := hrole₁
  exact ⟨⟨h1, h2, h3, h4, h5, h6⟩, q.toPeer, hs₁, hfields⟩

theorem decoded_updateText {leader : Peer} {ps : List Participant} (hleader : leader.Plain)
    (hps : ∀ p ∈ others ps, p.Plain) (joinLeaveMessage : Bytes) (s : Node) (joining : Bool) :
    ∃ s' q qs, processParticipantUpdate s (updateText leader ps joinLeaveMessage) joining = .ok s' ∧
      Decoded leader ps s s' q qs := by
  let peers := (others ps).map Participant.toPeer
  have hpeers : ∀ p ∈ peers, p.Plain := by
    intro p hp
    obtain ⟨p', hp', rfl⟩ := List.mem_map.1 hp
    exact hps p' hp'
  let rest := (peers.map entryText).flatten ++ 61 :: 32 :: joinLeaveMessage
  have hstop : Stops (· == 32) rest := stops_entries (fun p hp => (hpeers p hp).toScannable) _
  have hfuel : peers.length < (entryText leader ++ rest).length := by
    have := length_le_length_entries peers
    simp only [rest, List.length_append, List.length_cons]
    omega
  obtain ⟨s₂, q, hstep, hq, hfields, hflag⟩ := scanParticipants_entry hleader hstop joining
    (entryText leader ++ rest).length s.emptyList true
  obtain ⟨s₃, qs, hrun, hrole, hlist, hmap, hflags, hptr, hnum⟩ :=
    scanParticipants_entries hpeers joining hfuel s₂ (32 :: joinLeaveMessage)
  have hproc : processParticipantUpdate s (updateText leader ps joinLeaveMessage) joining =
      .ok (s₃.print (if joining then [] else skipSpaces (32 :: joinLeaveMessage))) := by
    rw [processParticipantUpdate_of_strchr (strchr_updateText ..), List.tail_cons, List.append_assoc,
      skipSpaces_entryText hleader.toScannable, hstep, hrun, Fault.ok_bind]
    rfl
  refine ⟨_, q, qs, hproc, ?_, hfields, ?_, hflag, hflags, ?_, ?_, ?_⟩
  · exact hlist.trans (by rw [hq.participants]; rfl)
  · rw [hmap, List.map_map]
    rfl
  · exact hptr.trans (by rw [hq.leader, hflag]; rfl)
  · have hlen : peers.length = (others ps).length := List.length_map _
    have hzero : s.emptyList.numParticipants = 0 := rfl
    calc s₃.numParticipants = s₂.numParticipants + peers.length := hnum
      _ = (others ps).length + 1 := by
        rw [hq.numParticipants]
        omega
  · obtain ⟨h1, h2, h3, h4, h5, h6⟩ := hq.role.trans hrole
    exact ⟨h1, h2, h3, h4, h5, h6⟩

/-- **The round trip of a participant list.** Whatever the receiver's state, it ends with the
leader first and the others in their order, with equal texts, the flag on the first one only, the
pointer at it, and the sender's count. -/
theorem processParticipantUpdate_generateParticipantUpdate {sender : Node} {leader : Participant}
    {joinLeaveMessage : Bytes} (h : Encodable sender leader joinLeaveMessage) (receiver : Node)
    (joining : Bool) :
    ∃ command receiver' q qs,
      generateParticipantUpdate sender maxBufferLen joinLeaveMessage = .ok command ∧
      processParticipantUpdate receiver command joining = .ok receiver' ∧
      receiver'.participants = q :: qs ∧ q.fields = leader.fields ∧
      qs.map (fun p => p.fields) = (others sender.participants).map (fun p => p.fields) ∧
      q.isLeader = true ∧ (∀ p ∈ qs, p.isLeader = false) ∧
      receiver'.leader = some q.toPeer ∧
      receiver'.numParticipants = sender.numParticipants := by
  obtain ⟨receiver', q, qs, hproc, hd⟩ := decoded_updateText (h.plain leader h.led.mem)
    (fun p hp => h.plain p (List.mem_filter.1 hp).1) joinLeaveMessage receiver joining
  have hgen : generateParticipantUpdate sender maxBufferLen joinLeaveMessage =
      .ok (updateText leader.toPeer sender.participants joinLeaveMessage) := by
    rw [generateParticipantUpdate_eq h.led.pointer (by decide), if_pos h.fits]
  refine ⟨_, receiver', q, qs, hgen, hproc, hd.participants, hd.first, hd.others, hd.flagged,
    hd.unflagged, hd.pointer, ?_⟩
  have hlen := h.led.length_others
  rw [hd.count, h.counted]
  omega

/-- The leader `b` of a list of two. -/
def pairLeader : Participant := ⟨⟨1, str "b", str "127.0.0.1", str "80"⟩, true⟩

/-- The node of `b`, whose list names `a` first. -/
def pairNode : Node :=
  { Node.modelInit (str "b") true with
    leader := some pairLeader.toPeer
    participants := [⟨⟨0, str "a", str "127.0.0.1", str "81"⟩, false⟩, pairLeader]
    numParticipants := 2 }

theorem encodable_pairNode : Encodable pairNode pairLeader (str "NOTICE") :=
  ⟨⟨by decide, by decide⟩, by decide, by decide, by decide⟩

theorem processParticipantUpdate_generateParticipantUpdate_pair :
    ∃ command receiver' q qs,
      generateParticipantUpdate pairNode maxBufferLen (str "NOTICE") = .ok command ∧
      processParticipantUpdate (Node.modelInit (str "a") false) command true = .ok receiver' ∧
      receiver'.participants = q :: qs ∧ q.fields = pairLeader.fields ∧
      qs.map (fun p => p.fields) = (others pairNode.participants).map (fun p => p.fields) ∧
      q.isLeader = true ∧ (∀ p ∈ qs, p.isLeader = false) ∧
      receiver'.leader = some q.toPeer ∧
      receiver'.numParticipants = pairNode.numParticipants :=
  processParticipantUpdate_generateParticipantUpdate encodable_pairNode _ true

end Dchat.Chat
