import Dchat.Chat.Malformed
import Dchat.Chat.Nickname
import Dchat.Chat.Speech

/-!
# Messages that fit the arrays of their receivers

The conversions of `leader_receive_message`, `non_leader_receive_message`,
`process_participant_update` and `join_chat` do not limit what they store. `ScansFit` says that each
of those that are executed on a message stores a field that, with its NUL, fits its array, and
`Honest` lists the messages with texts for which this is so.

* `scanCommand_eq_ok`: what the first `sscanf` of a message leaves in its arrays.
* `entriesFit_entries`: the entries of a list, whatever nicknames they have.
* `scansFit_requestText_iff`: which nicknames a MESSAGE_REQUEST has room for.
* `Honest.scansFit`: every honest message fits.
* `not_scansFit_refusal`: the refusal of a nickname fits nowhere.
-/

namespace Dchat.Chat

open CString Stdio RMP

/-! ## What is scanned -/

/-- The conversions of `process_participant_update`. -/
def UpdateScansFit (command : Bytes) : Prop :=
  ∀ found, strchr command 64 = some found → EntriesFit (skipSpaces found.tail)

/-- The conversions of `leader_receive_message`. -/
structure LeaderScansFit (message : Bytes) : Prop where
  command : FieldsFit commandFormat message
  request : ∀ locals rest, Reads locals message messageRequest rest → FieldsFit requestFormat rest

/-- The conversions of `non_leader_receive_message`. -/
structure NonLeaderScansFit (message : Bytes) : Prop where
  command : FieldsFit commandFormat message
  broadcast : ∀ locals rest, Reads locals message messageBroadcast rest →
    FieldsFit broadcastFormat rest
  update : ∀ locals rest, Reads locals message messageParticipantUpdate rest →
    UpdateScansFit message

/-- The conversions of `join_chat`. -/
structure JoinScansFit (message : Bytes) : Prop where
  command : FieldsFit joinFormat message
  update : JoinReads message messageParticipantUpdate → UpdateScansFit message
  leaderId : JoinReads message messageLeaderId → FieldsFit leaderIdFormat message

/-- **Every field fits its array**, whoever receives the message. -/
structure ScansFit (message : Bytes) : Prop where
  leader : LeaderScansFit message
  nonLeader : NonLeaderScansFit message
  join : JoinScansFit message

/-! ## The command and its argument -/

/-- What the array for the rest of a command holds: the rest of the line, or, if there is none, what
it held before. -/
def argument (locals : Locals) (buf : Bytes) : Bytes :=
  if commandRest buf = [] then locals.rest else commandRest buf

/-- What `leader_receive_message` scans of the nickname in a MESSAGE_REQUEST. -/
def senderField (nickname : Bytes) : Bytes :=
  (nickname.dropWhile isSpace).takeWhile fun c => isLineByte c && !(str " =").contains c

section Scanned

variable {locals : Locals} {message word command rest : Bytes}

/-- The last conversion of a line that was read. -/
theorem text_of_last {size : ℕ} {s before : Bytes} {r : Scan}
    (h : sscanf [.white, .set isLineByte size] s = .ok r) : r.text 0 before = lastField before s := by
  rw [sscanf_cons_white, sscanf_cons_set] at h
  unfold lastField
  split at h
  · next hnil =>
    obtain rfl := Except.ok.inj h
    rw [hnil]
    rfl
  split at h
  · next hword =>
    obtain rfl := Except.ok.inj h
    rw [hword]
    rfl
  · next hword =>
    split at h
    · cases h
    · obtain rfl := Except.ok.inj h
      exact (if_neg hword).symm

/-- **What the first `sscanf` of a message leaves** in its arrays, if it returns. -/
theorem scanCommand_eq_ok {r : Bytes × Bytes} (h : scanCommand locals message = .ok r) :
    r = (commandWord message, argument locals message) := by
  obtain ⟨r', hr, h⟩ := Fault.bind_eq_ok.1 h
  rw [commandFormat, sscanf_cons_str] at hr
  split at hr
  · obtain rfl := Except.ok.inj hr
    cases h
  split at hr
  · cases hr
  cases hrest : sscanf [.white, .set isLineByte (maxBufferLen + 1)]
      ((message.dropWhile isSpace).dropWhile fun c => !isSpace c) with
  | error e =>
    rw [hrest] at hr
    cases hr
  | ok r'' =>
    rw [hrest] at hr
    obtain rfl := Except.ok.inj hr
    split at h
    · cases h
    · obtain rfl := Except.ok.inj h
      exact Prod.ext rfl (text_of_last hrest)

theorem Reads.argument_eq (h : Reads locals message command rest) : rest = argument locals message := by
  obtain ⟨read, hscan, -⟩ := h
  exact (Prod.mk.inj (scanCommand_eq_ok hscan)).2

/-- A message whose command fits is read under it. -/
theorem reads_of_carries (hword : word ∈ commands) (hc : Carries message word)
    (hfit : FieldsFit commandFormat message) : Reads locals message word (argument locals message) := by
  obtain ⟨r, hr⟩ := exists_sscanf_of_fieldsFit (by simp [commandFormat]) hfit
  have htext : r.text 0 [] = word := text_of_carries hword hc hr
  have hne : r.ret ≠ eof := by
    intro heof
    have hnone : r.assigned = [] := by
      unfold Scan.ret at heof
      split at heof
      · next h => exact h.2
      · simp only [eof] at heof
        omega
    rw [Scan.text, hnone] at htext
    exact (commands_spec hword).1 htext.symm
  have hscan : scanCommand locals message = .ok (word, r.text 1 locals.rest) := by
    rw [scanCommand, hr, Fault.ok_bind, if_neg hne, htext]
  rw [← (Prod.mk.inj (scanCommand_eq_ok hscan)).2]
  have h0 := (commands_spec hword).2.2
  exact ⟨word, hscan, (strcmp_eq_zero h0 h0).2 rfl⟩

/-- The command of a message that carries one. -/
theorem Carries.commandWord (h : Carries message word) (hword : word ∈ commands) :
    commandWord message = word := by
  obtain ⟨tail, rfl, hstop⟩ := h
  obtain ⟨hne, hspace, -⟩ := commands_spec hword
  rw [Chat.commandWord, dropWhile_word hne hspace]
  exact takeWhile_append_of_stops (List.all_eq_true.1 hspace) hstop

/-- The argument of a command. -/
theorem argument_append (hword : word ∈ commands) {tail : Bytes}
    (hstop : Stops (fun c => !isSpace c) tail) :
    argument locals (word ++ tail) = lastField locals.rest tail := by
  obtain ⟨hne, hspace, -⟩ := commands_spec hword
  rw [argument, commandRest, dropWhile_word hne hspace,
    dropWhile_append_of_stops (List.all_eq_true.1 hspace) hstop]
  rfl

/-- The rest of a line that is not blank. -/
theorem lastField_of_mem {line before : Bytes} {c : UInt8} (hc : c ∈ line) (hspace : isSpace c = false) :
    lastField before line = (line.dropWhile isSpace).takeWhile isLineByte := by
  refine if_neg fun hnil => ?_
  have hne : line.dropWhile isSpace ≠ [] := fun h => by
    rw [List.dropWhile_eq_nil_iff] at h
    rw [h c hc] at hspace
    cases hspace
  -- its first byte is no white space, and so no newline
  obtain ⟨b, t, hb⟩ := List.exists_cons_of_ne_nil hne
  have hfirst : isSpace b = false := by
    have hhead := List.head?_dropWhile_not isSpace line
    rw [hb] at hhead
    exact hhead
  rw [hb, List.takeWhile_cons_of_pos] at hnil
  · cases hnil
  · refine mem_line ?_
    rintro rfl
    exact absurd hfirst (by decide)

end Scanned

/-! ## The list of participants -/

/-- The texts of a participant that can be on a list: the nickname may be empty, and the byte that
ends a list may be in it. -/
structure Peer.Written (p : Peer) : Prop where
  nickname_length : p.nickname.length ≤ maxNicknameLen
  nickname_bytes : ∀ c ∈ p.nickname, isNicknameByte c = true
  ip : IsIpAddress p.ipAddress
  port : IsPortNum p.portNum

theorem Peer.Received.written {p : Peer} (h : p.Received) : p.Written :=
  ⟨h.nickname_length, h.nickname_bytes, h.ip, h.port⟩

theorem Peer.Written.scannable {p : Peer} (h : p.Written) (hne : p.nickname ≠ []) : p.Scannable :=
  ⟨hne, h.nickname_length, h.nickname_bytes, h.ip, h.port⟩

section Entries

variable {p : Peer} {rest : Bytes}

/-- No entry begins with a blank. -/
theorem stops_entryText (h : ∀ c ∈ p.nickname, isNicknameByte c = true) :
    Stops (· == 32) (entryText p ++ rest) := by
  rw [entryText_append]
  cases hn : p.nickname with
  | nil => exact (stops_cons ..).2 (by decide)
  | cons c t =>
    refine (stops_cons ..).2 (beq_eq_false_iff_ne.2 ?_)
    rintro rfl
    exact absurd (h 32 (by simp [hn])) (by decide)

theorem stops_written {ps : List Peer} (h : ∀ p ∈ ps, p.Written) (rest : Bytes) :
    Stops (· == 32) ((ps.map entryText).flatten ++ 61 :: rest) := by
  cases ps with
  | nil => exact (stops_cons ..).2 (by decide)
  | cons p ps =>
    rw [List.map_cons, List.flatten_cons, List.append_assoc]
    exact stops_entryText (h p List.mem_cons_self).nickname_bytes

/-- An entry without a nickname is not complete. -/
theorem sscanf_entryText_nil (hnil : p.nickname = []) :
    sscanf participantFormat (entryText p ++ rest) = .ok ⟨[], false⟩ := by
  rw [entryText_append, hnil, List.nil_append, participantFormat, sscanf_cons_set]
  rfl

/-- After a nickname with the byte that ends a list, the list is taken to have ended. -/
theorem atEnd_advance (h : p.Written) (hmem : 61 ∈ p.nickname) :
    AtEnd (advance (entryText p ++ rest)) := by
  obtain ⟨a, b, hab, ha⟩ := List.eq_append_cons_of_mem hmem
  have hbytes : ∀ c ∈ a, c ∉ str " =" := by
    intro c hc hmem
    obtain rfl | rfl : c = 32 ∨ c = 61 := by simpa [str] using hmem
    · have h32 : 32 ∈ p.nickname := by rw [hab]; exact List.mem_append_left _ hc
      exact absurd (h.nickname_bytes 32 h32) (by decide)
    · exact ha hc
  have htext : entryText p ++ rest =
      a ++ 61 :: (b ++ 58 :: (p.ipAddress ++ 58 :: (p.portNum ++ 32 :: rest))) := by
    rw [entryText_append, hab, List.append_assoc, List.cons_append]
  have hstop : Stops (fun c => !(str " =").contains c)
      (61 :: (b ++ 58 :: (p.ipAddress ++ 58 :: (p.portNum ++ 32 :: rest)))) :=
    (stops_cons ..).2 (by decide)
  rw [advance, htext, strcspn_append hbytes hstop, List.drop_left]
  exact .inr rfl

/-- **The entries of a list**: the loop ends before an entry whose nickname begins with `=` and
behind one with a `=` in its nickname, and the process ends at one without a nickname. -/
theorem entriesFit_entries {ps : List Peer} (h : ∀ p ∈ ps, p.Written) (rest : Bytes) :
    EntriesFit ((ps.map entryText).flatten ++ 61 :: rest) := by
  induction ps with
  | nil => exact entriesFit_of_atEnd (.inr rfl)
  | cons p ps ih =>
    have hp := h p List.mem_cons_self
    have hps : ∀ q ∈ ps, q.Written := fun q hq => h q (.tail _ hq)
    rw [List.map_cons, List.flatten_cons, List.append_assoc]
    by_cases hend : AtEnd (entryText p ++ ((ps.map entryText).flatten ++ 61 :: rest))
    · exact entriesFit_of_atEnd hend
    have hfits : ∀ {r : Scan}, sscanf participantFormat
        (entryText p ++ ((ps.map entryText).flatten ++ 61 :: rest)) = .ok r →
          FieldsFit participantFormat (entryText p ++ ((ps.map entryText).flatten ++ 61 :: rest)) := by
      intro r hr
      by_contra hnot
      rw [← sscanf_eq_overflow, hr] at hnot
      cases hnot
    refine (entriesFit_iff hend).2 ?_
    by_cases hnil : p.nickname = []
    · refine ⟨hfits (sscanf_entryText_nil hnil), ?_⟩
      rintro ⟨r, hr, h3⟩
      rw [sscanf_entryText_nil hnil] at hr
      obtain rfl := Except.ok.inj hr
      exact absurd h3 (by decide)
    · have hscannable := hp.scannable hnil
      refine ⟨hfits (sscanf_entryText hscannable _), fun _ => ?_⟩
      by_cases hmem : 61 ∈ p.nickname
      · exact entriesFit_of_atEnd (atEnd_advance hp hmem)
      · rw [advance, skip_entryText ⟨hscannable, hmem⟩ (stops_written hps rest)]
        exact ih hps

theorem updateScansFit_updateText {leader : Peer} {ps : List Participant} (hleader : leader.Written)
    (hps : ∀ p ∈ ps, p.Written) (notice : Bytes) :
    UpdateScansFit (updateText leader ps notice) := by
  intro found hfound
  rw [strchr_updateText] at hfound
  obtain rfl := Option.some.inj hfound
  let peers := leader :: (others ps).map Participant.toPeer
  have hpeers : ∀ p ∈ peers, p.Written := by
    intro p hp
    obtain rfl | hp := List.mem_cons.1 hp
    · exact hleader
    · obtain ⟨q, hq, rfl⟩ := List.mem_map.1 hp
      exact hps q (mem_others.1 hq).1
  have hfit := entriesFit_entries hpeers (32 :: notice)
  have htext : (peers.map entryText).flatten ++ 61 :: 32 :: notice = entryText leader ++
      (((others ps).map Participant.toPeer).map entryText).flatten ++ 61 :: 32 :: notice := rfl
  rw [List.tail_cons, ← htext, skipSpaces_of_stops (stops_written hpeers _)]
  exact hfit

end Entries

/-! ## The messages of nodes -/

/-- **The messages that fit**: those of nodes that know admitted nicknames and addresses only, but
for the refusal of a nickname, and for a request with a nickname that fills the array of its
receiver. -/
inductive Honest : Bytes → Prop
  | bare {message : Bytes} (hmessage : message ∈ bareCommands) : Honest message
  | addMe {nickname : Bytes} (hadm : Admitted nickname) : Honest (addMeCmd nickname)
  | update {leader : Peer} {ps : List Participant} {notice : Bytes} (hleader : leader.Written)
    (hps : ∀ p ∈ ps, p.Written) (hlen : (updateText leader ps notice).length < maxBufferLen) :
    Honest (updateText leader ps notice)
  | referral {leader : Peer} (hleader : leader.Written) :
    Honest (snprintf (10 + maxIpAddressLen + 1 + maxPortNumLen + 1)
      (messageLeaderId ++ str " " ++ leader.ipAddress ++ str ":" ++ leader.portNum))
  | broadcast {id : ℤ} {nickname : Bytes} (payload : Bytes) (hlo : -2147483648 ≤ id)
    (hhi : id < 2147483648) (hlen : nickname.length ≤ maxNicknameLen) :
    Honest (snprintf 1024 (broadcastText id nickname payload))
  | request {nickname : Bytes} (payload : Bytes) (hlen : nickname.length ≤ maxNicknameLen)
    (hfit : (senderField nickname).length < maxNicknameLen) :
    Honest (snprintf maxBufferLen (requestText nickname payload))

section Fitting

variable {message word : Bytes}

theorem length_snprintf_lt {size : ℕ} (h : 0 < size) (text : Bytes) :
    (snprintf size text).length < size := by
  rw [snprintf, List.length_take]
  omega

/-- A message whose command fits, and whatever is scanned under this command. -/
theorem scansFit_of_carries (hword : word ∈ commands) (hc : Carries message word)
    (hfit : word.length < 20) (hlen : message.length ≤ maxBufferLen)
    (hrequest : word = messageRequest → ∀ locals, FieldsFit requestFormat (argument locals message))
    (hbroadcast : word = messageBroadcast →
      ∀ locals, FieldsFit broadcastFormat (argument locals message))
    (hupdate : word = messageParticipantUpdate → UpdateScansFit message)
    (hleaderId : word = messageLeaderId → FieldsFit leaderIdFormat message) : ScansFit message := by
  obtain ⟨tail, rfl, hstop⟩ := id hc
  obtain ⟨hne, hspace, -⟩ := commands_spec hword
  rw [List.length_append] at hlen
  have hcommand : FieldsFit commandFormat (word ++ tail) := by
    refine (fieldsFit_str hne hspace hstop).2 ⟨hfit, fieldsFit_of_holds ?_⟩
    simp only [List.mem_cons, List.not_mem_nil, or_false, forall_eq_or_imp, forall_eq,
      Directive.Holds, true_and]
    omega
  have hjoin : FieldsFit joinFormat (word ++ tail) :=
    (fieldsFit_str hne hspace hstop).2 ⟨hfit, trivial⟩
  refine ⟨⟨hcommand, fun locals rest hreads => ?_⟩, ⟨hcommand, fun locals rest hreads => ?_,
    fun locals rest hreads => ?_⟩, ⟨hjoin, fun hreads => ?_, fun hreads => ?_⟩⟩
  · rw [hreads.argument_eq]
    exact hrequest (hreads.command_eq (by decide) hword hc).symm locals
  · rw [hreads.argument_eq]
    exact hbroadcast (hreads.command_eq (by decide) hword hc).symm locals
  · exact hupdate (hreads.command_eq (by decide) hword hc).symm
  · exact hupdate (hreads.command_eq (by decide) hword hc).symm
  · exact hleaderId (hreads.command_eq (by decide) hword hc).symm

/-- The LEADER_ID of a leader is written as a whole, and read back. -/
theorem scansFit_referral {leader : Peer} (h : leader.Written) :
    ScansFit (snprintf (10 + maxIpAddressLen + 1 + maxPortNumLen + 1)
      (messageLeaderId ++ str " " ++ leader.ipAddress ++ str ":" ++ leader.portNum)) := by
  have hip := h.ip
  have hport := h.port
  have h9 : messageLeaderId.length = 9 := by decide
  have htext : messageLeaderId ++ str " " ++ leader.ipAddress ++ str ":" ++ leader.portNum =
      messageLeaderId ++ 32 :: (leader.ipAddress ++ 58 :: leader.portNum) := by simp [str]
  have hlen : (messageLeaderId ++ 32 :: (leader.ipAddress ++ 58 :: leader.portNum)).length < 32 := by
    have hle := hip.length_le
    have hle' := hport.length_le
    simp only [maxIpAddressLen, maxPortNumLen] at hle hle'
    simp only [List.length_append, List.length_cons, h9]
    omega
  rw [htext, snprintf_of_lt (by simp only [maxIpAddressLen, maxPortNumLen]; omega)]
  refine scansFit_of_carries (by decide) (carries_blank messageLeaderId _) (by decide)
    (by simp only [maxBufferLen]; omega) (fun heq => absurd heq (by decide))
    (fun heq => absurd heq (by decide)) (fun heq => absurd heq (by decide)) fun _ => ?_
  have hspace : Stops isSpace (leader.ipAddress ++ 58 :: leader.portNum) := by
    refine (stops_append hip.ne_nil _).2 fun c hc => ?_
    have hbyte := hip.bytes c (List.mem_of_mem_head? hc)
    obtain hdigit | rfl : isDigit c = true ∨ c = 46 := by simpa [isAddressByte] using hbyte
    · exact isSpace_of_isDigit hdigit
    · decide
  refine (fieldsFit_str (by decide) (by decide) ((stops_cons ..).2 (by decide))).2 ⟨by decide, ?_⟩
  rw [FieldsFit, List.dropWhile_cons_of_pos (by decide), dropWhile_of_stops hspace,
    fieldsFit_set hip.ne_nil hip.bytes ((stops_cons ..).2 (by decide))]
  refine ⟨Nat.lt_add_one_of_le hip.length_le, fun _ => fieldsFit_of_holds ?_⟩
  have hle := hport.length_le
  simp only [maxPortNumLen] at hle
  simp only [List.mem_cons, List.not_mem_nil, or_false, forall_eq, Directive.Holds]
  omega

/-- The nickname in a MESSAGE_BROADCAST has room in the arrays of the non-leaders, for the array is
one byte longer than nicknames are, and nothing is scanned behind the `=`. -/
theorem length_line_le {q : UInt8 → Bool} (hq : q 61 = false) (nickname rest : Bytes) :
    ((((nickname ++ 61 :: rest).takeWhile isLineByte).dropWhile isSpace).takeWhile q).length ≤
      nickname.length := by
  rw [List.takeWhile_append]
  split
  · rw [List.takeWhile_cons_of_pos (by decide), field_append (by decide) hq]
    exact length_field_le isSpace q nickname
  · exact (length_field_le isSpace q _).trans (List.takeWhile_sublist _).length_le

theorem scansFit_broadcast {id : ℤ} {nickname : Bytes} (payload : Bytes) (hlo : -2147483648 ≤ id)
    (hhi : id < 2147483648) (hlen : nickname.length ≤ maxNicknameLen) :
    ScansFit (snprintf 1024 (broadcastText id nickname payload)) := by
  obtain ⟨k, -, htext⟩ := broadcastText_eq hlen payload hlo hhi
  have hshort := length_snprintf_lt (show 0 < maxBufferLen by decide)
    (broadcastText id nickname payload)
  have hsize : snprintf 1024 (broadcastText id nickname payload) = _ := htext
  rw [hsize]
  rw [htext] at hshort
  let line := (nickname ++ 61 :: 32 :: payload.take k).takeWhile isLineByte
  have hline : line.length ≤ (nickname ++ 61 :: 32 :: payload.take k).length :=
    (List.takeWhile_sublist _).length_le
  refine scansFit_of_carries (by decide) (carries_blank messageBroadcast _) (by decide)
    (Nat.le_of_lt hshort) (fun heq => absurd heq (by decide)) (fun _ locals => ?_)
    (fun heq => absurd heq (by decide)) (fun heq => absurd heq (by decide))
  have hne := decimalInt_ne_nil id
  obtain ⟨c, hc⟩ := List.exists_mem_of_ne_nil _ hne
  have hsigns : ∀ c ∈ decimalInt id, isSpace c = false ∧ isLineByte c = true := by
    intro c hc
    obtain rfl | hdigit := eq_or_isDigit_of_mem_decimalInt hc
    · decide
    · refine ⟨isSpace_of_isDigit hdigit, mem_line ?_⟩
      rintro rfl
      exact absurd hdigit (by decide)
  -- the rest of the line is the number, and what the line has of the nickname and the payload
  have hargument : argument locals (messageBroadcast ++ 32 :: (decimalInt id ++ 32 :: (nickname ++
      61 :: 32 :: payload.take k))) = decimalInt id ++ 32 :: line := by
    rw [argument_append (by decide) ((stops_cons ..).2 (by decide)),
      lastField_of_mem (.tail _ (List.mem_append_left _ hc)) (hsigns c hc).1,
      List.dropWhile_cons_of_pos (by decide),
      dropWhile_of_stops ((stops_append hne _).2 (stops_decimalInt id)),
      List.takeWhile_append_of_pos fun c hc => (hsigns c hc).2]
    rfl
  rw [hargument, broadcastFormat, FieldsFit]
  intro z rest hdigits _
  rw [dropWhile_of_stops ((stops_append hne _).2 (stops_decimalInt id)),
    scanDigits_decimalInt id ((stops_cons ..).2 (by decide))] at hdigits
  obtain ⟨-, rfl⟩ := Prod.mk.inj (Option.some.inj hdigits)
  rw [FieldsFit, List.dropWhile_cons_of_pos (by decide)]
  refine fun _ => ⟨Nat.lt_add_one_of_le ((length_line_le (by decide) nickname _).trans hlen),
    fieldsFit_of_holds ?_⟩
  have hrest : ((line.dropWhile isSpace).dropWhile fun c => !(str "= ").contains c).length ≤
      line.length := ((List.dropWhile_suffix _).trans (List.dropWhile_suffix _)).length_le
  simp only [List.length_append, List.length_cons] at hshort hline
  simp only [List.mem_cons, List.not_mem_nil, or_false, forall_eq_or_imp, forall_eq,
    Directive.Holds, true_and]
  omega

/-- What is read of a MESSAGE_REQUEST: its nickname and its payload, up to the end of the line. -/
theorem exists_argument_request {nickname : Bytes} (hlen : nickname.length ≤ maxNicknameLen)
    (payload : Bytes) :
    ∃ line, line.length < maxBufferLen ∧
      (line.takeWhile fun c => !(str " =").contains c) = senderField nickname ∧ ∀ locals,
        argument locals (snprintf maxBufferLen (requestText nickname payload)) = line := by
  obtain ⟨k, -, htext⟩ := requestText_eq hlen payload
  have hshort := length_snprintf_lt (show 0 < maxBufferLen by decide) (requestText nickname payload)
  rw [htext] at hshort ⊢
  let text := nickname ++ 61 :: 32 :: payload.take k
  refine ⟨(text.dropWhile isSpace).takeWhile isLineByte, ?_, ?_, fun locals => ?_⟩
  · have hline := length_field_le isSpace isLineByte text
    have htext : text.length = nickname.length + ((payload.take k).length + 2) := by
      simp only [text, List.length_append, List.length_cons]
    simp only [List.length_append, List.length_cons] at hshort
    omega
  · have hboth : (((text.dropWhile isSpace).takeWhile isLineByte).takeWhile fun c =>
        !(str " =").contains c) = (text.dropWhile isSpace).takeWhile
          fun c => isLineByte c && !(str " =").contains c := by
      rw [List.takeWhile_takeWhile]
      congr 1
      funext c
      rw [Bool.and_comm]
      simp
    rw [hboth, field_append (by decide) (by decide)]
    rfl
  · -- the `=` is in the rest of the line, so that it is not blank
    have hmem : 61 ∈ 32 :: (nickname ++ 61 :: 32 :: payload.take k) := by simp
    rw [argument_append (by decide) ((stops_cons ..).2 (by decide)),
      lastField_of_mem hmem (by decide), List.dropWhile_cons_of_pos (by decide)]

/-- **A MESSAGE_REQUEST fits** exactly if the nickname leaves room for its NUL. -/
theorem scansFit_requestText_iff {nickname : Bytes} (hlen : nickname.length ≤ maxNicknameLen)
    (payload : Bytes) : ScansFit (snprintf maxBufferLen (requestText nickname payload)) ↔
      (senderField nickname).length < maxNicknameLen := by
  obtain ⟨line, hline, hfield, hargument⟩ := exists_argument_request hlen payload
  have hcarries := carries_requestText nickname payload
  have hshort := length_snprintf_lt (show 0 < maxBufferLen by decide) (requestText nickname payload)
  have hfits : (∀ locals, FieldsFit requestFormat
      (argument locals (snprintf maxBufferLen (requestText nickname payload)))) ↔
        (senderField nickname).length < maxNicknameLen := by
    simp only [hargument, requestFormat, FieldsFit, hfield]
    constructor
    · intro h
      by_cases hnil : senderField nickname = []
      · rw [hnil]
        decide
      · exact (h .blank hnil).1
    · refine fun hfit _ _ => ⟨hfit, fieldsFit_of_holds ?_⟩
      have hrest := (List.dropWhile_suffix (l := line) fun c => !(str " =").contains c).length_le
      simp only [List.mem_cons, List.not_mem_nil, or_false, forall_eq_or_imp, forall_eq,
        Directive.Holds, true_and]
      omega
  constructor
  · intro h
    exact hfits.1 fun locals =>
      h.leader.request locals _ (reads_of_carries (by decide) hcarries h.leader.command)
  · intro hfit
    exact scansFit_of_carries (by decide) hcarries (by decide) (Nat.le_of_lt hshort)
      (fun _ => hfits.2 hfit) (fun heq => absurd heq (by decide))
      (fun heq => absurd heq (by decide)) (fun heq => absurd heq (by decide))

/-- **Honest messages fit.** -/
theorem Honest.scansFit (h : Honest message) : ScansFit message := by
  cases h with
  | bare hmessage =>
    have hspec : ∀ m ∈ bareCommands, m ∈ commands ∧ m.length < 20 ∧ m ≠ messageRequest ∧
        m ≠ messageBroadcast ∧ m ≠ messageParticipantUpdate ∧ m ≠ messageLeaderId := by decide
    obtain ⟨hword, hfit, h1, h2, h3, h4⟩ := hspec message hmessage
    exact scansFit_of_carries hword (carries_self message) hfit
      (Nat.le_of_lt (Nat.lt_trans hfit (by decide))) (fun heq => absurd heq h1)
      (fun heq => absurd heq h2) (fun heq => absurd heq h3) (fun heq => absurd heq h4)
  | @addMe nickname _ =>
    have hlen : (addMeCmd nickname).length < 29 := length_snprintf_lt (by decide) _
    exact scansFit_of_carries (by decide) (carries_addMeCmd nickname) (by decide)
      (Nat.le_of_lt (Nat.lt_trans hlen (by decide))) (fun heq => absurd heq (by decide))
      (fun heq => absurd heq (by decide)) (fun heq => absurd heq (by decide))
      (fun heq => absurd heq (by decide))
  | update hleader hps hlen =>
    exact scansFit_of_carries (by decide) (carries_updateText _ _ _) (by decide) (Nat.le_of_lt hlen)
      (fun heq => absurd heq (by decide)) (fun heq => absurd heq (by decide))
      (fun _ => updateScansFit_updateText hleader hps _) (fun heq => absurd heq (by decide))
  | referral hleader => exact scansFit_referral hleader
  | broadcast payload hlo hhi hlen => exact scansFit_broadcast payload hlo hhi hlen
  | request payload hlen hfit => exact (scansFit_requestText_iff hlen payload).2 hfit

/-- **The refusal of a nickname** fits no array for a command. -/
theorem not_scansFit_refusal : ¬ ScansFit messageJoinNicknameFailure := by
  intro h
  have hfit : ¬ FieldsFit joinFormat messageJoinNicknameFailure := by decide
  exact hfit h.join.command

end Fitting

end Dchat.Chat
