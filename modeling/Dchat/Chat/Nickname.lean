import Dchat.Chat.Receive

/-!
# Which nicknames are transported

The nickname that `main` admits travels in four formats: ADD_ME, PARTICIPANT_UPDATE,
MESSAGE_REQUEST and MESSAGE_BROADCAST. `Transported` says that each of them is read back as it was
written, `Transportable` which nicknames that is, and `transported_iff` that the two are the same.

The check of `main` refuses `:`, `@` and the blank, but not `=`, which ends the nickname in three
of the formats, nor other white space, which `sscanf` skips before a nickname and which ends a
line; and the array for the sender of a MESSAGE_REQUEST has no room for the NUL of a nickname of
the maximum length (`not_transported`).
-/

namespace Dchat.Chat

open CString Stdio RMP

/-- The checks of `main`. -/
structure Admitted (nickname : Bytes) : Prop where
  no_nul : 0 ∉ nickname
  length_le : nickname.length ≤ maxNicknameLen
  no_separator : ¬ strcspn nickname (str ":@ ") < nickname.length

/-- A nickname that the formats can carry. -/
structure Transportable (nickname : Bytes) : Prop where
  ne_nil : nickname ≠ []
  length_lt : nickname.length < maxNicknameLen
  no_equals : 61 ∉ nickname
  no_newline : 10 ∉ nickname
  no_leading_space : Stops isSpace nickname

/-- A list on which the nickname can be put on the wire: beside it, nicknames and addresses that a
PARTICIPANT_UPDATE can carry, and room in the buffer. -/
structure Context (nickname : Bytes) (sender : Node) (leader : Participant) (notice : Bytes) :
    Prop where
  led : LedBy sender leader
  member : ∃ p ∈ sender.participants, p.nickname = nickname
  nicknames : ∀ p ∈ sender.participants, p.nickname ≠ nickname → p.Plain
  addresses : ∀ p ∈ sender.participants, IsIpAddress p.ipAddress ∧ IsPortNum p.portNum
  fits : (updateText leader.toPeer sender.participants notice).length < maxBufferLen

/-- Every format is read back, whatever the local variables of the receiver held before. -/
structure Transported (nickname payload : Bytes) (id : ℤ) (sender : Node) (leader : Participant)
    (notice : Bytes) : Prop where
  addMe : ∀ locals, scanCommand locals (addMeCmd nickname) = .ok (messageAddMe, nickname)
  request : ∀ locals, ∃ rest payload',
    scanCommand locals (snprintf maxBufferLen (requestText nickname payload)) =
      .ok (messageRequest, rest) ∧
    scanRequest locals rest = .ok (nickname, payload')
  broadcast : ∀ locals, ∃ rest payload',
    scanCommand locals (snprintf maxBufferLen (broadcastText id nickname payload)) =
      .ok (messageBroadcast, rest) ∧
    scanBroadcast locals rest = .ok (id, nickname, payload')
  update : ∀ receiver joining, ∃ command receiver',
    generateParticipantUpdate sender maxBufferLen notice = .ok command ∧
    processParticipantUpdate receiver command joining = .ok receiver' ∧
    receiver'.participants.map (fun p => p.fields) =
      leader.fields :: (others sender.participants).map fun p => p.fields

theorem Admitted.bytes {nickname : Bytes} (h : Admitted nickname) :
    ∀ c ∈ nickname, isNicknameByte c = true := by
  have hall : (nickname.takeWhile fun c => !(str ":@ ").contains c) = nickname := by
    have hpre : (nickname.takeWhile fun c => !(str ":@ ").contains c) <+: nickname :=
      List.takeWhile_prefix _
    exact hpre.eq_of_length_le (Nat.not_lt.1 h.no_separator)
  intro c hc
  rw [← hall] at hc
  have hp := List.mem_takeWhile_imp hc
  have hperm : (str ":@ ").contains c = (str "@: ").contains c := by
    rw [Bool.eq_iff_iff]
    simp only [List.contains_iff_mem, str]
    exact (show (str ":@ ").Perm (str "@: ") by decide).mem_iff
  rwa [isNicknameByte, ← hperm]

theorem Transportable.plain {p : Peer} (h : Transportable p.nickname) (hadm : Admitted p.nickname)
    (hip : IsIpAddress p.ipAddress) (hport : IsPortNum p.portNum) : p.Plain :=
  ⟨⟨h.ne_nil, hadm.length_le, hadm.bytes, hip, hport⟩, h.no_equals⟩

/-! ## What is written -/

theorem addMeCmd_eq {nickname : Bytes} (h : nickname.length ≤ maxNicknameLen) :
    addMeCmd nickname = messageAddMe ++ 32 :: nickname := by
  have h6 : messageAddMe.length = 6 := by decide
  have hlt : (messageAddMe ++ 32 :: nickname).length < 29 := by
    rw [List.length_append, List.length_cons, h6]
    simp only [maxNicknameLen] at h
    omega
  have heq : messageAddMe ++ str " " ++ nickname = messageAddMe ++ 32 :: nickname := by simp [str]
  rw [addMeCmd, heq, snprintf_of_lt hlt]

/-- The nickname is in the part of a MESSAGE_REQUEST that fits its buffer. -/
theorem requestText_eq {nickname : Bytes} (h : nickname.length ≤ maxNicknameLen) (payload : Bytes) :
    ∃ k, k + nickname.length + 19 = maxBufferLen ∧
      snprintf maxBufferLen (requestText nickname payload) =
        messageRequest ++ 32 :: (nickname ++ 61 :: 32 :: payload.take k) := by
  have h15 : messageRequest.length = 15 := by decide
  simp only [maxNicknameLen] at h
  have heq : requestText nickname payload =
      (messageRequest ++ 32 :: (nickname ++ [61, 32])) ++ payload := by simp [requestText, str]
  have hlen : (messageRequest ++ 32 :: (nickname ++ [61, 32])).length = nickname.length + 18 := by
    simp only [List.length_append, List.length_cons, List.length_nil, h15]
    omega
  refine ⟨maxBufferLen - 1 - (nickname.length + 18), ?_, ?_⟩
  · simp only [maxBufferLen]
    omega
  · rw [heq, snprintf_append _ (by simp only [hlen, maxBufferLen]; omega), hlen]
    simp

/-- The nickname is in the part of a MESSAGE_BROADCAST that fits its buffer. -/
theorem broadcastText_eq {nickname : Bytes} (h : nickname.length ≤ maxNicknameLen)
    (payload : Bytes) {id : ℤ} (hlo : -2147483648 ≤ id) (hhi : id < 2147483648) :
    ∃ k, k + (decimalInt id).length + nickname.length + 22 = maxBufferLen ∧
      snprintf maxBufferLen (broadcastText id nickname payload) =
        messageBroadcast ++ 32 :: (decimalInt id ++ 32 :: (nickname ++ 61 :: 32 ::
          payload.take k)) := by
  have h17 : messageBroadcast.length = 17 := by decide
  have h11 := length_decimalInt_le hlo hhi
  simp only [maxNicknameLen] at h
  have heq : broadcastText id nickname payload =
      (messageBroadcast ++ 32 :: (decimalInt id ++ 32 :: (nickname ++ [61, 32]))) ++ payload := by
    simp [broadcastText, str]
  have hlen : (messageBroadcast ++ 32 :: (decimalInt id ++ 32 :: (nickname ++ [61, 32]))).length =
      (decimalInt id).length + nickname.length + 21 := by
    simp only [List.length_append, List.length_cons, List.length_nil, h17]
    omega
  refine ⟨maxBufferLen - 1 - ((decimalInt id).length + nickname.length + 21), ?_, ?_⟩
  · simp only [maxBufferLen]
    omega
  · rw [heq, snprintf_append _ (by simp only [hlen, maxBufferLen]; omega), hlen]
    simp

/-! ## What is read -/

section Reading

variable {locals : Locals} {nickname : Bytes}

theorem mem_line {c : UInt8} (h : c ≠ 10) : isLineByte c = true := by simpa [isLineByte] using h

/-- The part of a line up to its end, behind a nickname. -/
theorem takeWhile_line (h : 10 ∉ nickname) (payload : Bytes) :
    (nickname ++ 61 :: 32 :: payload).takeWhile isLineByte =
      nickname ++ 61 :: 32 :: payload.takeWhile isLineByte := by
  rw [List.takeWhile_append_of_pos fun c hc => mem_line fun h10 => h (h10 ▸ hc)]
  rfl

theorem not_separator {c : UInt8} (h32 : c ≠ 32) (h61 : c ≠ 61) :
    (!(str " =").contains c) = true ∧ (!(str "= ").contains c) = true := by
  simp [str, h32, h61]

/-- What an array holds after the last conversion of a line, if it held `before`. -/
def lastField (before line : Bytes) : Bytes :=
  let word := (line.dropWhile isSpace).takeWhile isLineByte
  if word = [] then before else word

/-- The last conversion, behind a blank. -/
theorem sscanf_lastField {size : ℕ} {line : Bytes} (h : line.length + 1 < size) :
    ∃ r, sscanf [.white, .set isLineByte size] (32 :: line) = .ok r ∧
      ∀ before, r.text 0 before = lastField before line := by
  obtain ⟨r, hr, hassigned⟩ := sscanf_last (p := isLineByte) (s := 32 :: line) h
  refine ⟨r, hr, fun before => ?_⟩
  rw [List.dropWhile_cons_of_pos (by decide)] at hassigned
  rw [Scan.text, hassigned, lastField]
  by_cases hword : (line.dropWhile isSpace).takeWhile isLineByte = []
  · simp only [hword, if_true, List.getElem?_nil]
  · simp only [hword, if_false, List.getElem?_cons_zero]

/-- A command and the rest of its line, which begins behind any white space. -/
theorem scanCommand_lastField {word arg : Bytes} (hne : word ≠ [])
    (hw : (word.all fun c => !isSpace c) = true) (hlen : word.length < 20)
    (hfit : arg.length < maxBufferLen) :
    scanCommand locals (word ++ 32 :: arg) = .ok (word, lastField locals.rest arg) := by
  obtain ⟨r, hr, hlast⟩ := sscanf_lastField (Nat.succ_lt_succ hfit)
  rw [scanCommand, commandFormat, sscanf_str hne hw hlen ((stops_cons ..).2 (by decide)), hr,
    ← hlast]
  change (if (Scan.cons (.text word) r).ret = eof then _ else _) = _
  rw [if_neg (Scan.ret_cons_ne_eof _ _)]
  rfl

theorem scanRequest_nickname (hne : nickname ≠ []) (h32 : 32 ∉ nickname) (h61 : 61 ∉ nickname)
    (hlen : nickname.length < maxNicknameLen) {payload : Bytes}
    (hp : payload.length + 1 < maxBufferLen) :
    scanRequest locals (nickname ++ 61 :: 32 :: payload) =
      .ok (nickname, lastField locals.payload payload) := by
  have hbytes : ∀ c ∈ nickname, (!(str " =").contains c) = true := fun c hc =>
    (not_separator (fun h => h32 (h ▸ hc)) fun h => h61 (h ▸ hc)).1
  obtain ⟨r, hr, hlast⟩ := sscanf_lastField hp
  have hscan : sscanf requestFormat (nickname ++ 61 :: 32 :: payload) =
      .ok (r.cons (.text nickname)) := by
    rw [requestFormat, sscanf_set hne hbytes hlen ((stops_cons ..).2 (by decide)), sscanf_lit, hr]
    rfl
  rw [scanRequest, hscan, Fault.ok_bind, if_neg (Scan.ret_cons_ne_eof _ _),
    ← hlast]
  rfl

theorem scanBroadcast_nickname (hne : nickname ≠ []) (h32 : 32 ∉ nickname) (h61 : 61 ∉ nickname)
    (hlen : nickname.length ≤ maxNicknameLen) (hspace : Stops isSpace nickname) {payload : Bytes}
    (hp : payload.length < maxBufferLen) {id : ℤ} (hlo : -2147483648 ≤ id)
    (hhi : id < 2147483648) :
    scanBroadcast locals (decimalInt id ++ 32 :: (nickname ++ 61 :: 32 :: payload)) =
      .ok (id, nickname, lastField locals.payload payload) := by
  have hbytes : ∀ c ∈ nickname, (!(str "= ").contains c) = true := fun c hc =>
    (not_separator (fun h => h32 (h ▸ hc)) fun h => h61 (h ▸ hc)).2
  obtain ⟨r, hr, hlast⟩ := sscanf_lastField (Nat.succ_lt_succ hp)
  have hblank : ∀ ds, sscanf (.white :: ds) (32 :: (nickname ++ 61 :: 32 :: payload)) =
      sscanf ds (nickname ++ 61 :: 32 :: payload) := fun ds =>
    sscanf_white (show [32].all isSpace = true by decide) ((stops_append hne _).2 hspace)
  have hscan : sscanf broadcastFormat (decimalInt id ++ 32 :: (nickname ++ 61 :: 32 :: payload)) =
      .ok ((r.cons (.text nickname)).cons (.int id)) := by
    rw [broadcastFormat, sscanf_int hlo hhi ((stops_cons ..).2 (by decide)), hblank,
      sscanf_set hne hbytes (Nat.lt_add_one_of_le hlen) ((stops_cons ..).2 (by decide)), sscanf_lit,
      hr]
    rfl
  rw [scanBroadcast, hscan, Fault.ok_bind, if_neg (Scan.ret_cons_ne_eof _ _),
    ← hlast]
  rfl

theorem length_takeWhile_take_le (payload : Bytes) (k : ℕ) :
    ((payload.take k).takeWhile isLineByte).length ≤ k := by
  have hpre : (payload.take k).takeWhile isLineByte <+: payload.take k := List.takeWhile_prefix _
  have hle := hpre.length_le
  rw [List.length_take] at hle
  omega

theorem scanCommand_addMe (hlen : nickname.length ≤ maxNicknameLen) (hne : nickname ≠ [])
    (h10 : 10 ∉ nickname) (hspace : Stops isSpace nickname) :
    scanCommand locals (addMeCmd nickname) = .ok (messageAddMe, nickname) := by
  have hall : nickname.takeWhile isLineByte = nickname := by
    have hline : ∀ c ∈ nickname, isLineByte c = true := fun c hc => mem_line fun h => h10 (h ▸ hc)
    simpa using takeWhile_append_of_stops hline (stops_nil _)
  have hfit : nickname.length < maxBufferLen + 1 := Nat.lt_of_le_of_lt hlen (by decide)
  have hscan : scanCommand locals (messageAddMe ++ 32 :: nickname) =
      .ok (messageAddMe, nickname.takeWhile isLineByte) :=
    scanCommand_argument (by decide) (by decide) (by decide) (by rwa [hall]) hspace hfit
  rw [addMeCmd_eq hlen, hscan, hall]

theorem scanCommand_requestText (hlen : nickname.length ≤ maxNicknameLen) (hne : nickname ≠ [])
    (h10 : 10 ∉ nickname) (hspace : Stops isSpace nickname) (payload : Bytes) :
    ∃ k, k + nickname.length + 19 = maxBufferLen ∧ ∀ locals,
      scanCommand locals (snprintf maxBufferLen (requestText nickname payload)) =
        .ok (messageRequest, nickname ++ 61 :: 32 :: (payload.take k).takeWhile isLineByte) := by
  obtain ⟨k, hk, hrequest⟩ := requestText_eq hlen payload
  refine ⟨k, hk, fun locals => ?_⟩
  rw [hrequest, ← takeWhile_line h10]
  refine scanCommand_argument (by decide) (by decide) (by decide) ?_
    ((stops_append hne _).2 hspace) ?_
  · rw [takeWhile_line h10]
    simp
  · simp only [List.length_append, List.length_cons, List.length_take]
    omega

/-- The number of a MESSAGE_BROADCAST is on its first line. -/
theorem scanCommand_broadcast {id : ℤ} {arg : Bytes}
    (hfit : (decimalInt id).length + arg.length < maxBufferLen) :
    scanCommand locals (messageBroadcast ++ 32 :: (decimalInt id ++ 32 :: arg)) =
      .ok (messageBroadcast, decimalInt id ++ 32 :: arg.takeWhile isLineByte) := by
  have hdec : ∀ c ∈ decimalInt id, isLineByte c = true := by
    intro c hc
    refine mem_line ?_
    rintro rfl
    exact absurd (eq_or_isDigit_of_mem_decimalInt hc) (by decide)
  have hline : (decimalInt id ++ 32 :: arg).takeWhile isLineByte =
      decimalInt id ++ 32 :: arg.takeWhile isLineByte := by
    rw [List.takeWhile_append_of_pos hdec]
    rfl
  have hne := decimalInt_ne_nil id
  rw [← hline]
  refine scanCommand_argument (by decide) (by decide) (by decide) ?_
    ((stops_append hne _).2 (stops_decimalInt id)) ?_
  · rw [hline]
    simp [hne]
  · simp only [List.length_append, List.length_cons]
    omega

theorem scanCommand_broadcastText (hlen : nickname.length ≤ maxNicknameLen)
    (h10 : 10 ∉ nickname) (payload : Bytes) {id : ℤ} (hlo : -2147483648 ≤ id)
    (hhi : id < 2147483648) :
    ∃ k, k + (decimalInt id).length + nickname.length + 22 = maxBufferLen ∧ ∀ locals,
      scanCommand locals (snprintf maxBufferLen (broadcastText id nickname payload)) =
        .ok (messageBroadcast, decimalInt id ++ 32 :: (nickname ++ 61 :: 32 ::
          (payload.take k).takeWhile isLineByte)) := by
  obtain ⟨k, hk, hbroadcast⟩ := broadcastText_eq hlen payload hlo hhi
  refine ⟨k, hk, fun locals => ?_⟩
  rw [hbroadcast, ← takeWhile_line h10]
  refine scanCommand_broadcast ?_
  simp only [List.length_append, List.length_cons, List.length_take]
  omega

end Reading

/-! ## Nicknames that are transported are transportable -/

/-- Local variables that hold nothing like the nickname. -/
def otherLocals (nickname : Bytes) : Locals where
  rest := 1 :: nickname
  senderNickname := 1 :: nickname
  payload := []
  plaintext := []
  ciphertext := []
  messageId := 0
  address := ⟨0, 0⟩

/-- What an ADD_ME needs. -/
theorem of_addMe {nickname : Bytes} (hlen : nickname.length ≤ maxNicknameLen)
    (h : scanCommand (otherLocals nickname) (addMeCmd nickname) = .ok (messageAddMe, nickname)) :
    nickname ≠ [] ∧ 10 ∉ nickname ∧ Stops isSpace nickname := by
  rw [addMeCmd_eq hlen, scanCommand, commandFormat,
    sscanf_str (by decide) (by decide) (by decide) ((stops_cons ..).2 (by decide))] at h
  obtain ⟨r, hr, h⟩ := Fault.bind_eq_ok.1 h
  split at h
  · cases h
  have hrest := (Prod.mk.inj (Except.ok.inj h)).2
  cases hscan : sscanf [.white, .set isLineByte (maxBufferLen + 1)] (32 :: nickname) with
  | error e =>
    rw [hscan] at hr
    cases hr
  | ok r' =>
    rw [hscan] at hr
    obtain rfl := Except.ok.inj hr
    rw [sscanf_cons_white, List.dropWhile_cons_of_pos (by decide)] at hscan
    by_cases hempty : r'.assigned = []
    · -- nothing was read, and the array still holds something else
      have hjunk : (Scan.cons (.text messageAddMe) r').text 1 (otherLocals nickname).rest =
          1 :: nickname := by simp [Scan.text, Scan.cons, hempty, otherLocals]
      exact absurd (congrArg List.length (hjunk.symm.trans hrest)) (by simp)
    · obtain ⟨hword, -, r'', -, rfl⟩ := sscanf_set_eq_ok hscan hempty
      have hread : (nickname.dropWhile isSpace).takeWhile isLineByte = nickname := hrest
      have hpre : (nickname.dropWhile isSpace).takeWhile isLineByte <+: nickname.dropWhile isSpace :=
        List.takeWhile_prefix _
      have hsuf : nickname.dropWhile isSpace <:+ nickname := List.dropWhile_suffix _
      have hdrop : nickname.dropWhile isSpace = nickname := by
        refine hsuf.eq_of_length_le ?_
        calc nickname.length = ((nickname.dropWhile isSpace).takeWhile isLineByte).length := by
              rw [hread]
          _ ≤ (nickname.dropWhile isSpace).length := hpre.length_le
      refine ⟨fun hnil => hword (hread.trans hnil), fun h10 => ?_, ?_⟩
      · rw [← hread] at h10
        exact absurd (List.mem_takeWhile_imp h10) (by decide)
      · cases hn : nickname with
        | nil => exact stops_nil _
        | cons c t =>
          rw [hn, List.dropWhile_cons] at hdrop
          refine (stops_cons ..).2 ?_
          by_contra hc
          rw [if_pos (by simpa using hc)] at hdrop
          have hle : (t.dropWhile isSpace).length ≤ t.length := (List.dropWhile_suffix _).length_le
          have := congrArg List.length hdrop
          rw [List.length_cons] at this
          omega

/-- What a MESSAGE_REQUEST needs. -/
theorem of_scanRequest {nickname payload payload' : Bytes}
    (h : scanRequest (otherLocals nickname) (nickname ++ 61 :: 32 :: payload) =
      .ok (nickname, payload')) : 61 ∉ nickname ∧ nickname.length < maxNicknameLen := by
  obtain ⟨r, hr, h⟩ := Fault.bind_eq_ok.1 h
  split at h
  · cases h
  have hnick := (Prod.mk.inj (Except.ok.inj h)).1
  by_cases hempty : r.assigned = []
  · have hjunk : r.text 0 (otherLocals nickname).senderNickname = 1 :: nickname := by
      simp [Scan.text, hempty, otherLocals]
    exact absurd (congrArg List.length (hjunk.symm.trans hnick)) (by simp)
  · obtain ⟨-, hlen, r', -, rfl⟩ := sscanf_set_eq_ok hr hempty
    have hword : (nickname ++ 61 :: 32 :: payload).takeWhile
        (fun c => !(str " =").contains c) = nickname := hnick
    rw [hword] at hlen
    refine ⟨fun h61 => ?_, hlen⟩
    rw [← hword] at h61
    exact absurd (List.mem_takeWhile_imp h61) (by decide)

/-- **The transported nicknames are the transportable ones**: for every nickname that `main` admits,
every payload and id, and every list and notice it can be sent with. -/
theorem transported_iff {nickname : Bytes} (hadm : Admitted nickname) (payload : Bytes) {id : ℤ}
    (hlo : -2147483648 ≤ id) (hhi : id < 2147483648) {sender : Node} {leader : Participant}
    {notice : Bytes} (hctx : Context nickname sender leader notice) :
    Transported nickname payload id sender leader notice ↔ Transportable nickname := by
  have h32 : 32 ∉ nickname := fun h => absurd (hadm.bytes 32 h) (by decide)
  have hlen := hadm.length_le
  constructor
  · intro h
    obtain ⟨hne, h10, hspace⟩ := of_addMe hlen (h.addMe (otherLocals nickname))
    obtain ⟨k, -, hcommand⟩ := scanCommand_requestText hlen hne h10 hspace payload
    obtain ⟨rest, payload', hscan, hreq⟩ := h.request (otherLocals nickname)
    rw [hcommand] at hscan
    obtain ⟨-, rfl⟩ := Prod.mk.inj (Except.ok.inj hscan)
    obtain ⟨h61, hlt⟩ := of_scanRequest hreq
    exact ⟨hne, hlt, h61, h10, hspace⟩
  · intro h
    have hplain : ∀ p ∈ sender.participants, p.Plain := by
      intro p hp
      obtain ⟨hip, hport⟩ := hctx.addresses p hp
      by_cases hn : p.nickname = nickname
      · exact Transportable.plain (hn ▸ h) (hn ▸ hadm) hip hport
      · exact hctx.nicknames p hp hn
    constructor
    · exact fun locals => scanCommand_addMe hlen h.ne_nil h.no_newline h.no_leading_space
    · intro locals
      obtain ⟨k, hk, hcommand⟩ :=
        scanCommand_requestText hlen h.ne_nil h.no_newline h.no_leading_space payload
      have hfit := length_takeWhile_take_le payload k
      exact ⟨_, _, hcommand locals,
        scanRequest_nickname h.ne_nil h32 h.no_equals h.length_lt (by omega)⟩
    · intro locals
      obtain ⟨k, hk, hcommand⟩ :=
        scanCommand_broadcastText hlen h.no_newline payload hlo hhi
      have hfit := length_takeWhile_take_le payload k
      exact ⟨_, _, hcommand locals, scanBroadcast_nickname h.ne_nil h32 h.no_equals hlen
        h.no_leading_space (by omega) hlo hhi⟩
    · intro receiver joining
      obtain ⟨receiver', q, qs, hproc, hd⟩ := decoded_updateText (hplain leader hctx.led.mem)
        (fun p hp => hplain p (mem_others.1 hp).1) notice receiver joining
      refine ⟨_, receiver', ?_, hproc, ?_⟩
      · rw [generateParticipantUpdate_eq hctx.led.pointer (by decide), if_pos hctx.fits]
      · rw [hd.participants, List.map_cons, hd.first, hd.others]

theorem transported_iff_pair :
    Transported (str "a") (str "x") 0 pairNode pairLeader (str "NOTICE") ↔
      Transportable (str "a") :=
  transported_iff ⟨by decide, by decide, by decide⟩ _ (by decide) (by decide)
    { led := encodable_pairNode.led
      member := ⟨⟨⟨0, str "a", str "127.0.0.1", str "81"⟩, false⟩, by decide, rfl⟩
      nicknames := fun p hp _ => encodable_pairNode.plain p hp
      addresses := fun p hp =>
        ⟨(encodable_pairNode.plain p hp).ip, (encodable_pairNode.plain p hp).port⟩
      fits := encodable_pairNode.fits }

/-- The list of the leader `b` with a participant `a=b`. -/
def equalsNode : Node :=
  { pairNode with
    participants := [⟨⟨0, str "a=b", str "127.0.0.1", str "81"⟩, false⟩, pairLeader] }

/-- The nickname `a=b` is admitted, and the leader takes a MESSAGE_REQUEST with it for one of
`a`. -/
theorem not_transported : ¬ ∀ nickname payload id sender leader notice, Admitted nickname →
    -2147483648 ≤ id → id < 2147483648 → Context nickname sender leader notice →
    Transported nickname payload id sender leader notice := by
  intro h
  have hctx : Context (str "a=b") equalsNode pairLeader (str "NOTICE") := by
    have haddr : ∀ p ∈ equalsNode.participants, IsIpAddress p.ipAddress ∧ IsPortNum p.portNum := by
      decide
    have hothers : ∀ p ∈ equalsNode.participants, p.nickname ≠ str "a=b" → p.Plain := by decide
    exact ⟨⟨by decide, by decide⟩, by decide, hothers, haddr, by decide⟩
  obtain ⟨rest, payload', hscan, hread⟩ := (h (str "a=b") (str "x") 0 equalsNode pairLeader
    (str "NOTICE") ⟨by decide, by decide, by decide⟩ (by decide) (by decide) hctx).request
      (otherLocals [])
  have hrest : scanCommand (otherLocals []) (snprintf maxBufferLen (requestText (str "a=b")
      (str "x"))) = .ok (messageRequest, str "a=b= x") := rfl
  obtain ⟨-, rfl⟩ := Prod.mk.inj (Except.ok.inj (hrest.symm.trans hscan))
  have hnick : scanRequest (otherLocals []) (str "a=b= x") = .ok (str "a", str "b= x") := rfl
  have heq := (Prod.mk.inj (Except.ok.inj (hnick.symm.trans hread))).1
  exact absurd heq (by decide)

end Dchat.Chat
