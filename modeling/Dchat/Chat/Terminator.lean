import Dchat.Chat.Fidelity
import Dchat.Chat.Payload

/-!
# Where the terminator of a line is lost

`recv_stdin` encrypts the NUL in place of the newline as the last byte of a line. `decrypt` writes a
NUL for a message if this byte, or another one that equals its byte of the key, is still in the
payload that was scanned; otherwise `printf` goes on behind what was written.

* `writesNul_iff`: `decrypt` writes a NUL for a byte that equals its byte of the key.
* `terminatedByReceivers_iff` and `terminatedByLeader_iff`: what has to be left of a message for
  that, in the text behind the command.
* `terminated_iff`: the nicknames, lines and numbers for which the terminator arrives, at whoever
  receives the broadcast of a leader, at a leader that receives a request, and at whoever receives
  what that leader passes on.
* `not_terminated`: a line of the maximum length is cut before its terminator.
-/

namespace Dchat.Chat

open CString Stdio RMP Encryption

/-! ## The property -/

/-- `decrypt` writes a NUL into `plaintext_buffer`. -/
def WritesNul (payload : Bytes) : Prop := 0 ∈ (decrypt payload encryptionKey maxBufferLen).2

/-- Whoever receives the message without being the leader decrypts a payload and writes a NUL. -/
def TerminatedByReceivers (message : Bytes) : Prop :=
  ∀ locals, ∃ rest id sender payload, scanCommand locals message = .ok (messageBroadcast, rest) ∧
    scanBroadcast locals rest = .ok (id, sender, payload) ∧ WritesNul payload

/-- A leader that receives the message decrypts a payload and writes a NUL. -/
def TerminatedByLeader (message : Bytes) : Prop :=
  ∀ locals, ∃ rest sender payload, scanCommand locals message = .ok (messageRequest, rest) ∧
    scanRequest locals rest = .ok (sender, payload) ∧ WritesNul payload

/-- So does whoever receives what a leader with this number makes of the message. -/
def TerminatedRelayed (clock : ℤ) (message : Bytes) : Prop :=
  ∀ locals rest sender payload, scanCommand locals message = .ok (messageRequest, rest) →
    scanRequest locals rest = .ok (sender, payload) →
    TerminatedByReceivers (snprintf 1024 (broadcastText clock sender payload))

/-- The string in `ciphertext_buffer` for a line, whose last byte has been replaced by a NUL. -/
def typedCiphertext (locals : Locals) (text : Bytes) : Bytes :=
  cString (ciphertext text ++ locals.ciphertext.drop (ciphertext text).length)

/-- The MESSAGE_BROADCAST of `recv_stdin`. -/
def typedBroadcast (locals : Locals) (clock : ℤ) (nickname text : Bytes) : Bytes :=
  snprintf maxBufferLen (broadcastText clock nickname (typedCiphertext locals text))

/-- The MESSAGE_REQUEST of `recv_stdin`. -/
def typedRequest (locals : Locals) (nickname text : Bytes) : Bytes :=
  snprintf maxBufferLen (requestText nickname (typedCiphertext locals text))

theorem recvStdin_leader {env : Env} {locals : Locals} {s : Node} (hs : s.isLeader = true)
    (text : Bytes) : recvStdin env locals s (text ++ [0]) = (incrClock s >>= fun (clock, s) =>
      leaderBroadcastMessage env s (typedBroadcast locals clock s.thisNickname text) >>= fun s =>
        .ok (s.print (s.thisNickname ++ str ":: " ++ cString (text ++ [0])))) := by
  rw [recvStdin, if_pos hs]
  rfl

theorem recvStdin_request {env : Env} {locals : Locals} {s : Node} (hs : s.isLeader = false)
    (text : Bytes) : recvStdin env locals s (text ++ [0]) = (getLeaderAddr env locals s >>= fun dst =>
      let (status, s) := s.rmpSendTo env dst (typedRequest locals s.thisNickname text)
      if status = rmpETimeout then startElection env s
      else if status < 0 then .error .exit
      else .ok s) := by
  rw [recvStdin, if_neg (by simp [hs])]
  rfl

/-! ## What is decrypted -/

theorem keyByte_props (i : ℕ) : keyByte i ≠ 0 ∧ keyByte i ≠ 10 ∧ isSpace (keyByte i) = false := by
  have hkey : ∀ j < encryptionKey.length, encryptionKey.getD j 0 ≠ 0 ∧
      encryptionKey.getD j 0 ≠ 10 ∧ isSpace (encryptionKey.getD j 0) = false := by decide
  exact hkey _ (Nat.mod_lt _ (by decide))

/-- **A NUL is written** for a byte of the payload that equals its byte of the key. -/
theorem writesNul_iff {payload : Bytes} (h : payload.length ≤ maxBufferLen) :
    WritesNul payload ↔ ∃ text, text ++ [keyByte text.length] <+: payload := by
  have hfit : 0 + payload.length ≤ maxBufferLen := by omega
  have hget : ∀ j, (decrypt payload encryptionKey maxBufferLen).2[j]? =
      payload[j]?.map fun c => c - keyByte j := by
    intro j
    rw [decrypt, cipherLoop_eq_mapIdx _ _ hfit, List.getElem?_mapIdx]
    simp only [Nat.zero_add]
    rfl
  constructor
  · intro hzero
    obtain ⟨j, hj⟩ := List.mem_iff_getElem?.1 hzero
    rw [hget] at hj
    obtain ⟨c, hc, hsub⟩ := Option.map_eq_some_iff.1 hj
    have hkey : c = keyByte j := by simpa using congrArg (· + keyByte j) hsub
    obtain ⟨hlt, hcj⟩ := List.getElem?_eq_some_iff.1 hc
    have hlen : (payload.take j).length = j := by
      rw [List.length_take]
      omega
    refine ⟨payload.take j, ?_⟩
    rw [hlen, ← hkey, ← hcj, List.take_concat_get' payload j hlt]
    exact List.take_prefix _ _
  · rintro ⟨text, rest, rfl⟩
    refine List.mem_iff_getElem?.2 ⟨text.length, ?_⟩
    rw [hget, List.append_assoc, List.getElem?_append_right (Nat.le_refl _), Nat.sub_self]
    simp

/-- No NUL is written for an array that was empty and stays so. -/
theorem exists_of_writesNul_getD {o : Option Bytes} (h : WritesNul (o.getD [])) :
    ∃ f, o = some f ∧ WritesNul f := by
  cases o with
  | none => cases h
  | some f => exact ⟨f, rfl, h⟩

/-- **What is printed has been written** by `decrypt`, if it wrote a NUL. -/
theorem decryptedText_of_writesNul {payload : Bytes} (h : WritesNul payload) (locals : Locals) :
    decryptedText locals payload = cString (decrypt payload encryptionKey maxBufferLen).2 := by
  have hcut : ∀ {s : Bytes} (rest : Bytes), 0 ∈ s → cString (s ++ rest) = cString s := by
    intro s rest hs
    induction s with
    | nil => cases hs
    | cons c s ih =>
      rw [cString, cString, List.cons_append, List.takeWhile_cons, List.takeWhile_cons]
      split
      · next hc =>
        have hne : c ≠ 0 := by simpa using hc
        exact congrArg (c :: ·) (ih ((List.mem_cons.1 hs).resolve_left hne.symm))
      · rfl
  exact hcut _ h

/-- What a receiver prints. -/
theorem chatStep_of_terminatedByReceivers {message : Bytes} (h : TerminatedByReceivers message)
    (env : Env) (locals : Locals) {r : Node} (src : RmpAddress) (hr : r.isLeader = false) :
    ∃ id sender payload, chatStep env locals r (.receive message src) =
      some (.ok (({ r with clockNum := id } : Node).print
        (messageLine sender (cString (decrypt payload encryptionKey maxBufferLen).2)))) := by
  obtain ⟨rest, id, sender, payload, hrest, hpayload, hnul⟩ := h locals
  refine ⟨id, sender, payload, ?_⟩
  rw [chatStep_receive_nonLeader hr, nonLeaderReceiveMessage, hrest, Fault.ok_bind]
  dsimp only
  rw [if_pos (by decide), nonLeaderReceiveBroadcast, hpayload, Fault.ok_bind]
  dsimp only
  rw [decryptedText_of_writesNul hnul]
  rfl

/-- What a leader prints of a request. -/
theorem chatStep_of_terminatedByLeader {message : Bytes} (h : TerminatedByLeader message)
    {env : Env} {locals : Locals} {l l' : Node} {src : RmpAddress} (hl : l.isLeader = true)
    (hstep : chatStep env locals l (.receive message src) = some (.ok l')) :
    ∃ sender payload, l'.printed.getLast? =
      some (messageLine sender (cString (decrypt payload encryptionKey maxBufferLen).2)) := by
  obtain ⟨rest, sender, payload, hrest, hpayload, hnul⟩ := h locals
  refine ⟨sender, payload, ?_⟩
  rw [chatStep_receive_leader hl, leaderReceiveMessage, hrest, Fault.ok_bind] at hstep
  dsimp only at hstep
  rw [if_neg (by decide), if_pos (by decide), leaderReceiveRequest, hpayload, Fault.ok_bind]
    at hstep
  obtain ⟨⟨clock, l₁⟩, -, hstep⟩ := Fault.bind_eq_ok.1 (Option.some.inj hstep)
  obtain ⟨l₂, -, hstep⟩ := Fault.bind_eq_ok.1 hstep
  obtain rfl := Except.ok.inj hstep
  rw [decryptedText_of_writesNul hnul]
  exact List.getLast?_concat

/-! ## What is scanned -/

/-- A nickname, a payload and the byte of it that becomes a NUL. -/
def ended (sender blank text : Bytes) : Bytes :=
  sender ++ 61 :: (blank ++ (text ++ [keyByte text.length]))

theorem length_ended (sender blank text : Bytes) :
    (ended sender blank text).length = sender.length + blank.length + text.length + 2 := by
  simp only [ended, List.length_append, List.length_cons, List.length_nil]
  omega

theorem ended_ne_nil (sender blank text : Bytes) : ended sender blank text ≠ [] := by
  simp [ended]

theorem stops_ended {sender : Bytes} (h : sender ≠ []) (blank text : Bytes) :
    Stops isSpace (ended sender blank text) ↔ Stops isSpace sender := stops_append h _

/-- **A payload is read in which a NUL is found**, on a line without its end. -/
theorem exists_payloadOf_iff {p : UInt8 → Bool} (h61 : p 61 = false) {t : Bytes}
    (hline : ∀ c ∈ t, isLineByte c = true) (P : Bytes → Bytes → Prop) :
    (∃ f, payloadOf p t = some f ∧
        ∃ text, text ++ [keyByte text.length] <+: f ∧ P (t.takeWhile p) text) ↔
      ∃ word blank text, ended word blank text <+: t ∧ word ≠ [] ∧ (∀ c ∈ word, p c = true) ∧
        (∀ c ∈ blank, isSpace c = true) ∧ Stops isSpace (text ++ [keyByte text.length]) ∧
          P word text := by
  have hend : ∀ s, Stops p (61 :: s) := fun s => (stops_cons ..).2 h61
  constructor
  · rintro ⟨f, hf, text, htext, hP⟩
    obtain ⟨word, blank, rfl, hword, hp, hblank, -, hstops⟩ :=
      (payloadOf_eq_some_iff h61 hline).1 hf
    rw [takeWhile_append_of_stops hp (hend _)] at hP
    obtain ⟨rest, rfl⟩ := htext
    refine ⟨word, blank, text, ⟨rest, ?_⟩, hword, hp, hblank,
      (stops_append (by simp) rest).1 hstops, hP⟩
    simp only [ended, List.append_assoc, List.cons_append]
  · rintro ⟨word, blank, text, ⟨rest, rfl⟩, hword, hp, hblank, hstops, hP⟩
    have hsplit : ended word blank text ++ rest =
        word ++ 61 :: (blank ++ (text ++ [keyByte text.length] ++ rest)) := by
      simp only [ended, List.append_assoc, List.cons_append]
    refine ⟨text ++ [keyByte text.length] ++ rest, (payloadOf_eq_some_iff h61 hline).2
      ⟨word, blank, hsplit, hword, hp, hblank, by simp, (stops_append (by simp) rest).2 hstops⟩,
      text, List.prefix_append _ rest, ?_⟩
    rwa [hsplit, takeWhile_append_of_stops hp (hend _)]

theorem writesNul_payloadOf_iff {p : UInt8 → Bool} (h61 : p 61 = false) {t f : Bytes}
    (hline : ∀ c ∈ t, isLineByte c = true) (hlen : t.length ≤ maxBufferLen)
    (hf : payloadOf p t = some f) :
    WritesNul f ↔ ∃ text, text ++ [keyByte text.length] <+: f := by
  obtain ⟨word, blank, rfl, -⟩ := (payloadOf_eq_some_iff h61 hline).1 hf
  simp only [List.length_append, List.length_cons] at hlen
  exact writesNul_iff (by omega)

/-! ## What has to be left of a message -/

/-- A text that begins with a nickname and a payload, and with a byte of it that becomes a NUL: the
nickname ends at the first `=` and does not consist of white space, the payload begins behind the
white space that follows, and no newline comes in between. -/
structure Ended (w sender blank text : Bytes) : Prop where
  pre : ended sender blank text <+: w
  no_equals : 61 ∉ sender
  named : sender.dropWhile isSpace ≠ []
  white : ∀ c ∈ blank, isSpace c = true
  starts : Stops isSpace (text ++ [keyByte text.length])
  no_newline : 10 ∉ blank ++ text

section Ended

variable {nickname sender blank text s : Bytes}

/-- What comes before the first `=`. -/
theorem prefix_sender (h : sender ++ [61] <+: nickname ++ 61 :: s) (h61 : 61 ∉ sender) :
    sender <+: nickname := by
  have hsender : sender <+: nickname ++ 61 :: s := (List.prefix_append _ _).trans h
  obtain hpre | ⟨rest, rfl⟩ :=
    List.prefix_or_prefix_of_prefix hsender (List.prefix_append nickname (61 :: s))
  · exact hpre
  · cases rest with
    | nil => simp
    | cons c rest =>
      rw [List.append_assoc, List.prefix_append_right_inj, List.cons_append,
        List.cons_prefix_cons] at h
      exact absurd (by simp [h.1]) h61

theorem Ended.prefix_sender (h : Ended (nickname ++ 61 :: s) sender blank text) :
    sender <+: nickname := by
  refine Chat.prefix_sender (s := s) (List.IsPrefix.trans ?_ h.pre) h.no_equals
  rw [ended, List.prefix_append_right_inj, List.cons_prefix_cons]
  exact ⟨rfl, List.nil_prefix⟩

/-- A nickname without a `=` is read as a whole. -/
theorem Ended.eq_nickname (h : Ended (nickname ++ 61 :: s) sender blank text) (h61 : 61 ∉ nickname) :
    sender = nickname ∧ blank ++ (text ++ [keyByte text.length]) <+: s := by
  obtain ⟨rest, rfl⟩ := h.prefix_sender
  have hpre := h.pre
  rw [ended, List.append_assoc, List.prefix_append_right_inj] at hpre
  cases rest with
  | nil =>
    rw [List.nil_append, List.cons_prefix_cons] at hpre
    exact ⟨(List.append_nil sender).symm, hpre.2⟩
  | cons c rest =>
    rw [List.cons_append, List.cons_prefix_cons] at hpre
    exact absurd (by simp [hpre.1]) h61

/-- The blank behind `=` is skipped, and nothing of a payload that begins with no white space. -/
theorem blank_eq (hblank : ∀ c ∈ blank, isSpace c = true)
    (hstarts : Stops isSpace (text ++ [keyByte text.length])) (hs : Stops isSpace s)
    (h : blank ++ (text ++ [keyByte text.length]) <+: 32 :: s) :
    blank = [32] ∧ text ++ [keyByte text.length] <+: s := by
  have hne : text ++ [keyByte text.length] ≠ [] := by simp
  have htext := (prefix_dropWhile_iff hne hstarts).2 ⟨blank, hblank, h⟩
  rw [List.dropWhile_cons_of_pos (by decide), dropWhile_of_stops hs] at htext
  refine ⟨?_, htext⟩
  obtain ⟨rest, hrest⟩ := htext
  cases blank with
  | nil =>
    obtain ⟨rest', h⟩ := h
    have hspace : Stops isSpace ([] ++ (text ++ [keyByte text.length]) ++ rest') :=
      (stops_append hne rest').2 hstarts
    rw [h] at hspace
    exact absurd ((stops_cons ..).1 hspace) (by decide)
  | cons c blank =>
    rw [List.cons_append, List.cons_prefix_cons] at h
    cases blank with
    | nil => rw [h.1]
    | cons d blank =>
      rw [← hrest, List.cons_append] at h
      cases ht : text ++ [keyByte text.length] with
      | nil => exact absurd ht hne
      | cons b t =>
        rw [ht, List.cons_append, List.cons_prefix_cons] at h
        rw [ht] at hstarts
        have hd := hblank d (by simp)
        rw [h.2.1, (stops_cons ..).1 hstarts] at hd
        cases hd

/-- What comes behind white space. -/
theorem ended_prefix_dropWhile_iff {w word : Bytes} (hword : word ≠ []) :
    ended word blank text <+: w.dropWhile isSpace ↔ Stops isSpace word ∧
      ∃ b, (∀ c ∈ b, isSpace c = true) ∧ ended (b ++ word) blank text <+: w := by
  have hwhole : ∀ b, b ++ ended word blank text = ended (b ++ word) blank text := fun b =>
    (List.append_assoc ..).symm
  constructor
  · intro h
    have hstops : Stops isSpace word := by
      obtain ⟨rest, hrest⟩ := h
      have hskipped := stops_dropWhile isSpace w
      rw [← hrest, stops_append (ended_ne_nil word blank text)] at hskipped
      exact (stops_ended hword blank text).1 hskipped
    obtain ⟨b, hb, hpre⟩ := (prefix_dropWhile_iff (ended_ne_nil word blank text)
      ((stops_ended hword blank text).2 hstops)).1 h
    exact ⟨hstops, b, hb, hwhole b ▸ hpre⟩
  · rintro ⟨hstops, b, hb, hpre⟩
    rw [← hwhole] at hpre
    exact (prefix_dropWhile_iff (ended_ne_nil word blank text)
      ((stops_ended hword blank text).2 hstops)).2 ⟨b, hb, hpre⟩

/-- White space, and then a nickname and a payload. -/
theorem ended_of_word {w b word : Bytes} (hb : ∀ c ∈ b, isSpace c = true)
    (hpre : ended (b ++ word) blank text <+: w) (hword : word ≠ []) (hstops : Stops isSpace word)
    (h61 : 61 ∉ word) (hblank : ∀ c ∈ blank, isSpace c = true)
    (hstarts : Stops isSpace (text ++ [keyByte text.length])) (h10 : 10 ∉ blank ++ text) :
    Ended w (b ++ word) blank text ∧ (b ++ word).dropWhile isSpace = word := by
  have hskip : (b ++ word).dropWhile isSpace = word := dropWhile_append_of_stops hb hstops
  refine ⟨⟨hpre, fun h => ?_, ?_, hblank, hstarts, h10⟩, hskip⟩
  · obtain h | h := List.mem_append.1 h
    · exact absurd (hb 61 h) (by decide)
    · exact h61 h
  · rwa [hskip]

/-- The bytes of a nickname and a payload are line bytes. -/
theorem line_ended (hsender : 10 ∉ sender) (h : 10 ∉ blank ++ text) :
    ∀ c ∈ ended sender blank text, isLineByte c = true := by
  intro c hc
  refine mem_line ?_
  rintro rfl
  simp only [ended, List.mem_append, List.mem_cons, List.not_mem_nil, or_false] at hc h
  obtain hc | hc | hc | hc | hc := hc
  · exact hsender hc
  · exact absurd hc (by decide)
  · exact h (.inl hc)
  · exact h (.inr hc)
  · exact (keyByte_props text.length).2.1 hc.symm

/-- A newline among them would be no line byte. -/
theorem no_newline_of_line (h : ∀ c ∈ ended sender blank text, isLineByte c = true) :
    10 ∉ sender ∧ 10 ∉ blank ++ text := by
  refine ⟨fun h10 => ?_, fun h10 => ?_⟩
  · exact absurd (h 10 (List.mem_append_left _ h10)) (by decide)
  · refine absurd (h 10 ?_) (by decide)
    simp only [ended, List.mem_append, List.mem_cons] at h10 ⊢
    tauto

/-- The nickname read has no byte that ends it. -/
theorem Ended.word_bytes (h : Ended (nickname ++ 61 :: s) sender blank text) (h32 : 32 ∉ nickname) :
    ∀ c ∈ sender.dropWhile isSpace, isSenderByte c = true := by
  intro c hc
  have hmem : c ∈ sender := (List.dropWhile_suffix _).subset hc
  refine (not_separator ?_ ?_).2
  · rintro rfl
    exact h32 (h.prefix_sender.subset hmem)
  · rintro rfl
    exact h.no_equals hmem

end Ended

section Messages

variable {nickname s : Bytes}

/-- What a receiver reads. -/
theorem terminatedByReceivers_iff_payloadOf (hlen : nickname.length ≤ maxNicknameLen) {id : ℤ}
    (hlo : -2147483648 ≤ id) (hhi : id < 2147483648) :
    TerminatedByReceivers (snprintf maxBufferLen (broadcastText id nickname s)) ↔
      ∃ f, payloadOf isSenderByte
        ((broadcastLine id (nickname ++ 61 :: 32 :: s)).dropWhile isSpace) = some f ∧
        WritesNul f := by
  have hcommand := scanCommand_broadcastLine (s := s) hlen hlo hhi
  have hscan := scanBroadcast_broadcastLine (s := s) hlen hlo hhi
  constructor
  · intro h
    let stray : Locals := ⟨[], [], [], [], [], 0, ⟨0, 0⟩⟩
    obtain ⟨rest, id', sender, payload, hrest, hpayload, hnul⟩ := h stray
    obtain ⟨-, rfl⟩ := Prod.mk.inj (Except.ok.inj ((hcommand stray).symm.trans hrest))
    obtain ⟨sender', hread⟩ := hscan stray
    obtain ⟨-, hread⟩ := Prod.mk.inj (Except.ok.inj (hread.symm.trans hpayload))
    obtain ⟨-, rfl⟩ := Prod.mk.inj hread
    exact exists_of_writesNul_getD hnul
  · rintro ⟨f, hf, hnul⟩ locals
    obtain ⟨sender, hread⟩ := hscan locals
    rw [hf] at hread
    exact ⟨_, id, sender, f, hcommand locals, hread, hnul⟩

/-- **A broadcast that keeps its terminator**: it comes before the end of the first line and before
the place where the message is cut. -/
theorem terminatedByReceivers_iff (hlen : nickname.length ≤ maxNicknameLen) (h32 : 32 ∉ nickname)
    {id : ℤ} (hlo : -2147483648 ≤ id) (hhi : id < 2147483648) :
    TerminatedByReceivers (snprintf maxBufferLen (broadcastText id nickname s)) ↔
      ∃ sender blank text, Ended (nickname ++ 61 :: 32 :: s) sender blank text ∧ 10 ∉ sender ∧
        (ended sender blank text).length + (decimalInt id).length + 20 ≤ maxBufferLen := by
  have h11 := length_decimalInt_le hlo hhi
  have hbytes : ∀ c ∈ (broadcastLine id (nickname ++ 61 :: 32 :: s)).dropWhile isSpace,
      isLineByte c = true := fun c hc => List.mem_takeWhile_imp ((List.dropWhile_suffix _).subset hc)
  have hline := length_broadcastLine_le id (nickname ++ 61 :: 32 :: s)
  have hskip := (List.dropWhile_suffix isSpace
    (l := broadcastLine id (nickname ++ 61 :: 32 :: s))).length_le
  have hread : TerminatedByReceivers (snprintf maxBufferLen (broadcastText id nickname s)) ↔
      ∃ f, payloadOf isSenderByte ((broadcastLine id (nickname ++ 61 :: 32 :: s)).dropWhile isSpace)
        = some f ∧ ∃ text, text ++ [keyByte text.length] <+: f ∧ True := by
    rw [terminatedByReceivers_iff_payloadOf hlen hlo hhi]
    refine exists_congr fun f => and_congr_right fun hf => ?_
    rw [writesNul_payloadOf_iff (by decide) hbytes (by omega) hf]
    simp only [and_true]
  rw [hread, exists_payloadOf_iff (by decide) hbytes fun _ _ => True]
  constructor
  · rintro ⟨word, blank, text, hpre, hword, hsep, hblank, hstarts, -⟩
    obtain ⟨hstops, b, hb, hpre⟩ := (ended_prefix_dropWhile_iff hword).1 hpre
    obtain ⟨hpre, hline⟩ := prefix_takeWhile_iff.1 hpre
    obtain ⟨hpre, hfits⟩ := List.prefix_take_iff.1 hpre
    obtain ⟨h10, h10'⟩ := no_newline_of_line hline
    have h61 : 61 ∉ word := fun h => absurd (hsep 61 h) (by decide)
    obtain ⟨hended, -⟩ := ended_of_word hb hpre hword hstops h61 hblank hstarts h10'
    exact ⟨b ++ word, blank, text, hended, h10, by simp only [maxBufferLen] at hfits ⊢; omega⟩
  · rintro ⟨sender, blank, text, hended, h10, hfits⟩
    refine ⟨sender.dropWhile isSpace, blank, text, ?_, hended.named, hended.word_bytes h32,
      hended.white, hended.starts, trivial⟩
    refine (ended_prefix_dropWhile_iff hended.named).2 ⟨stops_dropWhile _ _,
      sender.takeWhile isSpace, fun c hc => List.mem_takeWhile_imp hc, ?_⟩
    rw [List.takeWhile_append_dropWhile, broadcastLine, prefix_takeWhile_iff, List.prefix_take_iff]
    exact ⟨⟨hended.pre, by simp only [maxBufferLen] at hfits ⊢; omega⟩,
      line_ended h10 hended.no_newline⟩

/-- What a leader reads. -/
theorem terminatedByLeader_iff_payloadOf (hlen : nickname.length ≤ maxNicknameLen) :
    TerminatedByLeader (snprintf maxBufferLen (requestText nickname s)) ↔
      ((requestLine (nickname ++ 61 :: 32 :: s)).takeWhile isSenderByte).length < maxNicknameLen ∧
      ∃ f, payloadOf isSenderByte (requestLine (nickname ++ 61 :: 32 :: s)) = some f ∧
        WritesNul f := by
  have hcommand := scanCommand_request (s := s) hlen
  have hscan := scanRequest_payloadOf (requestLine_ne_nil (s := 32 :: s) hlen)
    (Nat.lt_of_le_of_lt (length_requestLine_le _) (by decide))
  constructor
  · intro h
    let stray : Locals := ⟨[], [], [], [], [], 0, ⟨0, 0⟩⟩
    obtain ⟨rest, sender, payload, hrest, hpayload, hnul⟩ := h stray
    obtain ⟨-, rfl⟩ := Prod.mk.inj (Except.ok.inj ((hcommand stray).symm.trans hrest))
    rw [hscan stray] at hpayload
    split at hpayload
    · next hword =>
      obtain ⟨-, rfl⟩ := Prod.mk.inj (Except.ok.inj hpayload)
      exact ⟨hword, exists_of_writesNul_getD hnul⟩
    · cases hpayload
  · rintro ⟨hword, f, hf, hnul⟩ locals
    have hread := hscan locals
    rw [if_pos hword, hf] at hread
    exact ⟨_, _, f, hcommand locals, hread, hnul⟩

/-- What the line of a MESSAGE_REQUEST begins with. -/
theorem exists_requestLine_iff (h32 : 32 ∉ nickname) (P : Bytes → Bytes → Prop) :
    (∃ word blank text, ended word blank text <+: requestLine (nickname ++ 61 :: 32 :: s) ∧
      word ≠ [] ∧ (∀ c ∈ word, isSenderByte c = true) ∧ (∀ c ∈ blank, isSpace c = true) ∧
      Stops isSpace (text ++ [keyByte text.length]) ∧ P word text) ↔
    ∃ sender blank text, Ended (nickname ++ 61 :: 32 :: s) sender blank text ∧
      10 ∉ sender.dropWhile isSpace ∧ (ended sender blank text).length + 17 ≤ maxBufferLen ∧
      P (sender.dropWhile isSpace) text := by
  constructor
  · rintro ⟨word, blank, text, hpre, hword, hsep, hblank, hstarts, hP⟩
    obtain ⟨hpre, hline⟩ := prefix_takeWhile_iff.1 hpre
    obtain ⟨hstops, b, hb, hpre⟩ := (ended_prefix_dropWhile_iff hword).1 hpre
    obtain ⟨hpre, hfits⟩ := List.prefix_take_iff.1 hpre
    obtain ⟨h10, h10'⟩ := no_newline_of_line hline
    have h61 : 61 ∉ word := fun h => absurd (hsep 61 h) (by decide)
    obtain ⟨hended, hskip⟩ := ended_of_word hb hpre hword hstops h61 hblank hstarts h10'
    rw [← hskip] at h10 hP
    exact ⟨b ++ word, blank, text, hended, h10, by simp only [maxBufferLen] at hfits ⊢; omega, hP⟩
  · rintro ⟨sender, blank, text, hended, h10, hfits, hP⟩
    refine ⟨sender.dropWhile isSpace, blank, text, ?_, hended.named, hended.word_bytes h32,
      hended.white, hended.starts, hP⟩
    rw [requestLine, prefix_takeWhile_iff]
    refine ⟨(ended_prefix_dropWhile_iff hended.named).2 ⟨stops_dropWhile _ _,
      sender.takeWhile isSpace, fun c hc => List.mem_takeWhile_imp hc, ?_⟩,
      line_ended h10 hended.no_newline⟩
    rw [List.takeWhile_append_dropWhile, List.prefix_take_iff]
    exact ⟨hended.pre, by simp only [maxBufferLen] at hfits ⊢; omega⟩

/-- **A request that keeps its terminator.** -/
theorem terminatedByLeader_iff (hlen : nickname.length ≤ maxNicknameLen) (h32 : 32 ∉ nickname) :
    TerminatedByLeader (snprintf maxBufferLen (requestText nickname s)) ↔
      ∃ sender blank text, Ended (nickname ++ 61 :: 32 :: s) sender blank text ∧
        10 ∉ sender.dropWhile isSpace ∧ (ended sender blank text).length + 17 ≤ maxBufferLen ∧
        (sender.dropWhile isSpace).length < maxNicknameLen := by
  have hbytes : ∀ c ∈ requestLine (nickname ++ 61 :: 32 :: s), isLineByte c = true :=
    fun c hc => List.mem_takeWhile_imp hc
  have hshort := (length_requestLine_le (nickname ++ 61 :: 32 :: s)).trans (Nat.sub_le _ _)
  rw [terminatedByLeader_iff_payloadOf hlen,
    ← exists_requestLine_iff h32 fun word _ => word.length < maxNicknameLen,
    ← exists_payloadOf_iff (by decide) hbytes fun word _ => word.length < maxNicknameLen]
  constructor
  · rintro ⟨hword, f, hf, hnul⟩
    obtain ⟨text, htext⟩ := (writesNul_payloadOf_iff (by decide) hbytes hshort hf).1 hnul
    exact ⟨f, hf, text, htext, hword⟩
  · rintro ⟨f, hf, text, htext, hword⟩
    exact ⟨hword, f, hf, (writesNul_payloadOf_iff (by decide) hbytes hshort hf).2 ⟨text, htext⟩⟩

/-- **What a leader passes on**, under the nickname and with the payload that it read. -/
theorem terminatedByReceivers_relay_iff {word f : Bytes} (hlen : word.length ≤ maxNicknameLen)
    (hsep : ∀ c ∈ word, isSenderByte c = true) (hne : word ≠ []) (hword : Stops isSpace word)
    (h10 : 10 ∉ word) (hstops : Stops isSpace f) (h10' : 10 ∉ f) {clock : ℤ}
    (hlo : -2147483648 ≤ clock) (hhi : clock < 2147483648) :
    TerminatedByReceivers (snprintf maxBufferLen (broadcastText clock word f)) ↔
      ∃ text, text ++ [keyByte text.length] <+: f ∧
        text.length + word.length + (decimalInt clock).length + 22 < maxBufferLen := by
  have h32 : 32 ∉ word := fun h => absurd (hsep 32 h) (by decide)
  have h61 : 61 ∉ word := fun h => absurd (hsep 61 h) (by decide)
  rw [terminatedByReceivers_iff hlen h32 hlo hhi]
  constructor
  · rintro ⟨sender, blank, text, hended, -, hfits⟩
    obtain ⟨rfl, hpre⟩ := hended.eq_nickname h61
    obtain ⟨rfl, htext⟩ := blank_eq hended.white hended.starts hstops hpre
    rw [length_ended, List.length_singleton] at hfits
    exact ⟨text, htext, by omega⟩
  · rintro ⟨text, ⟨rest, rfl⟩, hfits⟩
    have hskip : word.dropWhile isSpace = word := dropWhile_of_stops hword
    refine ⟨word, [32], text, ⟨⟨rest, ?_⟩, h61, by rwa [hskip],
      List.all_eq_true.1 (by decide), (stops_append (by simp) rest).1 hstops, fun h => ?_⟩, h10, ?_⟩
    · simp only [ended, List.append_assoc, List.cons_append, List.nil_append]
    · obtain h | h := List.mem_append.1 h
      · exact absurd h (by decide)
      · exact h10' (by simp [h])
    · rw [length_ended, List.length_singleton]
      omega

/-- **What a leader reads** of a request is what it passes on. -/
theorem terminatedRelayed_iff_relay (hlen : nickname.length ≤ maxNicknameLen) {clock : ℤ} {f : Bytes}
    (hf : payloadOf isSenderByte (requestLine (nickname ++ 61 :: 32 :: s)) = some f)
    (hword : ((requestLine (nickname ++ 61 :: 32 :: s)).takeWhile isSenderByte).length <
      maxNicknameLen) :
    TerminatedRelayed clock (snprintf maxBufferLen (requestText nickname s)) ↔
      TerminatedByReceivers (snprintf maxBufferLen (broadcastText clock
        ((requestLine (nickname ++ 61 :: 32 :: s)).takeWhile isSenderByte) f)) := by
  have hread := scanRequest_of_payloadOf
    (Nat.lt_of_le_of_lt (length_requestLine_le _) (by decide)) hf hword
  constructor
  · intro h
    let stray : Locals := ⟨[], [], [], [], [], 0, ⟨0, 0⟩⟩
    exact h stray _ _ f (scanCommand_request hlen stray) (hread stray)
  · intro h locals rest sender payload hrest hpayload
    obtain ⟨-, rfl⟩ := Prod.mk.inj
      (Except.ok.inj ((scanCommand_request hlen locals).symm.trans hrest))
    obtain ⟨rfl, rfl⟩ := Prod.mk.inj (Except.ok.inj ((hread locals).symm.trans hpayload))
    exact h

/-- The nickname and the payload on a line can be passed on. -/
theorem terminatedByReceivers_line_iff {line f : Bytes} (hbytes : ∀ c ∈ line, isLineByte c = true)
    (hstops : Stops isSpace line) (hf : payloadOf isSenderByte line = some f)
    (hword : (line.takeWhile isSenderByte).length < maxNicknameLen) {clock : ℤ}
    (hlo : -2147483648 ≤ clock) (hhi : clock < 2147483648) :
    TerminatedByReceivers (snprintf maxBufferLen
        (broadcastText clock (line.takeWhile isSenderByte) f)) ↔
      ∃ text, text ++ [keyByte text.length] <+: f ∧ text.length +
        (line.takeWhile isSenderByte).length + (decimalInt clock).length + 22 < maxBufferLen := by
  obtain ⟨word, blank, hline, hne, hsep, hblank, -, hf'⟩ :=
    (payloadOf_eq_some_iff (by decide) hbytes).1 hf
  have hw : line.takeWhile isSenderByte = word := by
    rw [hline]
    exact takeWhile_append_of_stops hsep ((stops_cons ..).2 (by decide))
  have h10 : 10 ∉ line := fun h => absurd (hbytes 10 h) (by decide)
  rw [hline] at h10 hstops
  rw [hw] at hword ⊢
  exact terminatedByReceivers_relay_iff hword.le hsep hne ((stops_append hne _).1 hstops)
    (fun h => h10 (by simp [h])) hf' (fun h => h10 (by simp [h])) hlo hhi

/-- **A request that keeps its terminator on both hops.** -/
theorem terminatedRelayed_iff (hlen : nickname.length ≤ maxNicknameLen) (h32 : 32 ∉ nickname)
    {clock : ℤ} (hlo : -2147483648 ≤ clock) (hhi : clock < 2147483648) :
    TerminatedByLeader (snprintf maxBufferLen (requestText nickname s)) ∧
        TerminatedRelayed clock (snprintf maxBufferLen (requestText nickname s)) ↔
      ∃ sender blank text, Ended (nickname ++ 61 :: 32 :: s) sender blank text ∧
        10 ∉ sender.dropWhile isSpace ∧ (ended sender blank text).length + 17 ≤ maxBufferLen ∧
        (sender.dropWhile isSpace).length < maxNicknameLen ∧
        text.length + (sender.dropWhile isSpace).length + (decimalInt clock).length + 22 <
          maxBufferLen := by
  let line := requestLine (nickname ++ 61 :: 32 :: s)
  have hbytes : ∀ c ∈ line, isLineByte c = true := fun c hc => List.mem_takeWhile_imp hc
  have hshort : line.length ≤ maxBufferLen :=
    (length_requestLine_le (nickname ++ 61 :: 32 :: s)).trans (Nat.sub_le _ _)
  rw [terminatedByLeader_iff_payloadOf hlen, ← exists_requestLine_iff h32 fun word text =>
      word.length < maxNicknameLen ∧
        text.length + word.length + (decimalInt clock).length + 22 < maxBufferLen,
    ← exists_payloadOf_iff (by decide) hbytes fun word text => word.length < maxNicknameLen ∧
      text.length + word.length + (decimalInt clock).length + 22 < maxBufferLen]
  constructor
  · rintro ⟨⟨hword, f, hf, -⟩, hrelayed⟩
    obtain ⟨text, htext, hfits⟩ := (terminatedByReceivers_line_iff hbytes (stops_requestLine _) hf
      hword hlo hhi).1 ((terminatedRelayed_iff_relay hlen hf hword).1 hrelayed)
    exact ⟨f, hf, text, htext, hword, hfits⟩
  · rintro ⟨f, hf, text, htext, hword, hfits⟩
    have hpassed := (terminatedByReceivers_line_iff hbytes (stops_requestLine _) hf hword hlo hhi).2
      ⟨text, htext, hfits⟩
    exact ⟨⟨hword, f, hf, (writesNul_payloadOf_iff (by decide) hbytes hshort hf).2 ⟨text, htext⟩⟩,
      (terminatedRelayed_iff_relay hlen hf hword).2 hpassed⟩

end Messages

/-! ## What has to be typed -/

/-- The nickname and the encrypted line, its NUL included, as `recv_stdin` writes them behind the
command of a message and its number. -/
def typedLine (nickname text : Bytes) : Bytes := nickname ++ 61 :: 32 :: ciphertext text

/-- A NUL of the line is in the part of a leader's MESSAGE_BROADCAST that is decrypted. -/
def SurvivesBroadcast (nickname text : Bytes) (clock : ℤ) : Prop :=
  ∃ sender blank payload, Ended (typedLine nickname text) sender blank payload ∧ 0 ∉ payload ∧
    10 ∉ sender ∧ (ended sender blank payload).length + (decimalInt clock).length + 20 ≤ maxBufferLen

/-- A NUL of the line is in the part of a MESSAGE_REQUEST that the leader decrypts. -/
def SurvivesRequest (nickname text : Bytes) : Prop :=
  ∃ sender blank payload, Ended (typedLine nickname text) sender blank payload ∧ 0 ∉ payload ∧
    10 ∉ sender.dropWhile isSpace ∧ (ended sender blank payload).length + 17 ≤ maxBufferLen ∧
    (sender.dropWhile isSpace).length < maxNicknameLen

/-- It is also in the part that is left of the payload when the leader has passed it on. -/
def SurvivesRelay (nickname text : Bytes) (clock : ℤ) : Prop :=
  ∃ sender blank payload, Ended (typedLine nickname text) sender blank payload ∧ 0 ∉ payload ∧
    10 ∉ sender.dropWhile isSpace ∧ (ended sender blank payload).length + 17 ≤ maxBufferLen ∧
    (sender.dropWhile isSpace).length < maxNicknameLen ∧
    payload.length + (sender.dropWhile isSpace).length + (decimalInt clock).length + 22 <
      maxBufferLen

section Typed

variable {nickname text : Bytes}

theorem Ended.mono {w w' sender blank payload : Bytes} (h : Ended w sender blank payload)
    (hw : ended sender blank payload <+: w') : Ended w' sender blank payload :=
  ⟨hw, h.no_equals, h.named, h.white, h.starts, h.no_newline⟩

/-- Whatever `ciphertext_buffer` held behind the ciphertext: its string begins with the part of the
ciphertext before a NUL, and may hold no more. -/
theorem forall_typedCiphertext_iff (h0 : 0 ∉ nickname) (P : Bytes → Bytes → Bytes → Prop) :
    (∀ locals, ∃ sender blank payload,
      Ended (nickname ++ 61 :: 32 :: typedCiphertext locals text) sender blank payload ∧
        P sender blank payload) ↔
    ∃ sender blank payload, Ended (typedLine nickname text) sender blank payload ∧ 0 ∉ payload ∧
      P sender blank payload := by
  have hnick : ∀ c ∈ nickname ++ [61, 32], (c != 0) = true := by
    intro c hc
    have hne : c ≠ 0 := by
      rintro rfl
      obtain hc | hc := List.mem_append.1 hc
      · exact h0 hc
      · exact absurd hc (by decide)
    simpa using hne
  have hstring : ∀ s, nickname ++ 61 :: 32 :: cString s =
      (nickname ++ 61 :: 32 :: s).takeWhile (· != 0) := by
    intro s
    have h : (nickname ++ [61, 32] ++ s).takeWhile (· != 0) =
        nickname ++ [61, 32] ++ s.takeWhile (· != 0) := List.takeWhile_append_of_pos hnick
    rw [List.append_assoc, List.append_assoc] at h
    exact h.symm
  constructor
  · intro h
    obtain ⟨sender, blank, payload, hended, hP⟩ := h ⟨[], [], [], [], [], 0, ⟨0, 0⟩⟩
    have hpre := hended.pre
    rw [typedCiphertext, hstring, prefix_takeWhile_iff] at hpre
    obtain ⟨hpre, hzero⟩ := hpre
    rw [List.drop_nil, List.append_nil] at hpre
    refine ⟨sender, blank, payload, hended.mono hpre, fun h => ?_, hP⟩
    exact absurd (hzero 0 (by simp [ended, h])) (by decide)
  · rintro ⟨sender, blank, payload, hended, hpayload, hP⟩ locals
    refine ⟨sender, blank, payload, hended.mono ?_, hP⟩
    rw [typedCiphertext, hstring, prefix_takeWhile_iff]
    constructor
    · refine hended.pre.trans ⟨locals.ciphertext.drop (ciphertext text).length, ?_⟩
      rw [typedLine, List.append_assoc]
      rfl
    · intro c hc
      have hne : c ≠ 0 := by
        rintro rfl
        simp only [ended, List.mem_append, List.mem_cons, List.not_mem_nil, or_false] at hc
        obtain hc | hc | hc | hc | hc := hc
        · exact h0 (Ended.prefix_sender hended |>.subset hc)
        · exact absurd hc (by decide)
        · exact absurd (hended.white 0 hc) (by decide)
        · exact hpayload hc
        · exact (keyByte_props payload.length).1 hc.symm
      simpa using hne

theorem typedBroadcast_iff (hadm : Admitted nickname) (text : Bytes) {clock : ℤ}
    (hlo : -2147483648 ≤ clock) (hhi : clock < 2147483648) :
    (∀ locals, TerminatedByReceivers (typedBroadcast locals clock nickname text)) ↔
      SurvivesBroadcast nickname text clock := by
  have h32 : 32 ∉ nickname := fun h => absurd (hadm.bytes 32 h) (by decide)
  simp only [typedBroadcast, terminatedByReceivers_iff hadm.length_le h32 hlo hhi]
  exact forall_typedCiphertext_iff hadm.no_nul fun sender blank payload => 10 ∉ sender ∧
    (ended sender blank payload).length + (decimalInt clock).length + 20 ≤ maxBufferLen

theorem typedRequest_iff (hadm : Admitted nickname) (text : Bytes) :
    (∀ locals, TerminatedByLeader (typedRequest locals nickname text)) ↔
      SurvivesRequest nickname text := by
  have h32 : 32 ∉ nickname := fun h => absurd (hadm.bytes 32 h) (by decide)
  simp only [typedRequest, terminatedByLeader_iff hadm.length_le h32]
  exact forall_typedCiphertext_iff hadm.no_nul fun sender blank payload =>
    10 ∉ sender.dropWhile isSpace ∧ (ended sender blank payload).length + 17 ≤ maxBufferLen ∧
      (sender.dropWhile isSpace).length < maxNicknameLen

theorem typedRelay_iff (hadm : Admitted nickname) (text : Bytes) {clock : ℤ}
    (hlo : -2147483648 ≤ clock) (hhi : clock < 2147483648) :
    (∀ locals, TerminatedByLeader (typedRequest locals nickname text) ∧
        TerminatedRelayed clock (typedRequest locals nickname text)) ↔
      SurvivesRelay nickname text clock := by
  have h32 : 32 ∉ nickname := fun h => absurd (hadm.bytes 32 h) (by decide)
  simp only [typedRequest, terminatedRelayed_iff hadm.length_le h32 hlo hhi]
  exact forall_typedCiphertext_iff hadm.no_nul fun sender blank payload =>
    10 ∉ sender.dropWhile isSpace ∧ (ended sender blank payload).length + 17 ≤ maxBufferLen ∧
      (sender.dropWhile isSpace).length < maxNicknameLen ∧
      payload.length + (sender.dropWhile isSpace).length + (decimalInt clock).length + 22 <
        maxBufferLen

/-- Of an ordinary nickname and a clean text there is one way to read the payload. -/
theorem ended_typedLine_iff {sender blank payload : Bytes} (hadm : Admitted nickname)
    (hnick : Transportable nickname) (htext : Typed text) (hclean : Clean text)
    (hlen : text.length < maxBufferLen) :
    Ended (typedLine nickname text) sender blank payload ↔
      sender = nickname ∧ blank = [32] ∧ payload = (ciphertext text).take text.length := by
  have hkey : (ciphertext text)[text.length]? = some (keyByte text.length) := by
    rw [getElem?_ciphertext hlen, List.getElem?_append_right (Nat.le_refl _), Nat.sub_self]
    simp
  have hstops := hclean.stops htext.ne_nil hlen
  constructor
  · intro h
    obtain ⟨rfl, hpre⟩ := h.eq_nickname hnick.no_equals
    obtain ⟨hblank, hpayload⟩ := blank_eq h.white h.starts hstops hpre
    refine ⟨rfl, hblank, ?_⟩
    -- the byte that becomes a NUL is the last one
    have hbyte : (ciphertext text)[payload.length]? = some (keyByte payload.length) := by
      obtain ⟨rest, hrest⟩ := hpayload
      rw [← hrest]
      simp
    rw [getElem?_ciphertext hlen] at hbyte
    obtain ⟨c, hc, hsum⟩ := Option.map_eq_some_iff.1 hbyte
    have hzero : c = 0 := by simpa using hsum
    have hle := hpayload.length_le
    rw [length_ciphertext hlen, List.length_append, List.length_singleton] at hle
    have hlast : payload.length = text.length := by
      by_contra hne
      have hlt : payload.length < text.length := by omega
      rw [List.getElem?_append_left hlt, hzero] at hc
      exact htext.no_nul (List.mem_of_getElem? hc)
    rw [← hlast]
    exact List.prefix_iff_eq_take.1 ((List.prefix_append _ _).trans hpayload)
  · rintro ⟨rfl, rfl, rfl⟩
    have htake : ((ciphertext text).take text.length).length = text.length := by
      rw [List.length_take, length_ciphertext hlen]
      omega
    have hwhole : (ciphertext text).take text.length ++ [keyByte text.length] = ciphertext text := by
      obtain ⟨hlt, hget⟩ := List.getElem?_eq_some_iff.1 hkey
      rw [← hget, List.take_concat_get' _ _ hlt]
      exact List.take_of_length_le (by rw [length_ciphertext hlen])
    have hskip : sender.dropWhile isSpace = sender := dropWhile_of_stops hnick.no_leading_space
    refine ⟨⟨[], ?_⟩, hnick.no_equals, by rw [hskip]; exact hnick.ne_nil,
      List.all_eq_true.1 (by decide), ?_, fun h => ?_⟩
    · rw [ended, htake, hwhole, List.append_nil]
      rfl
    · rwa [htake, hwhole]
    · obtain h | h := List.mem_append.1 h
      · exact absurd h (by decide)
      · exact (hclean.bytes hlen 10 (List.mem_of_mem_take h)).2 rfl

/-- **An ordinary nickname and a clean text**: the terminator arrives exactly if the line fits a
MESSAGE_BROADCAST as a whole. -/
theorem survives_iff_fits (hadm : Admitted nickname) (hnick : Transportable nickname)
    (htext : Typed text) (hclean : Clean text) (hlen : text.length < maxBufferLen) (clock : ℤ) :
    (SurvivesBroadcast nickname text clock ↔
      (broadcastText clock nickname (text ++ [0])).length < maxBufferLen) ∧
    (SurvivesRelay nickname text clock ↔
      (broadcastText clock nickname (text ++ [0])).length < maxBufferLen) := by
  have hread : ∀ sender blank payload, Ended (typedLine nickname text) sender blank payload ↔
      sender = nickname ∧ blank = [32] ∧ payload = (ciphertext text).take text.length :=
    fun _ _ _ => ended_typedLine_iff hadm hnick htext hclean hlen
  have hskip : nickname.dropWhile isSpace = nickname := dropWhile_of_stops hnick.no_leading_space
  have htake : ((ciphertext text).take text.length).length = text.length := by
    rw [List.length_take, length_ciphertext hlen]
    omega
  have hzero : 0 ∉ (ciphertext text).take text.length := fun h =>
    (hclean.bytes hlen 0 (List.mem_of_mem_take h)).1 rfl
  have hshort := hnick.length_lt
  have hdec := List.length_pos_of_ne_nil (decimalInt_ne_nil clock)
  rw [length_broadcastText, List.length_append, List.length_singleton]
  constructor
  · constructor
    · rintro ⟨sender, blank, payload, hended, -, -, hfits⟩
      obtain ⟨rfl, rfl, rfl⟩ := (hread _ _ _).1 hended
      rw [length_ended, htake, List.length_singleton] at hfits
      omega
    · intro hfits
      refine ⟨_, _, _, (hread _ _ _).2 ⟨rfl, rfl, rfl⟩, hzero, hnick.no_newline, ?_⟩
      rw [length_ended, htake, List.length_singleton]
      omega
  · constructor
    · rintro ⟨sender, blank, payload, hended, -, -, -, -, hfits⟩
      obtain ⟨rfl, rfl, rfl⟩ := (hread _ _ _).1 hended
      rw [htake, hskip] at hfits
      omega
    · intro hfits
      refine ⟨_, _, _, (hread _ _ _).2 ⟨rfl, rfl, rfl⟩, hzero, ?_, ?_, ?_, ?_⟩
      · rw [hskip]
        exact hnick.no_newline
      · rw [length_ended, htake, List.length_singleton]
        omega
      · rwa [hskip]
      · rw [htake, hskip]
        omega

/-- **The terminator arrives**, whatever the local variables held: from a leader at everyone who
receives its broadcast, from anyone else at the leader, and from there at everyone to whom the
leader passes the line on. -/
theorem terminated_iff (hadm : Admitted nickname) (text : Bytes) {clock : ℤ}
    (hlo : -2147483648 ≤ clock) (hhi : clock < 2147483648) :
    ((∀ locals, TerminatedByReceivers (typedBroadcast locals clock nickname text)) ↔
      SurvivesBroadcast nickname text clock) ∧
    ((∀ locals, TerminatedByLeader (typedRequest locals nickname text)) ↔
      SurvivesRequest nickname text) ∧
    ((∀ locals, TerminatedByLeader (typedRequest locals nickname text) ∧
        TerminatedRelayed clock (typedRequest locals nickname text)) ↔
      SurvivesRelay nickname text clock) :=
  ⟨typedBroadcast_iff hadm text hlo hhi, typedRequest_iff hadm text,
    typedRelay_iff hadm text hlo hhi⟩

end Typed

/-- An ordinary line. -/
theorem terminated_iff_hello :
    ((∀ locals, TerminatedByReceivers (typedBroadcast locals 0 (str "a") (str "hello"))) ↔
      SurvivesBroadcast (str "a") (str "hello") 0) ∧
    ((∀ locals, TerminatedByLeader (typedRequest locals (str "a") (str "hello"))) ↔
      SurvivesRequest (str "a") (str "hello")) ∧
    ((∀ locals, TerminatedByLeader (typedRequest locals (str "a") (str "hello")) ∧
        TerminatedRelayed 0 (typedRequest locals (str "a") (str "hello"))) ↔
      SurvivesRelay (str "a") (str "hello") 0) :=
  terminated_iff ⟨by decide, by decide, by decide⟩ (str "hello") (by decide) (by decide)

/-- A line of the maximum length does not keep its terminator. -/
theorem not_terminated : ¬ ∀ nickname text clock, Admitted nickname → text ≠ [] →
    text.length < maxBufferLen → -2147483648 ≤ clock → clock < 2147483648 →
    (∀ locals, TerminatedByReceivers (typedBroadcast locals clock nickname text)) ∧
      ∀ locals, TerminatedByLeader (typedRequest locals nickname text) ∧
        TerminatedRelayed clock (typedRequest locals nickname text) := by
  intro h
  have hadm : Admitted (str "a") := ⟨by decide, by decide, by decide⟩
  have hnick : Transportable (str "a") :=
    ⟨by decide, by decide, by decide, by decide, (stops_cons ..).2 (by decide)⟩
  obtain ⟨text, hmem, hlength⟩ : ∃ text : Bytes, (∀ c ∈ text, c = 97) ∧ text.length = 1023 :=
    ⟨List.replicate 1023 97, fun c hc => List.eq_of_mem_replicate hc, List.length_replicate⟩
  have hlen : text.length < maxBufferLen := by
    rw [hlength]
    decide
  have htext : Typed text := by
    refine ⟨?_, fun h0 => ?_, fun h10 => ?_⟩
    · rintro rfl
      cases hlength
    · exact absurd (hmem 0 h0) (by decide)
    · exact absurd (hmem 10 h10) (by decide)
  have hclean : Clean text := clean_of_ascii fun c hc => by
    rw [hmem c hc]
    decide
  have harrives := (h (str "a") text 0 hadm htext.ne_nil hlen (by decide) (by decide)).1
  have hfits := (survives_iff_fits hadm hnick htext hclean hlen 0).1.1
    ((typedBroadcast_iff hadm text (by decide) (by decide)).1 harrives)
  rw [length_broadcastText, List.length_append, hlength] at hfits
  simp only [maxBufferLen] at hfits
  omega

end Dchat.Chat
