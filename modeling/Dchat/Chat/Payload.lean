import Dchat.Chat.Nickname

/-!
# The nickname and the payload of a message

The format `"%[^= ]= %[^\n]"` on any text: the nickname ends at the first `=` or blank, and the
payload begins behind the white space after the `=` and ends with the line. `payloadOf` is the
payload if there is one; otherwise its array keeps what it held before.

* `sscanf_payloadOf` and `payloadOf_eq_some_iff`: what is scanned, and of which texts.
* `scanBroadcast_broadcastLine`: a receiver on a MESSAGE_BROADCAST with any nickname.
* `scanRequest_payloadOf`: a leader on a MESSAGE_REQUEST with any nickname.
-/

namespace Dchat.Chat

open CString Stdio RMP

/-! ## The format -/

/-- `[^= ]`. -/
abbrev isSenderByte (c : UInt8) : Bool := !(str "= ").contains c

/-- The payload that `"%[...]= %[^\n]"` reads, if it reads one. -/
def payloadOf (p : UInt8 → Bool) (t : Bytes) : Option Bytes :=
  if t.takeWhile p = [] then none
  else
    match t.dropWhile p with
    | 61 :: u =>
      let field := (u.dropWhile isSpace).takeWhile isLineByte
      if field = [] then none else some field
    | _ => none

theorem word_ne_nil_of_payloadOf {p : UInt8 → Bool} {t f : Bytes} (hf : payloadOf p t = some f) :
    t.takeWhile p ≠ [] := by
  intro h
  rw [payloadOf, if_pos h] at hf
  cases hf

/-- A nickname and a payload are scanned if the nickname fits its array. -/
theorem sscanf_payloadOf {p : UInt8 → Bool} {size size' : ℕ} {t : Bytes}
    (hword : (t.takeWhile p).length < size) (ht : t.length < size') :
    ∃ r, sscanf [.set p size, .lit 61, .white, .set isLineByte size'] t = .ok r ∧
      (t ≠ [] → r.ret ≠ eof) ∧
      (∀ before, r.text 0 before = if t.takeWhile p = [] then before else t.takeWhile p) ∧
      ∀ before, r.text 1 before = (payloadOf p t).getD before := by
  rw [sscanf_cons_set]
  by_cases hnil : t = []
  · rw [hnil]
    exact ⟨_, if_pos rfl, fun h => absurd rfl h, fun before => rfl, fun before => rfl⟩
  rw [if_neg hnil]
  by_cases hempty : t.takeWhile p = []
  · have hnone : payloadOf p t = none := if_pos hempty
    rw [hnone]
    exact ⟨_, if_pos hempty, fun _ => by decide, fun before => (if_pos hempty).symm,
      fun before => rfl⟩
  rw [if_neg hempty, if_neg (not_le.2 hword), payloadOf, if_neg hempty]
  have hsplit : (t.dropWhile p).length ≤ t.length := (List.dropWhile_suffix _).length_le
  cases hrest : t.dropWhile p with
  | nil =>
    exact ⟨_, rfl, fun _ => Scan.ret_cons_ne_eof _ _, fun before => (if_neg hempty).symm,
      fun before => rfl⟩
  | cons c u =>
    rw [sscanf_cons_lit]
    by_cases hc : c = 61
    · subst hc
      rw [hrest, List.length_cons] at hsplit
      obtain ⟨r, hr, hassigned⟩ := sscanf_last (p := isLineByte) (show u.length < size' by omega)
      rw [if_pos rfl, hr]
      refine ⟨_, rfl, fun _ => Scan.ret_cons_ne_eof _ _,
        fun before => (if_neg hempty).symm, fun before => ?_⟩
      by_cases hfield : (u.dropWhile isSpace).takeWhile isLineByte = []
      · rw [Scan.text, Scan.cons, hassigned, if_pos hfield]
        simp [hfield]
      · rw [Scan.text, Scan.cons, hassigned, if_neg hfield]
        simp [hfield]
    · rw [if_neg hc]
      refine ⟨_, rfl, fun _ => Scan.ret_cons_ne_eof _ _,
        fun before => (if_neg hempty).symm, fun before => ?_⟩
      simp [Scan.text, Scan.cons, hc]

/-- The payload that is read of a line without its end. -/
theorem payloadOf_eq_some_iff {p : UInt8 → Bool} (h61 : p 61 = false) {t f : Bytes}
    (hline : ∀ c ∈ t, isLineByte c = true) :
    payloadOf p t = some f ↔ ∃ word blank, t = word ++ 61 :: (blank ++ f) ∧ word ≠ [] ∧
      (∀ c ∈ word, p c = true) ∧ (∀ c ∈ blank, isSpace c = true) ∧ f ≠ [] ∧ Stops isSpace f := by
  constructor
  · intro hf
    unfold payloadOf at hf
    split at hf
    · cases hf
    next hword =>
    split at hf
    · next u hu =>
      have hmem : ∀ c ∈ u.dropWhile isSpace, isLineByte c = true := by
        intro c hc
        refine hline c ((List.dropWhile_suffix p).subset ?_)
        rw [hu]
        exact .tail _ ((List.dropWhile_suffix _).subset hc)
      dsimp only at hf
      rw [List.takeWhile_eq_self_iff.2 hmem] at hf
      obtain ⟨hne, hf⟩ := Option.ite_none_left_eq_some.1 hf
      obtain rfl := Option.some.inj hf
      refine ⟨t.takeWhile p, u.takeWhile isSpace, ?_, hword, fun c hc => List.mem_takeWhile_imp hc,
        fun c hc => List.mem_takeWhile_imp hc, hne, stops_dropWhile isSpace u⟩
      rw [List.takeWhile_append_dropWhile, ← hu, List.takeWhile_append_dropWhile]
    · cases hf
  · rintro ⟨word, blank, rfl, hword, hp, hblank, hne, hstops⟩
    have hend : ∀ s, Stops p (61 :: s) := fun s => (stops_cons ..).2 h61
    have hfield : ∀ c ∈ f, isLineByte c = true := fun c hc => hline c (by simp [hc])
    rw [payloadOf, takeWhile_append_of_stops hp (hend _), if_neg hword,
      dropWhile_append_of_stops hp (hend _)]
    simp only [dropWhile_append_of_stops hblank hstops, List.takeWhile_eq_self_iff.2 hfield]
    rw [if_neg hne]

section Messages

variable {nickname s : Bytes}

/-- The word scanned for a nickname is no longer than the nickname. -/
theorem length_word_le {p q : UInt8 → Bool} (hp : p 61 = false) (hq : q 61 = false) {t : Bytes}
    (h : t <+: nickname ++ 61 :: s) :
    ((t.dropWhile q).takeWhile p).length ≤ nickname.length := by
  have hwhole : nickname ++ [61] <+: nickname ++ 61 :: s := by
    rw [List.prefix_append_right_inj, List.cons_prefix_cons]
    exact ⟨rfl, List.nil_prefix⟩
  obtain hshort | ⟨rest, rfl⟩ := List.prefix_or_prefix_of_prefix h hwhole
  · obtain rfl | hpre := List.prefix_concat_iff.1 hshort
    · rw [field_append hq hp]
      exact length_field_le q p nickname
    · exact (length_field_le q p t).trans hpre.length_le
  · rw [List.append_assoc, List.singleton_append, field_append hq hp]
    exact length_field_le q p nickname

/-- The bytes that end the nickname in a MESSAGE_REQUEST and in a MESSAGE_BROADCAST. -/
theorem separator_congr :
    (fun c => !(str " =").contains c) = isSenderByte := by
  funext c
  have hperm : (str " =").contains c = (str "= ").contains c := by
    rw [Bool.eq_iff_iff, List.contains_iff_mem, List.contains_iff_mem]
    exact (show (str " =").Perm (str "= ") by decide).mem_iff
  rw [hperm]

/-! ## A MESSAGE_BROADCAST -/

/-- A MESSAGE_BROADCAST behind its number. -/
theorem scanBroadcast_payloadOf {line : Bytes} (hline : line.length < maxBufferLen)
    (hword : ((line.dropWhile isSpace).takeWhile isSenderByte).length ≤ maxNicknameLen) {id : ℤ}
    (hlo : -2147483648 ≤ id) (hhi : id < 2147483648) (locals : Locals) :
    ∃ sender, scanBroadcast locals (decimalInt id ++ 32 :: line) = .ok (id, sender,
      (payloadOf isSenderByte (line.dropWhile isSpace)).getD locals.payload) := by
  have hshort := (List.dropWhile_suffix isSpace (l := line)).length_le
  obtain ⟨r, hr, -, -, hpayload⟩ := sscanf_payloadOf (Nat.lt_succ_of_le hword)
    (show (line.dropWhile isSpace).length < maxBufferLen + 1 by omega)
  have hscan : sscanf broadcastFormat (decimalInt id ++ 32 :: line) = .ok (r.cons (.int id)) := by
    rw [broadcastFormat, sscanf_int hlo hhi ((stops_cons ..).2 (by decide)), sscanf_cons_white,
      List.dropWhile_cons_of_pos (by decide), hr]
    rfl
  refine ⟨(r.cons (.int id)).text 1 locals.senderNickname, ?_⟩
  rw [scanBroadcast, hscan, Fault.ok_bind, if_neg (Scan.ret_cons_ne_eof _ _),
    ← hpayload]
  rfl

/-- The first line of what the message holds behind its number. -/
def broadcastLine (id : ℤ) (w : Bytes) : Bytes :=
  (w.take (maxBufferLen - ((decimalInt id).length + 20))).takeWhile isLineByte

theorem length_broadcastLine_le (id : ℤ) (w : Bytes) :
    (broadcastLine id w).length ≤ maxBufferLen - ((decimalInt id).length + 20) :=
  (List.takeWhile_prefix _).length_le.trans (List.length_take_le _ _)

theorem prefix_broadcastLine (id : ℤ) (w : Bytes) : broadcastLine id w <+: w :=
  (List.takeWhile_prefix _).trans (List.take_prefix _ _)

theorem scanCommand_broadcastLine (hlen : nickname.length ≤ maxNicknameLen) {id : ℤ}
    (hlo : -2147483648 ≤ id) (hhi : id < 2147483648) (locals : Locals) :
    scanCommand locals (snprintf maxBufferLen (broadcastText id nickname s)) =
      .ok (messageBroadcast, decimalInt id ++ 32 :: broadcastLine id (nickname ++ 61 :: 32 :: s)) := by
  obtain ⟨k, hk, hbroadcast⟩ := broadcastText_eq hlen s hlo hhi
  have hcut : nickname ++ 61 :: 32 :: s.take k =
      (nickname ++ 61 :: 32 :: s).take (maxBufferLen - ((decimalInt id).length + 20)) := by
    rw [show maxBufferLen - ((decimalInt id).length + 20) = nickname.length + (k + 2) by omega,
      List.take_length_add_append]
    rfl
  rw [hbroadcast, broadcastLine, ← hcut]
  refine scanCommand_broadcast ?_
  simp only [List.length_append, List.length_cons, List.length_take]
  omega

/-- **A receiver** reads the number, some nickname, and the payload if there is one. -/
theorem scanBroadcast_broadcastLine (hlen : nickname.length ≤ maxNicknameLen) {id : ℤ}
    (hlo : -2147483648 ≤ id) (hhi : id < 2147483648) (locals : Locals) :
    ∃ sender, scanBroadcast locals
      (decimalInt id ++ 32 :: broadcastLine id (nickname ++ 61 :: 32 :: s)) = .ok (id, sender,
        (payloadOf isSenderByte ((broadcastLine id (nickname ++ 61 :: 32 :: s)).dropWhile
          isSpace)).getD locals.payload) := by
  have hline := length_broadcastLine_le id (nickname ++ 61 :: 32 :: s)
  have hword := (length_word_le (p := isSenderByte) (q := isSpace) (by decide) (by decide)
    (prefix_broadcastLine id (nickname ++ 61 :: 32 :: s))).trans hlen
  refine scanBroadcast_payloadOf ?_ hword hlo hhi locals
  simp only [maxBufferLen] at hline ⊢
  omega

/-! ## A MESSAGE_REQUEST -/

/-- What a leader reads of a MESSAGE_REQUEST behind its command. -/
def requestLine (w : Bytes) : Bytes :=
  ((w.take (maxBufferLen - 17)).dropWhile isSpace).takeWhile isLineByte

theorem length_requestLine_le (w : Bytes) : (requestLine w).length ≤ maxBufferLen - 17 :=
  (length_field_le isSpace isLineByte _).trans (List.length_take_le _ _)

theorem stops_requestLine (w : Bytes) : Stops isSpace (requestLine w) :=
  stops_takeWhile (stops_dropWhile isSpace _) isLineByte

/-- A `=` behind the nickname is cut off by nothing. -/
theorem requestLine_ne_nil (hlen : nickname.length ≤ maxNicknameLen) :
    requestLine (nickname ++ 61 :: s) ≠ [] := by
  have hmem : (61 : UInt8) ∈ (nickname ++ 61 :: s).take (maxBufferLen - 17) := by
    have hpre : nickname ++ [61] <+: (nickname ++ 61 :: s).take (maxBufferLen - 17) := by
      rw [List.prefix_take_iff, List.prefix_append_right_inj, List.cons_prefix_cons]
      refine ⟨⟨rfl, List.nil_prefix⟩, ?_⟩
      rw [List.length_append, List.length_singleton]
      simp only [maxNicknameLen, maxBufferLen] at hlen ⊢
      omega
    exact hpre.subset (by simp)
  have hhead := stops_dropWhile isSpace ((nickname ++ 61 :: s).take (maxBufferLen - 17))
  rw [requestLine]
  cases hw : ((nickname ++ 61 :: s).take (maxBufferLen - 17)).dropWhile isSpace with
  | nil => exact absurd (List.dropWhile_eq_nil_iff.1 hw 61 hmem) (by decide)
  | cons c rest =>
    rw [hw] at hhead
    have hc : isSpace c = false := (stops_cons ..).1 hhead
    have hline : isLineByte c = true := by
      refine mem_line ?_
      rintro rfl
      exact absurd hc (by decide)
    rw [List.takeWhile_cons_of_pos hline]
    exact List.cons_ne_nil _ _

theorem scanCommand_request (hlen : nickname.length ≤ maxNicknameLen) (locals : Locals) :
    scanCommand locals (snprintf maxBufferLen (requestText nickname s)) =
      .ok (messageRequest, requestLine (nickname ++ 61 :: 32 :: s)) := by
  obtain ⟨k, hk, hrequest⟩ := requestText_eq hlen s
  have hcut : nickname ++ 61 :: 32 :: s.take k =
      (nickname ++ 61 :: 32 :: s).take (maxBufferLen - 17) := by
    rw [show maxBufferLen - 17 = nickname.length + (k + 2) by omega, List.take_length_add_append]
    rfl
  have hfit := List.length_take_le (maxBufferLen - 17) (nickname ++ 61 :: 32 :: s)
  rw [hrequest, hcut, scanCommand_lastField (by decide) (by decide) (by decide) (by
    simp only [maxBufferLen] at hfit ⊢; omega), lastField]
  exact congrArg (fun rest => Except.ok (messageRequest, rest)) (if_neg (requestLine_ne_nil hlen))

/-- The nickname and the payload of a MESSAGE_REQUEST. -/
theorem scanRequest_payloadOf {t : Bytes} (hne : t ≠ []) (ht : t.length < maxBufferLen)
    (locals : Locals) :
    scanRequest locals t =
      if (t.takeWhile isSenderByte).length < maxNicknameLen then
        .ok (if t.takeWhile isSenderByte = [] then locals.senderNickname else t.takeWhile isSenderByte,
          (payloadOf isSenderByte t).getD locals.payload)
      else .error .bufferOverflow := by
  rw [scanRequest, requestFormat, separator_congr]
  split
  · next hword =>
    obtain ⟨r, hr, heof, hsender, hpayload⟩ := sscanf_payloadOf hword ht
    rw [hr, Fault.ok_bind, if_neg (heof hne), hsender, hpayload]
  · next hword =>
    have hlong := Nat.not_lt.1 hword
    have hempty : t.takeWhile isSenderByte ≠ [] := by
      intro h
      rw [h] at hlong
      exact absurd hlong (by decide)
    rw [sscanf_cons_set, if_neg hne, if_neg hempty, if_pos hlong]
    rfl

/-- A request with a payload leaves nothing as it was. -/
theorem scanRequest_of_payloadOf {t f : Bytes} (ht : t.length < maxBufferLen)
    (hf : payloadOf isSenderByte t = some f)
    (hword : (t.takeWhile isSenderByte).length < maxNicknameLen) (locals : Locals) :
    scanRequest locals t = .ok (t.takeWhile isSenderByte, f) := by
  have hempty := word_ne_nil_of_payloadOf hf
  have hne : t ≠ [] := fun h => hempty (by rw [h]; rfl)
  rw [scanRequest_payloadOf hne ht, if_pos hword, hf, if_neg hempty]
  rfl

end Messages

end Dchat.Chat
