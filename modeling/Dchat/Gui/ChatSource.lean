import Dchat.Chat.Fidelity
import Dchat.Foundations.JavaString
import Dchat.Gui.View

/-!
# The GUI follows the chat

`ChatSource.interpretInput` reads the next line that the chat process has printed and calls the
methods of the view. `ChatEvent` lists the events that the process prints as one line, with the
line, and `Follows` says that reading it performs the update that the event stands for.

* `interpretInput_message`, `interpretNotice_joined`, `interpretNotice_left` and
  `interpretNotice_newLeader` are the four kinds of lines that are recognised.
* `follows_iff`: the GUI follows the events with one departure at most whose line contains no
  carriage return, and messages only under a nickname that is not empty.
* `not_follows`: two departures at once are an unknown notice.
-/

namespace Dchat.Gui

open CString Stdio Java Chat

/-! ## `ChatSource` -/

/-- The loop of `interpretInput` over the lines after `Succeeded, current users:`, with the
participants, the leader and the notice so far: these at its end, and the rest of the input, `none`
if the input ends before an empty line does. A line takes at least one byte, so that the loop ends
within as many rounds as there are bytes. -/
def readParticipants : ℕ → Bytes → List Bytes → Option Bytes → Bytes →
    Option (List Bytes × Option Bytes × Bytes × Bytes)
  | 0, _, _, _, _ => none
  | fuel + 1, input, participants, leader, notice =>
    match readLine input with
    | none => none
    | some (userLine, input) =>
      if userLine = [] then some (participants, leader, notice, input)
      else
        match split userLine with
        | part :: _ :: _ =>
          readParticipants fuel input (participants ++ [part]) (leader.or (some part))
            (notice ++ userLine ++ [10])
        | _ => readParticipants fuel input participants leader notice

/-- The part of `interpretInput` for a line that begins with `NOTICE `. -/
def interpretNotice (v : View) (line : Bytes) : Except Thrown View := do
  let lineParts := split line
  if lineParts.length = 7 ∧ endsWith line (str " left the chat or crashed") then
    .ok ((v.removeParticipant (lineParts.getD 1 [])).displayNotice (line.drop 7))
  else if lineParts.length = 5 ∧ lineParts.getD 2 [] = str "joined" ∧
      lineParts.getD 3 [] = str "on" then
    .ok ((v.addParticipant (lineParts.getD 1 [])).displayNotice (line.drop 7))
  else if lineParts.length = 6 ∧ endsWith line (str " is the new leader") then
    let v ← v.setLeader (lineParts.getD 1 [])
    .ok (v.displayNotice (line.drop 7))
  else
    -- an unknown notice goes to the standard error only
    .ok v

/-- The part of `interpretInput` for a line that is not a message. -/
def interpretOther (v : View) (line : Bytes) : Except Thrown View :=
  if startsWith line (str "NOTICE ") then interpretNotice v line
  else if line = str "Bye." then .ok v.makeInactive
  else if (indexOf (str " started a new chat, listening on ") line).any (0 < ·) then
    match split line with
    | [] => .error .indexOutOfBounds
    | nickname :: _ => do
      let v ← v.initAsLeader nickname
      .ok (v.displayNotice line)
  else .ok (v.displayNotice line)

/-- `interpretInput` on the rest of the input: the value returned, the view, and what is left to
read. -/
def interpretInput (v : View) (input : Bytes) : Except Thrown (Bool × View × Bytes) :=
  match readLine input with
  | none => .ok (false, v, [])
  | some (line, input) =>
    if line = str "Succeeded, current users:" then
      match readParticipants (input.length + 1) input [] none (line ++ [10]) with
      | none => .ok (false, v, [])
      | some (participants, leader, notice, input) => do
        let v ← v.setParticipants participants leader
        .ok (true, v.displayNotice notice, input)
    else
      match indexOf (str ":: ") line with
      | some (k + 1) =>
        .ok (true, v.displayMessage (line.take (k + 1)) (line.drop (k + 4)), input)
      | _ => do
        let v ← interpretOther v line
        .ok (true, v, input)

/-! ## The events of the chat -/

/-- What the chat process prints as one line. -/
inductive ChatEvent
  /-- A message was typed or received. -/
  | message (nickname text : Bytes)
  /-- A participant has joined. -/
  | joined (participant : Participant)
  /-- A call of `leader_broadcast_message` has removed these participants. -/
  | left (departed : List Participant)
  /-- A participant has declared victory. -/
  | newLeader (nickname : Bytes)

namespace ChatEvent

/-- The line printed. -/
def line : ChatEvent → Bytes
  | message nickname text => messageLine nickname text
  | joined p => snprintf maxBufferLen (joinMessage p.nickname p.ipAddress p.portNum)
  | left departed => snprintf 1024 (leaveMessage (leaveNames departed))
  | newLeader nickname => snprintf 1024 (victoryMessage nickname)

/-- The list of the chat after the event. -/
def apply : ChatEvent → List Participant → List Participant
  | message _ _, chat => chat
  | joined p, chat => chat ++ [p]
  | left departed, chat => chat.filter (· ∉ departed)
  | newLeader nickname, chat => chat.map fun p => { p with isLeader := p.nickname = nickname }

/-- What the GUI has to show of the event, to the user with the nickname `own`. -/
def shown (own : Bytes) (e : ChatEvent) : List Piece :=
  match e with
  | message nickname text =>
    [⟨nickname ++ str ": ", if nickname = own then .own else .nickname⟩, ⟨text ++ [10], .plain⟩]
  | e => [⟨e.line.drop 7 ++ [10], .notice⟩]

end ChatEvent

/-- A nickname that `main` admits and that is printed on one line. -/
structure Name (nickname : Bytes) : Prop where
  admitted : Admitted nickname
  no_newline : 10 ∉ nickname

/-- The events that a chat process with the list `chat` prints as one line. -/
def Occurs (chat : List Participant) : ChatEvent → Prop
  | .message nickname text =>
    58 ∉ nickname ∧ (∀ c ∈ nickname, isSpace c = false) ∧ 10 ∉ text
  | .joined p => Name p.nickname ∧ IsIpAddress p.ipAddress ∧ IsPortNum p.portNum ∧
    p.isLeader = false
  | .left departed => departed ≠ [] ∧ departed.Sublist (others chat) ∧
    ∀ p ∈ departed, Name p.nickname
  | .newLeader nickname => Name nickname ∧ ∃ p ∈ chat, p.nickname = nickname

/-- The nicknames on a list. -/
def names (chat : List Participant) : Finset Bytes := (chat.map fun p => p.nickname).toFinset

/-- The GUI shows the list of the chat, with its leader. -/
def Mirrors (v : View) (chat : List Participant) : Prop :=
  v.participantsModel.Shows (names chat) ((chat.find? Participant.isLeader).map fun p => p.nickname)

/-- Reading the line of the event, whatever follows it, performs the update: the GUI shows the list
after the event, and what there is to show of it, and the rest of the view is as before. -/
def Follows (v : View) (chat : List Participant) (e : ChatEvent) : Prop :=
  ∀ rest, ∃ v', interpretInput v (e.line ++ 10 :: rest) = .ok (true, v', rest) ∧
    Mirrors v' (e.apply chat) ∧ v'.chatDoc = v.chatDoc ++ e.shown v.nickname ∧
    v'.chatEntryEnabled = v.chatEntryEnabled ∧ v'.nickname = v.nickname ∧
    v'.participantsModel.ownNickname = v.participantsModel.ownNickname

/-- The events that the GUI recognises. -/
def Recognised (e : ChatEvent) : Prop :=
  13 ∉ e.line ∧
    match e with
    | .message nickname _ => nickname ≠ []
    | .left departed => departed.length = 1
    | _ => True

/-! ## Lines that are recognised -/

section Recognised

variable {v : View} {rest : Bytes}

/-- A line without a carriage return is read as a whole. -/
theorem readLine_whole {line : Bytes} (h10 : 10 ∉ line) (h13 : 13 ∉ line) (rest : Bytes) :
    readLine (line ++ 10 :: rest) = some (line, rest) := by
  refine readLine_line (fun c hc => ?_) rest
  have hc10 : c ≠ 10 := fun h => h10 (h ▸ hc)
  have hc13 : c ≠ 13 := fun h => h13 (h ▸ hc)
  simp [isTerminator, hc10, hc13]

/-- The first `:: ` of a message stands behind the nickname. -/
theorem indexOf_messageLine {nickname : Bytes} (h : 58 ∉ nickname) (text : Bytes) :
    indexOf (str ":: ") (messageLine nickname text) = some nickname.length := by
  rw [messageLine, List.append_assoc]
  exact indexOf_append h text

/-- The parts of a message before and behind its first `:: `. -/
theorem take_messageLine {nickname : Bytes} {k : ℕ} (hk : nickname.length = k + 1) (text : Bytes) :
    (messageLine nickname text).take (k + 1) = nickname ∧
      (messageLine nickname text).drop (k + 4) = text := by
  have hlen : (nickname ++ str ":: ").length = k + 4 := by
    rw [List.length_append, hk]
    rfl
  constructor
  · rw [messageLine, List.append_assoc, ← hk, List.take_left]
  · rw [messageLine, ← hlen, List.drop_left]

theorem ne_succeeded_of_indexOf {line : Bytes} {k : ℕ} (h : indexOf (str ":: ") line = some k) :
    line ≠ str "Succeeded, current users:" := by
  rintro rfl
  have hnone : indexOf (str ":: ") (str "Succeeded, current users:") = none := by decide
  rw [hnone] at h
  cases h

/-- **A message**: the sender is what stands before the first `:: `, the text what stands behind
it. -/
theorem interpretInput_message {nickname text : Bytes} (hne : nickname ≠ []) (h58 : 58 ∉ nickname)
    (h10 : 10 ∉ messageLine nickname text) (h13 : 13 ∉ messageLine nickname text) :
    interpretInput v (messageLine nickname text ++ 10 :: rest) =
      .ok (true, v.displayMessage nickname text, rest) := by
  have hindex := indexOf_messageLine h58 text
  obtain ⟨k, hk⟩ := Nat.exists_eq_succ_of_ne_zero (mt List.length_eq_zero_iff.1 hne)
  obtain ⟨htake, hdrop⟩ := take_messageLine hk text
  rw [interpretInput, readLine_whole h10 h13]
  dsimp only
  rw [if_neg (ne_succeeded_of_indexOf hindex), hindex, hk]
  dsimp only [Nat.succ_eq_add_one]
  rw [htake, hdrop]

/-- A notice with one colon at most is not taken for a message. -/
theorem interpretInput_notice {line : Bytes} (h10 : 10 ∉ line) (h13 : 13 ∉ line)
    (h58 : line.count 58 ≤ 1) (hpre : str "NOTICE " <+: line) :
    interpretInput v (line ++ 10 :: rest) =
      (interpretNotice v line >>= fun v' => .ok (true, v', rest)) := by
  have hne : line ≠ str "Succeeded, current users:" := by
    rintro rfl
    exact absurd hpre (by decide)
  have hindex : indexOf (str ":: ") line = none := by
    cases hi : indexOf (str ":: ") line with
    | none => rfl
    | some k =>
      have hcount := (infix_of_indexOf hi).sublist.count_le 58
      rw [show (str ":: ").count 58 = 2 by decide] at hcount
      omega
  rw [interpretInput, readLine_whole h10 h13]
  dsimp only
  rw [if_neg hne, hindex]
  dsimp only
  rw [interpretOther, if_pos (startsWith_iff.2 hpre)]

/-- A word before a blank is the first part. -/
theorem fields_word {w : Bytes} (h : 32 ∉ w) (s : Bytes) : fields (w ++ 32 :: s) = w :: fields s := by
  rw [fields_append, fields_of_not_mem h, List.singleton_append]

/-- **A join notice** has five parts. -/
theorem interpretNotice_joined {n ip port : Bytes} (hn : 32 ∉ n) (hip : 32 ∉ ip)
    (hport : 32 ∉ port) :
    interpretNotice v (joinMessage n ip port) =
      .ok ((v.addParticipant n).displayNotice ((joinMessage n ip port).drop 7)) := by
  have hline : joinMessage n ip port = (str "NOTICE" ++ 32 :: (n ++ 32 :: (str "joined" ++
      32 :: str "on"))) ++ 32 :: (ip ++ 58 :: port) := by simp [joinMessage, str]
  have hparts : split (joinMessage n ip port) =
      [str "NOTICE", n, str "joined", str "on", ip ++ 58 :: port] := by
    rw [hline, split_append (by simp [hip, hport]) (by simp), fields_word (by decide),
      fields_word hn, fields_word (by decide), fields_of_not_mem (by decide)]
    rfl
  rw [interpretNotice, hparts]
  rfl

/-- **A notice about one departure** has seven parts. -/
theorem interpretNotice_left {n : Bytes} (hn : 32 ∉ n) :
    interpretNotice v (leaveMessage n) =
      .ok ((v.removeParticipant n).displayNotice ((leaveMessage n).drop 7)) := by
  have hline : leaveMessage n = (str "NOTICE" ++ 32 :: (n ++ 32 :: (str "left" ++
      32 :: (str "the" ++ 32 :: (str "chat" ++ 32 :: str "or"))))) ++ 32 :: str "crashed" := by
    simp [leaveMessage, str]
  have hparts : split (leaveMessage n) =
      [str "NOTICE", n, str "left", str "the", str "chat", str "or", str "crashed"] := by
    rw [hline, split_append (by decide) (by decide), fields_word (by decide), fields_word hn,
      fields_word (by decide), fields_word (by decide), fields_word (by decide),
      fields_of_not_mem (by decide)]
    rfl
  have hend : endsWith (leaveMessage n) (str " left the chat or crashed") = true :=
    endsWith_iff.2 (List.suffix_append _ _)
  rw [interpretNotice, hparts, hend]
  rfl

/-- **A notice about a new leader** has six parts. -/
theorem interpretNotice_newLeader {n : Bytes} (hn : 32 ∉ n) :
    interpretNotice v (victoryMessage n) =
      (v.setLeader n >>= fun v => .ok (v.displayNotice ((victoryMessage n).drop 7))) := by
  have hline : victoryMessage n = (str "NOTICE" ++ 32 :: (n ++ 32 :: (str "is" ++
      32 :: (str "the" ++ 32 :: str "new")))) ++ 32 :: str "leader" := by
    simp [victoryMessage, str]
  have hparts : split (victoryMessage n) =
      [str "NOTICE", n, str "is", str "the", str "new", str "leader"] := by
    rw [hline, split_append (by decide) (by decide), fields_word (by decide), fields_word hn,
      fields_word (by decide), fields_word (by decide), fields_of_not_mem (by decide)]
    rfl
  have hend : endsWith (victoryMessage n) (str " is the new leader") = true :=
    endsWith_iff.2 (List.suffix_append _ _)
  rw [interpretNotice, hparts, hend]
  rfl

end Recognised

/-! ## The list after an event -/

section Lists

variable {v : View} {chat : List Participant}

theorem mem_names {n : Bytes} : n ∈ names chat ↔ ∃ p ∈ chat, p.nickname = n := by
  rw [names, List.mem_toFinset, List.mem_map]

theorem Mirrors.joined (h : Mirrors v chat) {p : Participant} (hp : p.isLeader = false) :
    Mirrors (v.addParticipant p.nickname) (chat ++ [p]) := by
  have hnames : names (chat ++ [p]) = insert p.nickname (names chat) := by
    ext n
    simp only [Finset.mem_insert, mem_names, List.mem_append, List.mem_singleton]
    constructor
    · rintro ⟨q, hq | rfl, rfl⟩
      · exact .inr ⟨q, hq, rfl⟩
      · exact .inl rfl
    · rintro (rfl | ⟨q, hq, rfl⟩)
      · exact ⟨p, .inr rfl, rfl⟩
      · exact ⟨q, .inl hq, rfl⟩
  have hleader : (chat ++ [p]).find? Participant.isLeader = chat.find? Participant.isLeader := by
    rw [List.find?_append, List.find?_singleton, hp]
    exact Option.or_none
  rw [Mirrors, hnames, hleader]
  exact h.addParticipant p.nickname

theorem Mirrors.left (h : Mirrors v chat) (hnodup : (chat.map fun p => p.nickname).Nodup)
    {p : Participant} (hp : p ∈ others chat) :
    Mirrors (v.removeParticipant p.nickname) (chat.filter (· ∉ [p])) := by
  obtain ⟨hmem, hflag⟩ := mem_others.1 hp
  have hsame : ∀ q ∈ chat, q.nickname = p.nickname → q = p := fun q hq hn =>
    List.inj_on_of_nodup_map hnodup hq hmem hn
  have hnames : names (chat.filter (· ∉ [p])) = (names chat).erase p.nickname := by
    ext n
    simp only [Finset.mem_erase, mem_names, List.mem_filter, List.mem_singleton, decide_eq_true_eq]
    constructor
    · rintro ⟨q, ⟨hq, hne⟩, rfl⟩
      exact ⟨fun hn => hne (hsame q hq hn), q, hq, rfl⟩
    · rintro ⟨hne, q, hq, rfl⟩
      exact ⟨q, ⟨hq, fun h => hne (h ▸ rfl)⟩, rfl⟩
  have hleader : (chat.filter (· ∉ [p])).find? Participant.isLeader =
      chat.find? Participant.isLeader := by
    rw [List.find?_filter]
    congr 1
    funext q
    by_cases hq : q = p
    · simp [hq, hflag]
    · simp [hq]
  have hne : (chat.find? Participant.isLeader).map (fun p => p.nickname) ≠ some p.nickname := by
    intro hfind
    obtain ⟨q, hq, hn⟩ := Option.map_eq_some_iff.1 hfind
    have hq' := List.mem_of_find?_eq_some hq
    have hlead := List.find?_some hq
    rw [hsame q hq' hn, hflag] at hlead
    cases hlead
  rw [Mirrors, hnames, hleader]
  exact h.removeParticipant (mem_names.2 ⟨p, hmem, rfl⟩) hne

theorem Mirrors.newLeader (h : Mirrors v chat) {n : Bytes} (hn : ∃ p ∈ chat, p.nickname = n) :
    v.setLeader n =
        .ok { v with participantsModel := { v.participantsModel with leader := some n } } ∧
      Mirrors { v with participantsModel := { v.participantsModel with leader := some n } }
        (chat.map fun p => { p with isLeader := p.nickname = n }) := by
  obtain ⟨hm, hshows⟩ := h.setLeader (mem_names.2 hn)
  have hnames : names (chat.map fun p => { p with isLeader := p.nickname = n }) = names chat := by
    rw [names, names, List.map_map]
    rfl
  have hleader : ((chat.map fun p => { p with isLeader := decide (p.nickname = n) }).find?
      Participant.isLeader).map (fun p => p.nickname) = some n := by
    cases hfind : (chat.map fun p => { p with isLeader := decide (p.nickname = n) }).find?
        Participant.isLeader with
    | none =>
      obtain ⟨p, hp, hpn⟩ := hn
      have hnot := List.find?_eq_none.1 hfind _ (List.mem_map_of_mem hp)
      exact absurd (decide_eq_true hpn) hnot
    | some q =>
      obtain ⟨p, hp, rfl⟩ := List.mem_map.1 (List.mem_of_find?_eq_some hfind)
      have hflag := List.find?_some hfind
      have hn : decide (p.nickname = n) = true := hflag
      exact congrArg some (of_decide_eq_true hn)
  refine ⟨by rw [View.setLeader, hm]; rfl, ?_⟩
  rw [Mirrors, hnames, hleader]
  exact hshows

end Lists

/-! ## Recognised events are followed -/

section Follows

variable {v : View} {chat : List Participant}

theorem leaveNames_singleton (p : Participant) : leaveNames [p] = p.nickname := by
  rw [leaveNames, departedNames_cons]
  simp [departedNames, str]

/-- The notices about one nickname fit their buffers. -/
theorem line_joined {p : Participant} (hp : Name p.nickname) (hip : IsIpAddress p.ipAddress)
    (hport : IsPortNum p.portNum) :
    (ChatEvent.joined p).line = joinMessage p.nickname p.ipAddress p.portNum := by
  have h1 := hp.admitted.length_le
  have h2 := hip.length_le
  have h3 := hport.length_le
  refine snprintf_of_lt ?_
  simp only [maxNicknameLen, maxIpAddressLen, maxPortNumLen] at h1 h2 h3
  simp only [joinMessage, List.length_append, show (str "NOTICE ").length = 7 by decide,
    show (str " joined on ").length = 11 by decide, show (str ":").length = 1 by decide,
    maxBufferLen]
  omega

theorem line_left {p : Participant} (hp : Name p.nickname) :
    (ChatEvent.left [p]).line = leaveMessage p.nickname := by
  have h1 := hp.admitted.length_le
  rw [ChatEvent.line, leaveNames_singleton]
  refine snprintf_of_lt ?_
  simp only [maxNicknameLen] at h1
  simp only [leaveMessage, List.length_append, show (str "NOTICE ").length = 7 by decide,
    show (str " left the chat or crashed").length = 25 by decide]
  omega

theorem line_newLeader {n : Bytes} (hn : Name n) :
    (ChatEvent.newLeader n).line = victoryMessage n := by
  have h1 := hn.admitted.length_le
  refine snprintf_of_lt ?_
  simp only [maxNicknameLen] at h1
  simp only [victoryMessage, List.length_append, show (str "NOTICE ").length = 7 by decide,
    show (str " is the new leader").length = 18 by decide]
  omega

theorem Name.not_mem {n : Bytes} (h : Name n) : 58 ∉ n ∧ 32 ∉ n :=
  ⟨fun hc => absurd (h.admitted.bytes 58 hc) (by decide),
    fun hc => absurd (h.admitted.bytes 32 hc) (by decide)⟩

theorem not_mem_leaveNames {ps : List Participant} (h : ∀ p ∈ ps, Name p.nickname) :
    10 ∉ leaveNames ps := by
  intro hc
  obtain ⟨w, hw, hc⟩ := List.mem_flatten.1 (List.mem_of_mem_take hc)
  obtain ⟨p, hp, rfl⟩ := List.mem_map.1 hw
  obtain hc | hc := List.mem_append.1 hc
  · exact (h p hp).no_newline hc
  · exact absurd hc (by decide)

/-- The line of a notice begins with `NOTICE ` and is one line. -/
theorem line_notice {e : ChatEvent} (h : Occurs chat e) (he : ∀ n t, e ≠ .message n t) :
    str "NOTICE " <+: e.line ∧ 10 ∉ e.line := by
  cases e with
  | message n t => exact absurd rfl (he n t)
  | joined p =>
    obtain ⟨hn, hip, hport, -⟩ := h
    have hip10 : 10 ∉ p.ipAddress := fun hc => absurd (hip.bytes 10 hc) (by decide)
    have hport10 : 10 ∉ p.portNum := fun hc => absurd (hport.bytes 10 hc) (by decide)
    rw [line_joined hn hip hport]
    refine ⟨⟨p.nickname ++ str " joined on " ++ p.ipAddress ++ str ":" ++ p.portNum, ?_⟩, ?_⟩
    · simp only [joinMessage, List.append_assoc]
    · simp [joinMessage, str, hn.no_newline, hip10, hport10]
  | left ps =>
    obtain ⟨-, -, hps⟩ := h
    have hnames := not_mem_leaveNames hps
    have hbody : 10 ∉ leaveMessage (leaveNames ps) := by simp [leaveMessage, str, hnames]
    refine ⟨?_, fun hc => hbody (List.mem_of_mem_take hc)⟩
    refine List.prefix_take_iff.2 ⟨⟨leaveNames ps ++ str " left the chat or crashed", ?_⟩, by decide⟩
    simp only [leaveMessage, List.append_assoc]
  | newLeader n =>
    obtain ⟨hn, -⟩ := h
    rw [line_newLeader hn]
    refine ⟨⟨n ++ str " is the new leader", ?_⟩, ?_⟩
    · simp only [victoryMessage, List.append_assoc]
    · simp [victoryMessage, str, hn.no_newline]

/-- **The events that are recognised are followed.** -/
theorem follows_of_recognised {e : ChatEvent} (hmirrors : Mirrors v chat)
    (hnodup : (chat.map fun p => p.nickname).Nodup) (h : Occurs chat e) (hr : Recognised e) :
    Follows v chat e := by
  obtain ⟨h13, hr⟩ := hr
  intro rest
  cases e with
  | message n t =>
    obtain ⟨h58, hspace, ht⟩ := h
    have h10 : 10 ∉ messageLine n t := by
      have hn : 10 ∉ n := fun hc => absurd (hspace 10 hc) (by decide)
      simp [messageLine, str, hn, ht]
    exact ⟨_, interpretInput_message hr h58 h10 h13, hmirrors, rfl, rfl, rfl, rfl⟩
  | joined p =>
    obtain ⟨hpre, h10⟩ := line_notice h (by simp)
    obtain ⟨hn, hip, hport, hflag⟩ := h
    obtain ⟨hn58, hn32⟩ := hn.not_mem
    have hbytes : ∀ c, isAddressByte c = false → c ∉ p.ipAddress ∧ c ∉ p.portNum := by
      intro c hc
      refine ⟨fun h => ?_, fun h => ?_⟩
      · rw [hip.bytes c h] at hc
        cases hc
      · rw [isAddressByte, hport.bytes c h] at hc
        cases hc
    have hcount : (joinMessage p.nickname p.ipAddress p.portNum).count 58 ≤ 1 := by
      obtain ⟨hip58, hport58⟩ := hbytes 58 (by decide)
      simp only [joinMessage, List.count_append, List.count_eq_zero.2 hn58,
        List.count_eq_zero.2 hip58, List.count_eq_zero.2 hport58]
      decide
    have hline := line_joined hn hip hport
    refine ⟨(v.addParticipant p.nickname).displayNotice ((ChatEvent.joined p).line.drop 7), ?_,
      hmirrors.joined hflag, rfl, rfl, rfl, v.participantsModel.addParticipant_ownNickname _⟩
    rw [interpretInput_notice h10 h13 (by rwa [hline]) hpre, hline,
      interpretNotice_joined hn32 (hbytes 32 (by decide)).1 (hbytes 32 (by decide)).2]
    rfl
  | left ps =>
    obtain ⟨p, rfl⟩ := List.length_eq_one_iff.1 hr
    obtain ⟨hpre, h10⟩ := line_notice h (by simp)
    obtain ⟨-, hsub, hn⟩ := h
    have hn := hn p (List.mem_singleton_self p)
    obtain ⟨hn58, hn32⟩ := hn.not_mem
    have hcount : (leaveMessage p.nickname).count 58 ≤ 1 := by
      simp only [leaveMessage, List.count_append, List.count_eq_zero.2 hn58]
      decide
    have hline := line_left hn
    refine ⟨(v.removeParticipant p.nickname).displayNotice ((ChatEvent.left [p]).line.drop 7), ?_,
      hmirrors.left hnodup (hsub.subset (List.mem_singleton_self p)), rfl, rfl, rfl,
      v.participantsModel.removeParticipant_ownNickname _⟩
    rw [interpretInput_notice h10 h13 (by rwa [hline]) hpre, hline, interpretNotice_left hn32]
    rfl
  | newLeader n =>
    obtain ⟨hpre, h10⟩ := line_notice h (by simp)
    obtain ⟨hn, hmem⟩ := h
    obtain ⟨hn58, hn32⟩ := hn.not_mem
    have hcount : (victoryMessage n).count 58 ≤ 1 := by
      simp only [victoryMessage, List.count_append, List.count_eq_zero.2 hn58]
      decide
    have hline := line_newLeader hn
    obtain ⟨hm, hmirrors'⟩ := hmirrors.newLeader hmem
    let v₁ : View :=
      { v with participantsModel := { v.participantsModel with leader := some n } }
    refine ⟨v₁.displayNotice ((ChatEvent.newLeader n).line.drop 7), ?_, hmirrors', rfl, rfl, rfl,
      rfl⟩
    rw [interpretInput_notice h10 h13 (by rwa [hline]) hpre, hline,
      interpretNotice_newLeader hn32, hm]
    rfl

end Follows

/-! ## Events that are followed are recognised -/

section Converse

variable {v v' : View} {chat : List Participant}

/-- A notice line changes one name of the list at most, and shows itself if it shows anything. -/
theorem interpretNotice_frame {line : Bytes} (h : interpretNotice v line = .ok v') :
    (v'.chatDoc = v.chatDoc ∨ v'.chatDoc = v.chatDoc ++ [⟨line.drop 7 ++ [10], .notice⟩]) ∧
      ∃ n, ∀ a ∈ v.participantsModel.participants, a ≠ n →
        a ∈ v'.participantsModel.participants := by
  unfold interpretNotice at h
  dsimp only at h
  split at h
  · obtain rfl := Except.ok.inj h
    refine ⟨.inr rfl, (split line).getD 1 [], fun a ha hne => ?_⟩
    change a ∈ (v.participantsModel.removeParticipant _).participants
    unfold ParticipantListModel.removeParticipant
    split
    · exact Finset.mem_erase.2 ⟨hne, ha⟩
    · exact ha
  split at h
  · obtain rfl := Except.ok.inj h
    refine ⟨.inr rfl, [], fun a ha _ => ?_⟩
    change a ∈ (v.participantsModel.addParticipant _).participants
    unfold ParticipantListModel.addParticipant
    split
    · exact ha
    · exact Finset.mem_insert_of_mem ha
  split at h
  · cases hv : v.setLeader ((split line).getD 1 []) with
    | error e =>
      rw [hv] at h
      cases h
    | ok v₁ =>
      rw [hv] at h
      obtain rfl := Except.ok.inj h
      obtain rfl := View.setLeader_ok hv
      exact ⟨.inr rfl, [], fun a ha _ => ha⟩
  · obtain rfl := Except.ok.inj h
    exact ⟨.inl rfl, [], fun a ha _ => ha⟩

/-- A notice that is shown was read as a whole, and it changed one name of the list at most. -/
theorem shown_notice {line rest rest' : Bytes} {b : Bool} (h10 : 10 ∉ line)
    (hpre : str "NOTICE " <+: line)
    (h : interpretInput v (line ++ 10 :: rest) = .ok (b, v', rest'))
    (hdoc : v'.chatDoc = v.chatDoc ++ [⟨line.drop 7 ++ [10], .notice⟩]) :
    13 ∉ line ∧ ∃ n, ∀ a ∈ v.participantsModel.participants, a ≠ n →
      a ∈ v'.participantsModel.participants := by
  obtain ⟨body, rfl⟩ := hpre
  obtain ⟨rest₁, hread⟩ := readLine_eq (str "NOTICE " ++ body) rest h10
  have hcut : (str "NOTICE " ++ body).takeWhile (· != 13) =
      str "NOTICE " ++ body.takeWhile (· != 13) :=
    List.takeWhile_append_of_pos (List.all_eq_true.1 (by decide))
  rw [hcut] at hread
  have hne : str "NOTICE " ++ body.takeWhile (· != 13) ≠ str "Succeeded, current users:" := by
    intro h
    have hhead : some (78 : UInt8) = some 83 := congrArg List.head? h
    exact absurd hhead (by decide)
  rw [interpretInput, hread] at h
  dsimp only at h
  rw [if_neg hne] at h
  split at h
  · -- a message shows two pieces
    obtain ⟨-, hrest⟩ := Prod.mk.inj (Except.ok.inj h)
    obtain ⟨rfl, -⟩ := Prod.mk.inj hrest
    have hlen := congrArg List.length (List.append_cancel_left hdoc)
    cases hlen
  · rw [interpretOther, if_pos (startsWith_iff.2 (List.prefix_append _ _))] at h
    cases hv : interpretNotice v (str "NOTICE " ++ body.takeWhile (· != 13)) with
    | error e =>
      rw [hv] at h
      cases h
    | ok v₁ =>
      rw [hv] at h
      obtain ⟨-, hrest⟩ := Prod.mk.inj (Except.ok.inj h)
      obtain ⟨rfl, -⟩ := Prod.mk.inj hrest
      obtain ⟨hshown, hlist⟩ := interpretNotice_frame hv
      refine ⟨fun h13 => ?_, hlist⟩
      obtain hsame | hshown := hshown
      · exact absurd (hsame.symm.trans hdoc) (by simp)
      have hpiece := List.singleton_inj.1 (List.append_cancel_left (hshown.symm.trans hdoc))
      have htext := List.append_cancel_right (congrArg Piece.text hpiece)
      have hbody : body.takeWhile (· != 13) = body := htext
      obtain h13 | h13 := List.mem_append.1 h13
      · exact absurd h13 (by decide)
      · rw [← hbody] at h13
        exact absurd (List.mem_takeWhile_imp h13) (by decide)

/-- A line that is no message shows one piece at most. -/
theorem interpretOther_frame {line : Bytes} (h : interpretOther v line = .ok v') :
    v'.chatDoc.length ≤ v.chatDoc.length + 1 := by
  have hnotice : ∀ (v : View) (notice : Bytes),
      (v.displayNotice notice).chatDoc.length = v.chatDoc.length + 1 := fun v notice =>
    List.length_append
  unfold interpretOther at h
  split at h
  · obtain ⟨hdoc | hdoc, -⟩ := interpretNotice_frame h
    · rw [hdoc]
      omega
    · rw [hdoc]
      exact (List.length_append).le
  split at h
  · obtain rfl := Except.ok.inj h
    exact Nat.le_succ _
  split at h
  · cases hparts : split line with
    | nil =>
      rw [hparts] at h
      cases h
    | cons nickname parts =>
      rw [hparts] at h
      dsimp only at h
      cases hv : v.initAsLeader nickname with
      | error e =>
        rw [hv] at h
        cases h
      | ok v₁ =>
        rw [hv] at h
        obtain rfl := Except.ok.inj h
        have hsame := congrArg View.chatDoc (View.setLeader_ok hv)
        rw [hnotice, hsame]
        exact le_rfl
  · obtain rfl := Except.ok.inj h
    exact (hnotice v line).le

/-- A message that is shown was read as a whole, and has a sender. -/
theorem shown_message {n t rest rest' : Bytes} {b : Bool} (h58 : 58 ∉ n)
    (h13 : 13 ∉ n) (h10 : 10 ∉ messageLine n t)
    (h : interpretInput v (messageLine n t ++ 10 :: rest) = .ok (b, v', rest'))
    (hdoc : v'.chatDoc = v.chatDoc ++ (ChatEvent.message n t).shown v.nickname) :
    13 ∉ messageLine n t ∧ n ≠ [] := by
  obtain ⟨rest₁, hread⟩ := readLine_eq (messageLine n t) rest h10
  have hsep : 13 ∉ n ++ str ":: " := by simp [str, h13]
  have hcut : (messageLine n t).takeWhile (· != 13) = messageLine n (t.takeWhile (· != 13)) := by
    refine List.takeWhile_append_of_pos fun c hc => ?_
    simpa using fun h : c = 13 => hsep (h ▸ hc)
  rw [hcut] at hread
  have hindex := indexOf_messageLine h58 (t.takeWhile (· != 13))
  rw [interpretInput, hread] at h
  dsimp only at h
  rw [if_neg (ne_succeeded_of_indexOf hindex), hindex] at h
  cases hk : n.length with
  | zero =>
    -- without a sender the line is not taken for a message
    rw [hk] at h
    dsimp only at h
    cases hv : interpretOther v (messageLine n (t.takeWhile (· != 13))) with
    | error e =>
      rw [hv] at h
      cases h
    | ok v₁ =>
      rw [hv] at h
      obtain ⟨-, hrest⟩ := Prod.mk.inj (Except.ok.inj h)
      obtain ⟨rfl, -⟩ := Prod.mk.inj hrest
      have hle := interpretOther_frame hv
      rw [hdoc, List.length_append] at hle
      have htwo : ((ChatEvent.message n t).shown v.nickname).length = 2 := rfl
      omega
  | succ k =>
    rw [hk] at h
    dsimp only at h
    obtain ⟨htake, hdrop⟩ := take_messageLine hk (t.takeWhile (· != 13))
    rw [htake, hdrop] at h
    obtain ⟨-, hrest⟩ := Prod.mk.inj (Except.ok.inj h)
    obtain ⟨rfl, -⟩ := Prod.mk.inj hrest
    have hpieces := List.append_cancel_left hdoc
    have hpiece := (List.cons.inj (List.cons.inj hpieces).2).1
    have htext : t.takeWhile (· != 13) = t := List.append_cancel_right (congrArg Piece.text hpiece)
    refine ⟨fun hline => ?_, fun hnil => by simp [hnil] at hk⟩
    obtain hline | hline := List.mem_append.1 hline
    · exact hsep hline
    · rw [← htext] at hline
      exact absurd (List.mem_takeWhile_imp hline) (by decide)

/-- **The events that are followed are recognised.** -/
theorem recognised_of_follows {e : ChatEvent} (hmirrors : Mirrors v chat)
    (hnodup : (chat.map fun p => p.nickname).Nodup) (h : Occurs chat e) (hf : Follows v chat e) :
    Recognised e := by
  obtain ⟨v', hread, hmirrors', hdoc, -⟩ := hf []
  cases e with
  | message n t =>
    obtain ⟨h58, hspace, ht⟩ := h
    have hn10 : 10 ∉ n := fun hc => absurd (hspace 10 hc) (by decide)
    have hn13 : 13 ∉ n := fun hc => absurd (hspace 13 hc) (by decide)
    exact shown_message h58 hn13 (by simp [messageLine, str, hn10, ht]) hread hdoc
  | joined p =>
    obtain ⟨hpre, h10⟩ := line_notice h (by simp)
    exact ⟨(shown_notice h10 hpre hread hdoc).1, trivial⟩
  | newLeader n =>
    obtain ⟨hpre, h10⟩ := line_notice h (by simp)
    exact ⟨(shown_notice h10 hpre hread hdoc).1, trivial⟩
  | left ps =>
    obtain ⟨hpre, h10⟩ := line_notice h (by simp)
    obtain ⟨h13, n, hlist⟩ := shown_notice h10 hpre hread hdoc
    obtain ⟨hne, hsub, -⟩ := h
    refine ⟨h13, ?_⟩
    have hmem : ∀ p ∈ ps, p ∈ chat := fun p hp => (mem_others.1 (hsub.subset hp)).1
    -- whoever has left is the one whose name was changed
    have hname : ∀ p ∈ ps, p.nickname = n := by
      intro p hp
      by_contra hpn
      have hlisted := hlist p.nickname
        (hmirrors.participants ▸ mem_names.2 ⟨p, hmem p hp, rfl⟩) hpn
      rw [hmirrors'.participants, mem_names] at hlisted
      obtain ⟨q, hq, hqp⟩ := hlisted
      obtain ⟨hq, hnot⟩ := List.mem_filter.1 hq
      have hqp := List.inj_on_of_nodup_map hnodup hq (hmem p hp) hqp
      exact of_decide_eq_true hnot (hqp ▸ hp)
    have hsame : ∀ p ∈ ps, ∀ q ∈ ps, p = q := fun p hp q hq =>
      List.inj_on_of_nodup_map hnodup (hmem p hp) (hmem q hq) ((hname p hp).trans (hname q hq).symm)
    have hps : ps.Nodup := hsub.nodup (hnodup.of_map.filter _)
    cases ps with
    | nil => exact absurd rfl hne
    | cons p rest =>
      cases rest with
      | nil => rfl
      | cons q rest =>
        obtain rfl := hsame p (by simp) q (by simp)
        exact absurd hps (by simp)

end Converse

/-- **What the GUI follows.** With a GUI that shows the list of the chat, whose nicknames are
different, the line of an event has the effect of the event if and only if it contains no carriage
return and, if it is a message, has a sender, and if it is about departures, about one. -/
theorem follows_iff {v : View} {chat : List Participant} {e : ChatEvent} (hmirrors : Mirrors v chat)
    (hnodup : (chat.map fun p => p.nickname).Nodup) (h : Occurs chat e) :
    Follows v chat e ↔ Recognised e :=
  ⟨recognised_of_follows hmirrors hnodup h, follows_of_recognised hmirrors hnodup h⟩

/-- The leader `b` of a chat with `a` and `c`. -/
def trio : List Participant :=
  [⟨⟨0, str "b", str "127.0.0.1", str "80"⟩, true⟩,
    ⟨⟨1, str "a", str "127.0.0.1", str "81"⟩, false⟩,
    ⟨⟨2, str "c", str "127.0.0.1", str "82"⟩, false⟩]

/-- The GUI of `b`. -/
def trioView : View where
  participantsModel :=
    { participants := {str "a", str "b", str "c"}
      sortedParticipants := [str "a", str "b", str "c"]
      leader := some (str "b")
      ownNickname := str "b" }
  chatDoc := []
  chatEntryEnabled := true
  nickname := str "b"

theorem mirrors_trio : Mirrors trioView trio where
  participants := by decide
  sorted := by decide
  nodup := by decide
  mem_sorted n := by
    rw [show names trio = [str "a", str "b", str "c"].toFinset by decide, List.mem_toFinset]
    rfl
  leader := by decide

theorem name_of_trio {p : Participant} (hp : p ∈ trio) : Name p.nickname := by
  obtain rfl | rfl | rfl : p = trio[0] ∨ p = trio[1] ∨ p = trio[2] := by simpa [trio] using hp
  · exact ⟨⟨by decide, by decide, by decide⟩, by decide⟩
  · exact ⟨⟨by decide, by decide, by decide⟩, by decide⟩
  · exact ⟨⟨by decide, by decide, by decide⟩, by decide⟩

theorem follows_iff_trio :
    Follows trioView trio (.left [trio[1]]) ↔ Recognised (.left [trio[1]]) :=
  follows_iff mirrors_trio (by decide)
    ⟨by decide, by decide, fun p hp => by
      obtain rfl := List.mem_singleton.1 hp
      exact name_of_trio (by decide)⟩

/-- `a` and `c` leave at once: the notice has eight parts. -/
theorem not_follows : ¬ ∀ v chat e, Mirrors v chat → (chat.map fun p => p.nickname).Nodup →
    Occurs chat e → Follows v chat e := by
  intro h
  have hoccurs : Occurs trio (.left [trio[1], trio[2]]) :=
    ⟨by decide, by decide, fun p hp => name_of_trio (by
      obtain rfl | rfl : p = trio[1] ∨ p = trio[2] := by simpa using hp
      · decide
      · decide)⟩
  have hr := recognised_of_follows mirrors_trio (by decide) hoccurs
    (h trioView trio _ mirrors_trio (by decide) hoccurs)
  exact absurd hr.2 (by decide)

end Dchat.Gui
