import Dchat.Chat.Payload
import Dchat.Chat.Stops
import Mathlib.Data.List.MinMax

/-!
# What is left in the local variables

Only `EOF` is checked of the results of `sscanf`, and the conversions that did not take place leave
their variables as they were. Here a message is received twice, with any two contents of the local
variables before.

* `outcome` is what can be told of a call: the messages, and the participant list, the leader, the
  clock and the flags, or the fault. `Independent` says that it is the same for all contents.
* `LeaderReads` and `NonLeaderReads` are the conditions on a message, branch by branch, under which
  it is, and `independent_iff` is the equivalence. `chatStep_observed` is what it means for the
  event loop.
* `not_independent`: a MESSAGE_BROADCAST without a number sets the clock to what was there before.
-/

namespace Dchat.Chat

open CString Stdio RMP

/-! ## The property -/

/-- The globals that matter: the participant list, the leader, the clock and the flags. -/
structure Observed where
  participants : List Participant
  leader : Option Peer
  clockNum : ℤ
  isLeader : Bool
  inElection : Bool
  startedElection : Bool
  deriving DecidableEq

/-- The part of the globals that matters. -/
def Node.observed (s : Node) : Observed where
  participants := s.participants
  leader := s.leader
  clockNum := s.clockNum
  isLeader := s.isLeader
  inElection := s.inElection
  startedElection := s.startedElection

/-- What the process has sent after a call, and what the call left of the globals or why it
stopped. -/
def outcome (x : Except Stop Node) : List Sent × Except Fault Observed :=
  (Traced.sentBy id x, (x.mapError Stop.fault).map Node.observed)

/-- The outcome is the same whatever the local variables held before. -/
def Independent (receive : Locals → Except Stop Node) : Prop :=
  ∀ locals locals', outcome (receive locals) = outcome (receive locals')

/-! ## The condition -/

/-- A MESSAGE_REQUEST says something, and if it has no payload none is passed on: its nickname is
too long for its array, the number would overflow, or there is no one to send to. -/
def RequestReads (env : Env) (s : Node) (rest : Bytes) : Prop :=
  rest ≠ [] ∧ (maxNicknameLen ≤ (rest.takeWhile isSenderByte).length ∨
    (payloadOf isSenderByte rest).isSome ∨ s.clockNum = 2147483647 ∨
    Traced.firstDestination env s.participants = none)

/-- The search for the sender of a START_ELECTION compares no address that was there before, or
finds a sender of the same rank if it does not. -/
def Identified (env : Env) (s : Node) (src : RmpAddress) : Prop :=
  ∀ first ∈ s.participants.head?, env.getAddressFor first.ipAddress first.portNum = none →
    ∃ q, (s.participants.find? fun p => env.getAddressFor p.ipAddress p.portNum = some src) =
        some q ∧
      (0 < strcmp s.thisNickname q.nickname ↔ 0 < strcmp s.thisNickname first.nickname)

/-- The messages that a leader reads as a whole. -/
structure LeaderReads (env : Env) (s : Node) (buf : Bytes) (src : RmpAddress) : Prop where
  addMe : commandWord buf = messageAddMe → commandRest buf ≠ []
  request : commandWord buf = messageRequest → RequestReads env s (commandRest buf)
  startElection : commandWord buf = messageStartElection → Identified env s src

/-- The messages that other nodes read as a whole. -/
structure NonLeaderReads (env : Env) (s : Node) (buf : Bytes) (src : RmpAddress) : Prop where
  broadcast : commandWord buf = messageBroadcast →
    commandRest buf ≠ [] ∧ (scanDigits (commandRest buf)).isSome
  startElection : commandWord buf = messageStartElection → Identified env s src

/-! ## Outcomes -/

section Outcome

/-- What is printed at the end does not matter. -/
theorem outcome_print (x : Except Stop Node) (line : Node → Bytes) :
    outcome (x >>= fun s => .ok (s.print (line s))) = outcome x := by
  cases x <;> rfl

theorem independent_of_eq {receive : Locals → Except Stop Node} {o : List Sent × Except Fault Observed}
    (h : ∀ locals, outcome (receive locals) = o) : Independent receive :=
  fun locals locals' => (h locals).trans (h locals').symm

/-- **Nodes that return** agree on the globals and on the messages. -/
theorem observed_eq_of_independent {receive : Locals → Except Stop Node} (h : Independent receive)
    {locals locals' : Locals} {s s' : Node} (hs : receive locals = .ok s)
    (hs' : receive locals' = .ok s') : s.observed = s'.observed ∧ s.sent = s'.sent := by
  have heq := h locals locals'
  rw [hs, hs'] at heq
  obtain ⟨hsent, hobs⟩ := Prod.mk.inj heq
  exact ⟨Except.ok.inj hobs, hsent⟩

end Outcome

/-! ## Scanning any message -/

section Scanning

variable {buf : Bytes}

theorem stops_commandRest (buf : Bytes) : Stops isSpace (commandRest buf) :=
  stops_takeWhile (stops_dropWhile isSpace _) isLineByte

theorem length_commandRest_le (buf : Bytes) : (commandRest buf).length ≤ buf.length :=
  (length_field_le isSpace isLineByte _).trans
    ((List.dropWhile_suffix _).length_le.trans (List.dropWhile_suffix _).length_le)

/-- **The first `sscanf`**: the rest of the command keeps what it held if there is none. -/
theorem scanCommand_eq (hlen : buf.length < maxBufferLen) (locals : Locals) :
    scanCommand locals buf =
      if commandWord buf = [] then .error .exit
      else if 20 ≤ (commandWord buf).length then .error .bufferOverflow
      else .ok (commandWord buf,
        if commandRest buf = [] then locals.rest else commandRest buf) := by
  have hword := (List.dropWhile_suffix isSpace (l := buf)).length_le
  have hafter := (List.dropWhile_suffix (fun c => !isSpace c) (l := buf.dropWhile isSpace)).length_le
  rw [scanCommand, commandFormat, sscanf_cons_str]
  change (if commandWord buf = [] then _ else if 20 ≤ (commandWord buf).length then _ else _) >>=
    _ = _
  split
  · rfl
  split
  · rfl
  obtain ⟨r, hr, hassigned⟩ := sscanf_last (p := isLineByte)
    (s := (buf.dropWhile isSpace).dropWhile fun c => !isSpace c)
    (show _ < maxBufferLen + 1 by omega)
  change r.assigned = if commandRest buf = [] then [] else [.text (commandRest buf)] at hassigned
  rw [hr]
  change (if (Scan.cons (.text (commandWord buf)) r).ret = eof then _ else _) = _
  rw [if_neg (Scan.ret_cons_ne_eof _ _)]
  refine congrArg Except.ok (Prod.ext rfl ?_)
  change (Scan.cons (.text (commandWord buf)) r).text 1 locals.rest =
    if commandRest buf = [] then locals.rest else commandRest buf
  rw [Scan.text, Scan.cons, hassigned]
  by_cases hrest : commandRest buf = []
  · simp [hrest]
  · simp [hrest]

end Scanning

/-! ## A START_ELECTION -/

section Election

variable {env : Env} {s : Node} {src : RmpAddress}

/-- What the node makes of the sender found, with the address that was there before: whether it
outranks it. -/
def outranks (env : Env) (s : Node) (src before : RmpAddress) : Option Bool :=
  (findSender env src before s.participants).map fun n => decide (0 < strcmp s.thisNickname n)

/-- The answer to a sender that is unknown, outranked, or neither. -/
def respond (env : Env) (s : Node) (src : RmpAddress) : Option Bool → Except Stop Node
  | none => .error ⟨.nullPointer, s.sent⟩
  | some true => Traced.startElection env (s.rmpSendTo env src messageStopElection).2
  | some false => .ok { s with inElection := true, startedElection := false }

theorem respondToLeaderElection_outranks (locals : Locals) :
    Traced.respondToLeaderElection env locals s src =
      respond env s src (outranks env s src locals.address) := by
  rw [Traced.respondToLeaderElection, outranks]
  cases findSender env src locals.address s.participants with
  | none => rfl
  | some n =>
    by_cases hpos : 0 < strcmp s.thisNickname n
    · simp [hpos, respond]
    · simp [hpos, respond]

/-- **The three answers** are told apart: by the ELECTION_STOP that was sent or not, and by whether
the call returned. -/
theorem outcome_respond_injective : Function.Injective fun b => outcome (respond env s src b) := by
  have hstop : (outcome (respond env s src (some true))).1 ≠ s.sent := by
    have hpre : (s.rmpSendTo env src messageStopElection).2.sent <+:
        (outcome (respond env s src (some true))).1 := Traced.prefix_sent_startElection _
    intro h
    rw [h] at hpre
    have hle := hpre.length_le
    simp only [Node.rmpSendTo, List.length_append, List.length_singleton] at hle
    omega
  let told (o : List Sent × Except Fault Observed) : Option Bool :=
    if o.1 = s.sent then o.2.toOption.map fun _ => false else some true
  have htold : Function.LeftInverse told fun b => outcome (respond env s src b) := by
    rintro (_ | _ | _)
    · exact if_pos rfl
    · exact if_pos rfl
    · exact if_neg hstop
  exact htold.injective

/-- With another address before, the sender is the first participant that resolves to it. -/
theorem findSender_of_ne {before : RmpAddress} (hne : before ≠ src) (ps : List Participant) :
    findSender env src before ps =
      (ps.find? fun p => env.getAddressFor p.ipAddress p.portNum = some src).map
        fun p => p.nickname := by
  induction ps generalizing before with
  | nil => rfl
  | cons p ps ih =>
    rw [findSender, List.find?_cons]
    cases haddr : env.getAddressFor p.ipAddress p.portNum with
    | none => simp [hne, ih hne]
    | some addr =>
      by_cases h : addr = src
      · simp [h]
      · simp [h, ih h]

instance : Nontrivial RmpAddress := ⟨⟨0, 0⟩, ⟨1, 0⟩, by decide⟩

/-- **The address before makes no difference** exactly if the sender is identified. -/
theorem outranks_congr_iff :
    (∀ a a', outranks env s src a = outranks env s src a') ↔ Identified env s src := by
  unfold outranks Identified
  cases s.participants with
  | nil => exact iff_of_true (fun a a' => rfl) (by simp)
  | cons first ps =>
    cases haddr : env.getAddressFor first.ipAddress first.portNum with
    | some addr =>
      refine iff_of_true (fun a a' => ?_) (by simp [haddr])
      simp only [findSender, haddr, Option.getD_some]
    | none =>
      have hown : findSender env src src (first :: ps) = some first.nickname := by
        simp [findSender, haddr]
      have hfind : ∀ a, a ≠ src → findSender env src a (first :: ps) =
          ((first :: ps).find? fun p => env.getAddressFor p.ipAddress p.portNum = some src).map
            fun p => p.nickname := fun a ha => findSender_of_ne ha _
      simp only [List.head?_cons, Option.mem_some_iff, forall_eq', haddr, forall_const]
      constructor
      · intro h
        obtain ⟨other, hother⟩ := exists_ne src
        have heq := h other src
        rw [hfind other hother, hown] at heq
        cases hq : (first :: ps).find? fun p =>
            env.getAddressFor p.ipAddress p.portNum = some src with
        | none =>
          rw [hq] at heq
          cases heq
        | some q =>
          rw [hq] at heq
          exact ⟨q, rfl, by simpa using heq⟩
      · rintro ⟨q, hq, hrank⟩
        have hsame : ∀ a, (findSender env src a (first :: ps)).map
            (fun n => decide (0 < strcmp s.thisNickname n)) =
              some (decide (0 < strcmp s.thisNickname first.nickname)) := by
          intro a
          by_cases ha : a = src
          · rw [ha, hown]
            rfl
          · rw [hfind a ha, hq]
            simpa using hrank
        exact fun a a' => (hsame a).trans (hsame a').symm

theorem independent_respond_iff :
    Independent (fun locals => Traced.respondToLeaderElection env locals s src) ↔
      Identified env s src := by
  rw [← outranks_congr_iff]
  simp only [Independent, respondToLeaderElection_outranks, outcome_respond_injective.eq_iff]
  constructor
  · exact fun h a a' => h ⟨[], [], [], [], [], 0, a⟩ ⟨[], [], [], [], [], 0, a'⟩
  · exact fun h locals locals' => h _ _

end Election

/-! ## An ADD_ME -/

section AddMe

variable {env : Env} {s : Node} {src : RmpAddress}

theorem snprintf_ne_unterminated (capacity : ℕ) (size : ℤ) (c : Cursor) (piece : Bytes) :
    c.snprintf capacity size piece ≠ .error .unterminated := by
  unfold Cursor.snprintf
  dsimp only
  split_ifs <;> exact fun h => by cases h

theorem generateParticipantUpdate_ne_unterminated (s : Node) (buffLen : ℕ) (notice : Bytes) :
    generateParticipantUpdate s buffLen notice ≠ .error .unterminated := by
  have hwrite : ∀ ps c, writeParticipants buffLen ps c ≠ .error .unterminated := by
    intro ps c
    induction ps generalizing c with
    | nil => exact fun h => by cases h
    | cons p ps ih =>
      rw [writeParticipants]
      split
      · exact ih c
      · exact Fault.bind_ne_error (snprintf_ne_unterminated _ _ _ _) ih
  rw [generateParticipantUpdate]
  cases s.leader with
  | none => exact fun h => by cases h
  | some leader =>
    refine Fault.bind_ne_error (snprintf_ne_unterminated _ _ _ _) fun c => ?_
    refine Fault.bind_ne_error (hwrite _ c) fun c => ?_
    exact Fault.bind_ne_error (snprintf_ne_unterminated _ _ _ _) fun c h => by cases h

theorem leaderBroadcastMessage_ne_unterminated (env : Env) (s : Node) (message : Bytes) :
    leaderBroadcastMessage env s message ≠ .error .unterminated := by
  have hloop : ∀ message ps d s, broadcastLoop env message ps d s ≠ .error .unterminated := by
    intro message ps d s
    induction ps generalizing d s with
    | nil => exact fun h => by cases h
    | cons p ps ih =>
      rw [broadcastLoop]
      split
      · exact ih d s
      cases env.getAddressFor p.ipAddress p.portNum with
      | none => exact fun h => by cases h
      | some addr =>
        dsimp only
        split
        · exact Fault.bind_ne_error (snprintf_ne_unterminated _ _ _ _) fun c => ih _ _
        · exact ih d _
  rw [leaderBroadcastMessage]
  generalize s.participants.length + 1 = fuel
  induction fuel generalizing s message with
  | zero => exact fun h => by cases h
  | succ fuel ih =>
    refine Fault.bind_ne_error (hloop message _ _ s) ?_
    rintro ⟨d, s⟩
    dsimp only
    split
    · split
      · exact fun h => by cases h
      · refine Fault.bind_ne_error (generateParticipantUpdate_ne_unterminated s _ _) fun update => ?_
        exact Fault.bind_ne_error (ih s update) fun s h => by cases h
    · exact fun h => by cases h

/-- A nickname of no bytes fits its field. -/
theorem leaderReceiveAddMe_nil_ne (env : Env) (s : Node) (src : RmpAddress) :
    leaderReceiveAddMe env s [] src ≠ .error .unterminated := by
  have hinsert : s.insertParticipant [] (inetNtoa src) (portText src) false ≠
      .error .unterminated := by
    have hip := (isIpAddress_inetNtoa src).length_le
    have hport := (isPortNum_portText src).length_le
    unfold Node.insertParticipant
    dsimp only
    rw [if_neg (by simp; omega)]
    exact fun h => by cases h
  rw [leaderReceiveAddMe]
  split
  · dsimp only
    split <;> exact fun h => by cases h
  · refine Fault.bind_ne_error hinsert fun s => ?_
    refine Fault.bind_ne_error (generateParticipantUpdate_ne_unterminated s _ _) fun update => ?_
    exact Fault.bind_ne_error (leaderBroadcastMessage_ne_unterminated env s update) fun s h => by
      cases h

/-- There are nicknames that nobody has and that do not fit. -/
theorem exists_long_nickname (s : Node) :
    ∃ name, s.containsParticipant name = false ∧ maxNicknameLen < name.length := by
  have hlen : ∀ (k : ℕ) (a : Bytes), strcmp a (List.replicate k 97) = 0 → k ≤ a.length := by
    intro k
    induction k with
    | zero => exact fun a _ => Nat.zero_le _
    | succ k ih =>
      intro a h
      rw [List.replicate_succ] at h
      cases a with
      | nil => simp [strcmp] at h
      | cons c a =>
        rw [strcmp] at h
        split at h
        · exact Nat.succ_le_succ (ih a h)
        · next hne => exact absurd (UInt8.toNat_inj.1 (by omega)) hne
  let bound := (s.participants.map fun p => p.nickname.length).foldr max 0
  refine ⟨List.replicate (bound + maxNicknameLen + 1) 97, ?_, ?_⟩
  · rw [Node.containsParticipant, List.any_eq_false]
    intro p hp h
    have hle : p.nickname.length ≤ bound := List.le_max_of_le' 0 (List.mem_map_of_mem hp) le_rfl
    have hk := hlen _ _ (by simpa using h)
    omega
  · rw [List.length_replicate]
    omega

theorem leaderReceiveAddMe_long {name : Bytes} (hnew : s.containsParticipant name = false)
    (hlong : maxNicknameLen < name.length) :
    Traced.leaderReceiveAddMe env s name src = .error ⟨.unterminated, s.sent⟩ := by
  have hinsert : s.insertParticipant name (inetNtoa src) (portText src) false =
      .error .unterminated := if_pos (.inl hlong)
  rw [Traced.leaderReceiveAddMe, if_neg (by simp [hnew])]
  dsimp only
  rw [hinsert]
  rfl

/-- **Without a nickname** an ADD_ME lets in what was there before. -/
theorem not_independent_addMe :
    ¬ Independent fun locals => Traced.leaderReceiveAddMe env s locals.rest src := by
  intro h
  obtain ⟨name, hnew, hlong⟩ := exists_long_nickname s
  have heq := congrArg Prod.snd (h ⟨[], [], [], [], [], 0, src⟩ ⟨name, [], [], [], [], 0, src⟩)
  dsimp only [outcome] at heq
  rw [Traced.fault_leaderReceiveAddMe, leaderReceiveAddMe_long hnew hlong] at heq
  cases hnil : leaderReceiveAddMe env s [] src with
  | error e =>
    rw [hnil] at heq
    exact leaderReceiveAddMe_nil_ne env s src (hnil.trans (congrArg Except.error (Except.error.inj heq)))
  | ok s' =>
    rw [hnil] at heq
    cases heq

end AddMe

/-! ## A MESSAGE_REQUEST -/

section Request

variable {env : Env} {locals : Locals} {s : Node} {rest sender payload : Bytes} {addr : RmpAddress}

/-- A request that was read is passed on. -/
theorem outcome_request (hscan : scanRequest locals rest = .ok (sender, payload)) :
    outcome (Traced.leaderReceiveRequest env locals s rest) =
      if s.clockNum = 2147483647 then (s.sent, .error .integerOverflow)
      else outcome (Traced.leaderBroadcastMessage env { s with clockNum := s.clockNum + 1 }
        (snprintf 1024 (broadcastText s.clockNum sender payload))) := by
  rw [Traced.leaderReceiveRequest, hscan, Node.silent_ok, Stop.ok_bind, incrClock]
  dsimp only
  split
  · rfl
  · exact outcome_print _ _

theorem outcome_request_error {e : Fault} (hscan : scanRequest locals rest = .error e) :
    outcome (Traced.leaderReceiveRequest env locals s rest) = (s.sent, .error e) := by
  rw [Traced.leaderReceiveRequest, hscan]
  rfl

/-- **Two broadcasts** are told apart by their first message. -/
theorem outcome_broadcast_ne (hdest : Traced.firstDestination env s.participants = some addr)
    {message message' : Bytes} (hne : message ≠ message') :
    outcome (Traced.leaderBroadcastMessage env s message) ≠
      outcome (Traced.leaderBroadcastMessage env s message') := by
  intro h
  have hsent : Traced.sentBy id (Traced.leaderBroadcastMessage env s message) =
      Traced.sentBy id (Traced.leaderBroadcastMessage env s message') := congrArg Prod.fst h
  have hpre : (s.rmpSendTo env addr message).2.sent <+: _ :=
    Traced.prefix_sent_leaderBroadcastMessage hdest
  have hpre' : (s.rmpSendTo env addr message').2.sent <+: _ :=
    Traced.prefix_sent_leaderBroadcastMessage hdest
  rw [hsent] at hpre
  have hlen : (s.rmpSendTo env addr message).2.sent.length =
      (s.rmpSendTo env addr message').2.sent.length := by simp [Node.rmpSendTo]
  have heq := (List.prefix_of_prefix_length_le hpre hpre' hlen.le).eq_of_length hlen
  have hlast := List.append_cancel_left heq
  exact hne (Sent.mk.inj (List.singleton_injective hlast)).2.1

/-- Another payload makes another MESSAGE_BROADCAST, if both are short. -/
theorem broadcastText_ne {clock : ℤ} (hlo : -2147483648 ≤ clock) (hhi : clock < 2147483648)
    (hsender : sender.length < maxNicknameLen) :
    snprintf 1024 (broadcastText clock sender []) ≠
      snprintf 1024 (broadcastText clock sender [120]) := by
  have hclock := length_decimalInt_le hlo hhi
  have hword : messageBroadcast.length = 17 := by decide
  simp only [maxNicknameLen] at hsender
  have hfit : ∀ payload : Bytes, payload.length ≤ 1 →
      snprintf 1024 (broadcastText clock sender payload) = broadcastText clock sender payload := by
    intro payload hpayload
    refine List.take_of_length_le ?_
    simp only [broadcastText, str, List.length_append, hword]
    simp
    omega
  rw [hfit [] (by decide), hfit [120] (by decide)]
  intro h
  exact absurd (List.append_cancel_left h) (by decide)

/-- Without an argument a request is scanned from what was there before. -/
theorem not_independent_noArgument :
    ¬ Independent fun locals => Traced.leaderReceiveRequest env locals s locals.rest := by
  intro h
  have heq := h ⟨[], [], [], [], [], 0, 0, 0⟩ ⟨List.replicate 20 97, [], [], [], [], 0, 0, 0⟩
  dsimp only at heq
  rw [outcome_request_error (e := .exit) rfl, outcome_request_error (e := .bufferOverflow) rfl] at heq
  cases heq

section Argument

variable (hne : rest ≠ []) (hlen : rest.length < maxBufferLen)
  (hshort : (rest.takeWhile isSenderByte).length < maxNicknameLen)

include hne hlen hshort

/-- **Without a payload** the one that was there before is passed on. -/
theorem not_independent_noPayload (hpayload : payloadOf isSenderByte rest = none)
    (hlo : -2147483648 ≤ s.clockNum) (hhi : s.clockNum < 2147483648)
    (hmax : s.clockNum ≠ 2147483647)
    (hdest : Traced.firstDestination env s.participants = some addr) :
    ¬ Independent fun locals => Traced.leaderReceiveRequest env locals s rest := by
  intro h
  have hscan := scanRequest_payloadOf hne hlen
  simp only [if_pos hshort, hpayload, Option.getD_none] at hscan
  have heq := h ⟨[], [97], [], [], [], 0, 0, 0⟩ ⟨[], [97], [120], [], [], 0, 0, 0⟩
  dsimp only at heq
  rw [outcome_request (hscan _), outcome_request (hscan _), if_neg hmax, if_neg hmax] at heq
  refine outcome_broadcast_ne (s := { s with clockNum := s.clockNum + 1 }) hdest
    (broadcastText_ne hlo hhi ?_) heq
  dsimp only
  split
  · decide
  · exact hshort

/-- The payload is read, or nothing is passed on. -/
theorem independent_request (hread : (payloadOf isSenderByte rest).isSome ∨ s.clockNum = 2147483647 ∨
    Traced.firstDestination env s.participants = none) :
    Independent fun locals => Traced.leaderReceiveRequest env locals s rest := by
  intro locals locals'
  have hscan := scanRequest_payloadOf hne hlen
  simp only [if_pos hshort] at hscan
  rw [outcome_request (hscan _), outcome_request (hscan _)]
  split
  · rfl
  next hmax =>
  obtain hpayload | hmax' | hdest := hread
  · obtain ⟨f, hf⟩ := Option.isSome_iff_exists.1 hpayload
    have hword := word_ne_nil_of_payloadOf hf
    rw [hf, if_neg hword, if_neg hword]
    rfl
  · exact absurd hmax' hmax
  · have hsame := Traced.leaderBroadcastMessage_of_none (s := { s with clockNum := s.clockNum + 1 })
      hdest
    rw [hsame, hsame]

end Argument

/-- **A MESSAGE_REQUEST.** -/
theorem independent_request_iff (hlen : rest.length < maxBufferLen) (hlo : -2147483648 ≤ s.clockNum)
    (hhi : s.clockNum < 2147483648) :
    Independent (fun locals => Traced.leaderReceiveRequest env locals s
      (if rest = [] then locals.rest else rest)) ↔ RequestReads env s rest := by
  by_cases hne : rest = []
  · simp only [if_pos hne]
    exact iff_of_false not_independent_noArgument fun h => h.1 hne
  simp only [if_neg hne]
  by_cases hshort : (rest.takeWhile isSenderByte).length < maxNicknameLen
  · constructor
    · intro h
      refine ⟨hne, ?_⟩
      by_contra hcon
      simp only [not_or] at hcon
      obtain ⟨-, hpayload, hmax, hdest⟩ := hcon
      obtain ⟨addr, hdest⟩ := Option.ne_none_iff_exists'.1 hdest
      rw [Option.not_isSome_iff_eq_none] at hpayload
      exact not_independent_noPayload hne hlen hshort hpayload hlo hhi hmax hdest h
    · rintro ⟨-, hread⟩
      exact independent_request hne hlen hshort (hread.resolve_left (not_le.2 hshort))
  · have hscan := scanRequest_payloadOf hne hlen
    simp only [if_neg hshort] at hscan
    exact iff_of_true (independent_of_eq fun locals => outcome_request_error (hscan locals))
      ⟨hne, .inl (not_lt.1 hshort)⟩

end Request

/-! ## A MESSAGE_BROADCAST -/

section Broadcast

variable {s : Node} {rest : Bytes}

theorem outcome_nonLeaderReceiveBroadcast (locals : Locals) :
    outcome (s.silent (nonLeaderReceiveBroadcast locals s rest)) =
      (s.sent, (scanBroadcast locals rest).map fun r =>
        ({ s with clockNum := r.1 } : Node).observed) := by
  rw [nonLeaderReceiveBroadcast]
  cases scanBroadcast locals rest with
  | error e => rfl
  | ok r => rfl

/-- The number is read if there is one. -/
theorem map_scanBroadcast {β : Type} {z : ℤ} {after : Bytes} (hne : rest ≠ [])
    (hspace : Stops isSpace rest) (hdigits : scanDigits rest = some (z, after)) (f : ℤ → β)
    (locals : Locals) : (scanBroadcast locals rest).map (fun r => f r.1) =
      (sscanf broadcastFormat rest).map fun _ => f z := by
  have hskip : rest.dropWhile isSpace = rest := dropWhile_of_stops hspace
  rw [scanBroadcast]
  cases hr : sscanf broadcastFormat rest with
  | error e => rfl
  | ok r =>
    rw [broadcastFormat, sscanf, hskip, if_neg hne, hdigits] at hr
    dsimp only at hr
    split at hr
    · cases hafter : sscanf [.white, .set (fun c => !(str "= ").contains c) (maxNicknameLen + 1),
          .lit 61, .white, .set isLineByte (maxBufferLen + 1)] after with
      | error e =>
        rw [hafter] at hr
        cases hr
      | ok r' =>
        rw [hafter] at hr
        obtain rfl := Except.ok.inj hr
        rw [Fault.ok_bind, if_neg (Scan.ret_cons_ne_eof _ _)]
        rfl
    · cases hr

/-- A text without a number leaves the variable alone. -/
theorem scanBroadcast_no_number (hne : rest ≠ []) (hspace : Stops isSpace rest)
    (hdigits : scanDigits rest = none) (locals : Locals) :
    scanBroadcast locals rest = .ok (locals.messageId, locals.senderNickname, locals.payload) := by
  have hskip : rest.dropWhile isSpace = rest := dropWhile_of_stops hspace
  have hscan : sscanf broadcastFormat rest = .ok ⟨[], false⟩ := by
    rw [broadcastFormat, sscanf, hskip, if_neg hne, hdigits]
  rw [scanBroadcast, hscan]
  rfl

/-- **A MESSAGE_BROADCAST.** -/
theorem independent_broadcast_iff (hspace : Stops isSpace rest) :
    Independent (fun locals => s.silent (nonLeaderReceiveBroadcast locals s
      (if rest = [] then locals.rest else rest))) ↔ rest ≠ [] ∧ (scanDigits rest).isSome := by
  simp only [Independent, outcome_nonLeaderReceiveBroadcast]
  by_cases hne : rest = []
  · refine iff_of_false (fun h => ?_) fun h => h.1 hne
    have heq := h ⟨[], [], [], [], [], 0, 0, 0⟩ ⟨[49], [], [], [], [], 0, 0, 0⟩
    rw [if_pos hne, if_pos hne] at heq
    cases heq
  simp only [if_neg hne]
  cases hdigits : scanDigits rest with
  | none =>
    refine iff_of_false (fun h => ?_) (by simp)
    have heq := h ⟨[], [], [], [], [], 0, 0, 0⟩ ⟨[], [], [], [], [], 1, 0, 0⟩
    rw [scanBroadcast_no_number hne hspace hdigits, scanBroadcast_no_number hne hspace hdigits] at heq
    have hclock : (0 : ℤ) = 1 :=
      congrArg Observed.clockNum (Except.ok.inj (congrArg Prod.snd heq))
    cases hclock
  | some p =>
    obtain ⟨z, after⟩ := p
    refine iff_of_true (fun locals locals' => ?_) ⟨hne, rfl⟩
    have hmap := map_scanBroadcast hne hspace hdigits fun id =>
      ({ s with clockNum := id } : Node).observed
    exact congrArg (Prod.mk s.sent) ((hmap locals).trans (hmap locals').symm)

end Broadcast

/-! ## Any message -/

section Message

variable {env : Env} {s : Node} {buf : Bytes} {src : RmpAddress}

/-- The commands are compared as words. -/
theorem strcmp_commandWord {command : Bytes} (hcommand : 0 ∉ command) (hnul : 0 ∉ buf) :
    strcmp command (commandWord buf) = 0 ↔ commandWord buf = command := by
  have hword : 0 ∉ commandWord buf := fun h => hnul
    ((List.dropWhile_suffix _).subset ((List.takeWhile_prefix _).subset h))
  rw [strcmp_eq_zero hcommand hword, eq_comm]

/-- The word of a known command is read as a whole. -/
theorem scanCommand_known {command : Bytes} (hlen : buf.length < maxBufferLen)
    (hcommand : commandWord buf = command) (hne : command ≠ []) (hshort : command.length < 20)
    (locals : Locals) : scanCommand locals buf =
      .ok (command, if commandRest buf = [] then locals.rest else commandRest buf) := by
  rw [scanCommand_eq hlen, hcommand, if_neg hne, if_neg (by omega)]

/-- A call that uses nothing but the word. -/
theorem independent_of_word {f : Locals → Bytes × Bytes → Except Stop Node}
    (hlen : buf.length < maxBufferLen) (h : ∀ locals locals' rest rest',
      f locals (commandWord buf, rest) = f locals' (commandWord buf, rest')) :
    Independent fun locals => s.silent (scanCommand locals buf) >>= f locals := by
  intro locals locals'
  simp only [scanCommand_eq hlen]
  by_cases hnil : commandWord buf = []
  · simp only [if_pos hnil, Node.silent_error, Stop.error_bind]
  by_cases hlong : 20 ≤ (commandWord buf).length
  · simp only [if_neg hnil, if_pos hlong, Node.silent_error, Stop.error_bind]
  · simp only [if_neg hnil, if_neg hlong, Node.silent_ok, Stop.ok_bind]
    exact congrArg outcome (h _ _ _ _)

theorem leaderReceiveMessage_addMe (hlen : buf.length < maxBufferLen)
    (hword : commandWord buf = messageAddMe) (locals : Locals) :
    Traced.leaderReceiveMessage env locals s buf src = Traced.leaderReceiveAddMe env s
      (if commandRest buf = [] then locals.rest else commandRest buf) src := by
  rw [Traced.leaderReceiveMessage, scanCommand_known hlen hword (by decide) (by decide)]
  rfl

theorem leaderReceiveMessage_request (hlen : buf.length < maxBufferLen)
    (hword : commandWord buf = messageRequest) (locals : Locals) :
    Traced.leaderReceiveMessage env locals s buf src = Traced.leaderReceiveRequest env locals s
      (if commandRest buf = [] then locals.rest else commandRest buf) := by
  rw [Traced.leaderReceiveMessage, scanCommand_known hlen hword (by decide) (by decide)]
  rfl

theorem leaderReceiveMessage_startElection (hlen : buf.length < maxBufferLen)
    (hword : commandWord buf = messageStartElection) (locals : Locals) :
    Traced.leaderReceiveMessage env locals s buf src =
      Traced.respondToLeaderElection env locals s src := by
  rw [Traced.leaderReceiveMessage, scanCommand_known hlen hword (by decide) (by decide)]
  rfl

theorem nonLeaderReceiveMessage_broadcast (hlen : buf.length < maxBufferLen)
    (hword : commandWord buf = messageBroadcast) (locals : Locals) :
    Traced.nonLeaderReceiveMessage env locals s buf src =
      s.silent (nonLeaderReceiveBroadcast locals s
        (if commandRest buf = [] then locals.rest else commandRest buf)) := by
  rw [Traced.nonLeaderReceiveMessage, scanCommand_known hlen hword (by decide) (by decide)]
  rfl

theorem nonLeaderReceiveMessage_startElection (hlen : buf.length < maxBufferLen)
    (hword : commandWord buf = messageStartElection) (locals : Locals) :
    Traced.nonLeaderReceiveMessage env locals s buf src =
      Traced.respondToLeaderElection env locals s src := by
  rw [Traced.nonLeaderReceiveMessage, scanCommand_known hlen hword (by decide) (by decide)]
  rfl

/-- **A leader** on any message, by the word that it begins with. -/
theorem independent_leader_iff (hlen : buf.length < maxBufferLen) (hnul : 0 ∉ buf)
    (hlo : -2147483648 ≤ s.clockNum) (hhi : s.clockNum < 2147483648) :
    Independent (fun locals => Traced.leaderReceiveMessage env locals s buf src) ↔
      LeaderReads env s buf src := by
  by_cases hadd : commandWord buf = messageAddMe
  · have hreads : LeaderReads env s buf src ↔ commandRest buf ≠ [] :=
      ⟨fun h => h.addMe hadd, fun h => ⟨fun _ => h, fun hw => absurd (hadd.symm.trans hw) (by decide),
        fun hw => absurd (hadd.symm.trans hw) (by decide)⟩⟩
    simp only [hreads, leaderReceiveMessage_addMe hlen hadd]
    by_cases hrest : commandRest buf = []
    · simp only [if_pos hrest]
      exact iff_of_false not_independent_addMe (not_not.2 hrest)
    · simp only [if_neg hrest]
      exact iff_of_true (fun locals locals' => rfl) hrest
  by_cases hrequest : commandWord buf = messageRequest
  · have hreads : LeaderReads env s buf src ↔ RequestReads env s (commandRest buf) :=
      ⟨fun h => h.request hrequest, fun h => ⟨fun hw => absurd hw hadd, fun _ => h,
        fun hw => absurd (hrequest.symm.trans hw) (by decide)⟩⟩
    simp only [hreads, leaderReceiveMessage_request hlen hrequest]
    have hfit := length_commandRest_le buf
    exact independent_request_iff (by omega) hlo hhi
  by_cases hstart : commandWord buf = messageStartElection
  · have hreads : LeaderReads env s buf src ↔ Identified env s src :=
      ⟨fun h => h.startElection hstart, fun h => ⟨fun hw => absurd hw hadd,
        fun hw => absurd hw hrequest, fun _ => h⟩⟩
    simp only [hreads, leaderReceiveMessage_startElection hlen hstart]
    exact independent_respond_iff
  -- no other branch has variables of its own
  · have hadd' := mt (strcmp_commandWord (by decide) hnul).1 hadd
    have hrequest' := mt (strcmp_commandWord (by decide) hnul).1 hrequest
    have hstart' := mt (strcmp_commandWord (by decide) hnul).1 hstart
    refine iff_of_true (independent_of_word hlen fun locals locals' rest rest' => ?_)
      ⟨fun hw => absurd hw hadd, fun hw => absurd hw hrequest, fun hw => absurd hw hstart⟩
    simp only [if_neg hadd', if_neg hrequest', if_neg hstart']

/-- **Any other node** on any message. -/
theorem independent_nonLeader_iff (hlen : buf.length < maxBufferLen) (hnul : 0 ∉ buf) :
    Independent (fun locals => Traced.nonLeaderReceiveMessage env locals s buf src) ↔
      NonLeaderReads env s buf src := by
  by_cases hbroadcast : commandWord buf = messageBroadcast
  · have hreads : NonLeaderReads env s buf src ↔
        commandRest buf ≠ [] ∧ (scanDigits (commandRest buf)).isSome :=
      ⟨fun h => h.broadcast hbroadcast, fun h => ⟨fun _ => h,
        fun hw => absurd (hbroadcast.symm.trans hw) (by decide)⟩⟩
    simp only [hreads, nonLeaderReceiveMessage_broadcast hlen hbroadcast]
    exact independent_broadcast_iff (stops_commandRest buf)
  by_cases hstart : commandWord buf = messageStartElection
  · have hreads : NonLeaderReads env s buf src ↔ Identified env s src :=
      ⟨fun h => h.startElection hstart, fun h => ⟨fun hw => absurd hw hbroadcast, fun _ => h⟩⟩
    simp only [hreads, nonLeaderReceiveMessage_startElection hlen hstart]
    exact independent_respond_iff
  · have hbroadcast' := mt (strcmp_commandWord (by decide) hnul).1 hbroadcast
    have hstart' := mt (strcmp_commandWord (by decide) hnul).1 hstart
    refine iff_of_true (independent_of_word hlen fun locals locals' rest rest' => ?_)
      ⟨fun hw => absurd hw hbroadcast, fun hw => absurd hw hstart⟩
    simp only [if_neg hbroadcast', if_neg hstart']

/-- **Two runs of the event loop** that take in such a message agree when both go on. -/
theorem chatStep_observed {locals locals' : Locals} {s₁ s₂ : Node} (hlen : buf.length < maxBufferLen)
    (hnul : 0 ∉ buf) (hlo : -2147483648 ≤ s.clockNum) (hhi : s.clockNum < 2147483648)
    (hleader : s.isLeader = true → LeaderReads env s buf src)
    (hother : s.isLeader = false → NonLeaderReads env s buf src)
    (h₁ : chatStep env locals s (.receive buf src) = some (.ok s₁))
    (h₂ : chatStep env locals' s (.receive buf src) = some (.ok s₂)) :
    s₁.observed = s₂.observed ∧ s₁.sent = s₂.sent := by
  cases hl : s.isLeader with
  | true =>
    rw [chatStep_receive_leader hl, ← Traced.fault_leaderReceiveMessage] at h₁ h₂
    exact observed_eq_of_independent ((independent_leader_iff hlen hnul hlo hhi).2 (hleader hl))
      (Stop.eq_ok (Option.some.inj h₁)) (Stop.eq_ok (Option.some.inj h₂))
  | false =>
    rw [chatStep_receive_nonLeader hl, ← Traced.fault_nonLeaderReceiveMessage] at h₁ h₂
    exact observed_eq_of_independent ((independent_nonLeader_iff hlen hnul).2 (hother hl))
      (Stop.eq_ok (Option.some.inj h₁)) (Stop.eq_ok (Option.some.inj h₂))

end Message

/-! ## The equivalence -/

/-- **What was in the local variables before** makes no difference to a leader, and none to any
other node, exactly if the message is read as a whole. -/
theorem independent_iff (env : Env) {s : Node} {buf : Bytes} (src : RmpAddress)
    (hlen : buf.length < maxBufferLen) (hnul : 0 ∉ buf) (hlo : -2147483648 ≤ s.clockNum)
    (hhi : s.clockNum < 2147483648) :
    (Independent (fun locals => Traced.leaderReceiveMessage env locals s buf src) ↔
        LeaderReads env s buf src) ∧
      (Independent (fun locals => Traced.nonLeaderReceiveMessage env locals s buf src) ↔
        NonLeaderReads env s buf src) :=
  ⟨independent_leader_iff hlen hnul hlo hhi, independent_nonLeader_iff hlen hnul⟩

/-- An environment that refuses every address. -/
def refusing : Env where
  getAddressFor _ _ := none
  sendTo _ _ _ := 0

theorem independent_iff_broadcast : Independent fun locals =>
    Traced.nonLeaderReceiveMessage refusing locals (Node.modelInit (str "bob") false)
      (str "MESSAGE_BROADCAST 7 alice= x") ⟨0, 0⟩ :=
  (independent_iff refusing ⟨0, 0⟩ (by decide) (by decide) (by decide) (by decide)).2.2
    ⟨fun _ => by decide, fun h => absurd h (by decide)⟩

/-- **A MESSAGE_BROADCAST without a number** sets the clock to what `message_id` held. -/
theorem not_independent : ¬ ∀ (env : Env) (s : Node) (buf : Bytes) (src : RmpAddress),
    buf.length < maxBufferLen → 0 ∉ buf → -2147483648 ≤ s.clockNum → s.clockNum < 2147483648 →
    Independent (fun locals => Traced.leaderReceiveMessage env locals s buf src) ∧
      Independent fun locals => Traced.nonLeaderReceiveMessage env locals s buf src := by
  intro h
  have heq := (h refusing (Node.modelInit (str "bob") false) (str "MESSAGE_BROADCAST hello") ⟨0, 0⟩
    (by decide) (by decide) (by decide) (by decide)).2
    ⟨[], [], [], [], [], 0, 0, 0⟩ ⟨[], [], [], [], [], 7, 0, 0⟩
  have hclock : (0 : ℤ) = 7 :=
    congrArg Observed.clockNum (Except.ok.inj (congrArg Prod.snd heq))
  cases hclock

end Dchat.Chat
