import Dchat.Chat.Leader

/-!
# The buffers of an update

`generate_participant_update` and the loop of `leader_broadcast_message` put a text together piece
by piece, at a position that moves by the untruncated length of each piece. The first passes the
whole size of the buffer with every piece; the second passes what is left of it, which becomes
negative, and so without limit as a `size_t`, behind the end.

* `generateParticipantUpdate_inside`, `namesInside_iff`: when all that they write
  lies in the buffer.
* `assembledInside_iff` says both at once. Neither holds for groups of every size.
-/

namespace Dchat.Chat

open CString Stdio RMP

/-! ## Statements -/

/-- The participants that a pass of a broadcast fails to reach, up to the first whose address is not
accepted; `k` messages have been sent before. -/
def unreached (env : Env) (message : Bytes) : ℕ → List Participant → List Participant
  | _, [] => []
  | k, p :: ps =>
    if p.isLeader then unreached env message k ps
    else
      match env.getAddressFor p.ipAddress p.portNum with
      | none => []
      | some addr =>
        if env.sendTo k addr message < 0 then p :: unreached env message (k + 1) ps
        else unreached env message (k + 1) ps

/-- Whenever `leader_broadcast_message` is in its loop, every byte of a name has been written within
`update_buff`, and `update_buff_pos` is not behind its end. -/
def NamesInside (env : Env) (s : Node) (message : Bytes) : Prop :=
  ∀ ps, ps <+: s.participants →
    broadcastLoop env message ps ⟨false, .empty⟩ s ≠ .error .bufferOverflow ∧
    ∀ d s', broadcastLoop env message ps ⟨false, .empty⟩ s = .ok (d, s') →
      d.updateBuff.pos ≤ maxBufferLen

/-- All that is written while an update is put together lies within the buffers. -/
structure AssembledInside (env : Env) (s : Node) (buffLen : ℕ) (joinLeaveMessage message : Bytes) :
    Prop where
  update : generateParticipantUpdate s buffLen joinLeaveMessage ≠ .error .bufferOverflow
  names : NamesInside env s message

/-! ## The update -/

/-- Nothing is written to a buffer without bytes. -/
theorem snprintf_zero (c : Cursor) (piece : Bytes) :
    c.snprintf 0 (0 : ℕ) piece = .ok ⟨c.text, c.pos + piece.length⟩ := rfl

theorem writeParticipants_zero (ps : List Participant) (c : Cursor) :
    ∃ c', writeParticipants 0 ps c = .ok c' := by
  induction ps generalizing c with
  | nil => exact ⟨c, rfl⟩
  | cons p ps ih =>
    rw [writeParticipants]
    split
    · exact ih c
    · exact ih _

/-- **The update is written within its buffer** if it is shorter than the buffer. -/
theorem generateParticipantUpdate_inside (s : Node) (buffLen : ℕ) (joinLeaveMessage : Bytes) :
    generateParticipantUpdate s buffLen joinLeaveMessage ≠ .error .bufferOverflow ↔
      ∀ leader, s.leader = some leader →
        buffLen = 0 ∨ (updateText leader s.participants joinLeaveMessage).length < buffLen := by
  cases hleader : s.leader with
  | none =>
    unfold generateParticipantUpdate
    rw [hleader]
    simp
  | some leader =>
    by_cases hb : buffLen = 0
    · subst hb
      obtain ⟨c, hc⟩ := writeParticipants_zero s.participants
        ⟨[], (messageParticipantUpdate ++ str " @" ++ entryText leader).length⟩
      have hrun : generateParticipantUpdate s 0 joinLeaveMessage = .ok c.text := by
        unfold generateParticipantUpdate
        rw [hleader]
        simp only [snprintf_zero, Cursor.empty, Fault.ok_bind, Nat.zero_add, hc]
      simp [hrun]
    · rw [generateParticipantUpdate_eq hleader (Nat.pos_of_ne_zero hb)]
      split
      · next hlt => simp [hlt]
      · next hlt => simp [hlt, hb]

/-! ## The names -/

/-- A name is written within what is left of the buffer. -/
theorem snprintf_left {capacity : ℕ} {c : Cursor} (h : c.pos ≤ capacity) (piece : Bytes) :
    ∃ text, c.snprintf capacity (capacity - c.pos) piece = .ok ⟨text, c.pos + piece.length⟩ := by
  have hsize : ¬ (capacity : ℤ) - c.pos < 0 := by omega
  by_cases hzero : (capacity : ℤ) - c.pos = 0
  · simp only [Cursor.snprintf, if_pos hzero]
    exact ⟨_, rfl⟩
  · simp only [Cursor.snprintf, if_neg hzero, if_neg hsize]
    rw [if_pos]
    · exact ⟨_, rfl⟩
    · rw [List.length_take]
      omega

/-- The loop on the names that fit. -/
theorem broadcastLoop_inside {env : Env} {message : Bytes} {ps : List Participant} {d : Departures}
    {s : Node} (h : d.updateBuff.pos +
      (departedNames (unreached env message s.sent.length ps)).length ≤ maxBufferLen) :
    broadcastLoop env message ps d s ≠ .error .bufferOverflow ∧
    ∀ d' s', broadcastLoop env message ps d s = .ok (d', s') → d'.updateBuff.pos ≤ maxBufferLen := by
  induction ps generalizing d s with
  | nil =>
    refine ⟨by simp [broadcastLoop], fun d' s' hok => ?_⟩
    obtain ⟨rfl, rfl⟩ := Prod.mk.inj (Except.ok.inj hok)
    exact Nat.le_of_add_right_le h
  | cons p ps ih =>
    rw [broadcastLoop]
    rw [unreached] at h
    split
    · next hp =>
      rw [if_pos hp] at h
      exact ih h
    · next hp =>
      rw [if_neg hp] at h
      cases haddr : env.getAddressFor p.ipAddress p.portNum with
      | none => exact ⟨by simp, by simp⟩
      | some addr =>
        rw [haddr] at h
        dsimp only [Node.rmpSendTo] at h ⊢
        split
        · next hr =>
          rw [if_pos hr, departedNames_cons] at h
          simp only [List.length_append] at h
          obtain ⟨text, htext⟩ := snprintf_left (Nat.le_of_add_right_le h) (p.nickname ++ str ", ")
          rw [htext, Fault.ok_bind]
          refine ih ?_
          simp only [Node.tailqRemove, Node.decrNumParticipants, List.length_append,
            List.length_singleton]
          omega
        · next hr =>
          rw [if_neg hr] at h
          refine ih ?_
          simp only [List.length_append, List.length_singleton]
          exact h

/-- The loop on names that do not fit leaves the position behind the end of the buffer. -/
theorem broadcastLoop_outside {env : Env} {message : Bytes} {ps : List Participant} {d : Departures}
    {s : Node} (hd : d.updateBuff.pos ≤ maxBufferLen) (h : maxBufferLen < d.updateBuff.pos +
      (departedNames (unreached env message s.sent.length ps)).length) :
    ∃ qs d' s', qs <+: ps ∧ broadcastLoop env message qs d s = .ok (d', s') ∧
      maxBufferLen < d'.updateBuff.pos := by
  induction ps generalizing d s with
  | nil => exact absurd h (by simpa [unreached, departedNames] using hd)
  | cons p ps ih =>
    rw [unreached] at h
    by_cases hp : p.isLeader = true
    · rw [if_pos hp] at h
      obtain ⟨qs, d', s', hqs, hrun, hpos⟩ := ih hd h
      exact ⟨p :: qs, d', s', (List.prefix_cons_inj p).2 hqs, by rw [broadcastLoop, if_pos hp, hrun],
        hpos⟩
    · rw [if_neg hp] at h
      cases haddr : env.getAddressFor p.ipAddress p.portNum with
      | none =>
        rw [haddr] at h
        exact absurd h (by simpa [departedNames] using hd)
      | some addr =>
        rw [haddr] at h
        dsimp only at h
        by_cases hr : env.sendTo s.sent.length addr message < 0
        · rw [if_pos hr, departedNames_cons] at h
          simp only [List.length_append] at h
          obtain ⟨text, htext⟩ := snprintf_left hd (p.nickname ++ str ", ")
          have hround : ∀ qs, broadcastLoop env message (p :: qs) d s =
              broadcastLoop env message qs
                ⟨true, text, d.updateBuff.pos + (p.nickname ++ str ", ").length⟩
                ((s.rmpSendTo env addr message).2.tailqRemove p.ptr).decrNumParticipants := by
            intro qs
            rw [broadcastLoop, if_neg hp, haddr]
            dsimp only [Node.rmpSendTo]
            rw [if_pos hr, htext, Fault.ok_bind]
          by_cases hpos : d.updateBuff.pos + (p.nickname ++ str ", ").length ≤ maxBufferLen
          · obtain ⟨qs, d', s', hqs, hrun, hpos'⟩ := ih
              (d := ⟨true, text, d.updateBuff.pos + (p.nickname ++ str ", ").length⟩)
              (s := ((s.rmpSendTo env addr message).2.tailqRemove p.ptr).decrNumParticipants) hpos (by
                simp only [Node.rmpSendTo, Node.tailqRemove, Node.decrNumParticipants,
                  List.length_append, List.length_singleton]
                omega)
            exact ⟨p :: qs, d', s', (List.prefix_cons_inj p).2 hqs, by rw [hround, hrun], hpos'⟩
          · refine ⟨[p], _, _, (List.prefix_cons_inj p).2 List.nil_prefix, by rw [hround]; rfl, ?_⟩
            exact Nat.lt_of_not_le hpos
        · rw [if_neg hr] at h
          obtain ⟨qs, d', s', hqs, hrun, hpos⟩ := ih hd (s := (s.rmpSendTo env addr message).2) (by
            simp only [Node.rmpSendTo, List.length_append, List.length_singleton]
            exact h)
          refine ⟨p :: qs, d', s', (List.prefix_cons_inj p).2 hqs, ?_, hpos⟩
          rw [broadcastLoop, if_neg hp, haddr]
          dsimp only [Node.rmpSendTo]
          rw [if_neg hr]
          exact hrun

/-- What the loop has collected grows. -/
theorem unreached_prefix (env : Env) (message : Bytes) {qs ps : List Participant} (h : qs <+: ps)
    (k : ℕ) : unreached env message k qs <+: unreached env message k ps := by
  induction ps generalizing qs k with
  | nil =>
    obtain rfl := List.prefix_nil.1 h
    exact List.prefix_rfl
  | cons p ps ih =>
    cases qs with
    | nil => exact List.nil_prefix
    | cons q qs =>
      obtain ⟨rfl, hqs⟩ := List.cons_prefix_cons.1 h
      rw [unreached, unreached]
      split
      · exact ih hqs k
      · split
        · exact List.prefix_rfl
        · split
          · exact (List.prefix_cons_inj q).2 (ih hqs (k + 1))
          · exact ih hqs (k + 1)

/-- **The names are written within `update_buff`** if those of all participants that are not reached
fit it, each with a comma and a blank. -/
theorem namesInside_iff (env : Env) (s : Node) (message : Bytes) :
    NamesInside env s message ↔
      (departedNames (unreached env message s.sent.length s.participants)).length ≤ maxBufferLen := by
  constructor
  · intro h
    by_contra hnot
    obtain ⟨qs, d', s', hqs, hrun, hpos⟩ := broadcastLoop_outside (d := ⟨false, .empty⟩)
      (Nat.zero_le _) (by simpa [Cursor.empty] using Nat.lt_of_not_le hnot)
    exact absurd ((h qs hqs).2 d' s' hrun) (Nat.not_le_of_lt hpos)
  · intro h qs hqs
    refine broadcastLoop_inside ?_
    obtain ⟨rest, hrest⟩ := unreached_prefix env message hqs s.sent.length
    have hlen : (departedNames (unreached env message s.sent.length s.participants)).length =
        (departedNames (unreached env message s.sent.length qs)).length +
          (departedNames rest).length := by
      simp [← hrest, departedNames]
    simp only [Cursor.empty, Nat.zero_add]
    omega

/-! ## Both -/

/-- **Update assembly stays inside its buffers** exactly if the update is shorter than its buffer
and the names of the participants that are not reached fit theirs. -/
theorem assembledInside_iff (env : Env) (s : Node) (buffLen : ℕ) (joinLeaveMessage message : Bytes) :
    AssembledInside env s buffLen joinLeaveMessage message ↔
      (∀ leader, s.leader = some leader →
        buffLen = 0 ∨ (updateText leader s.participants joinLeaveMessage).length < buffLen) ∧
      (departedNames (unreached env message s.sent.length s.participants)).length ≤
        maxBufferLen := by
  rw [← generateParticipantUpdate_inside, ← namesInside_iff]
  exact ⟨fun h => ⟨h.1, h.2⟩, fun h => ⟨h.1, h.2⟩⟩

/-- A leader whose list has 24 other participants. -/
def crowd : Node :=
  { Node.modelInit (str "b") true with
    leader := some pairLeader.toPeer
    participants := pairLeader :: (List.range 24).map fun k =>
      ⟨⟨k + 2, UInt8.ofNat (97 + k) :: List.replicate 19 97, str "255.255.255.255", str "65535"⟩, false⟩
    numParticipants := 25 }

/-- It does not stay inside for lists of every length. -/
theorem not_assembledInside :
    ¬ ∀ (env : Env) (s : Node) (buffLen : ℕ) (joinLeaveMessage message : Bytes),
      (∀ p ∈ s.participants, p.nickname.length ≤ maxNicknameLen ∧
        p.ipAddress.length ≤ maxIpAddressLen ∧ p.portNum.length ≤ maxPortNumLen) →
      AssembledInside env s buffLen joinLeaveMessage message := by
  intro h
  have hrun := (h deafEnv crowd maxBufferLen (str "NOTICE") messageHeartbeat (by decide)).update
  rw [generateParticipantUpdate_eq (s := crowd) rfl (by decide), if_neg (by decide +kernel)] at hrun
  exact hrun rfl

end Dchat.Chat
