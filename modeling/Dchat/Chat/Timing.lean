import Dchat.Chat.EventLoop
import Dchat.Chat.Session
import Dchat.Foundations.History
import Mathlib.Tactic.Linarith

/-!
# What the timers guarantee

The marks of a run of the loop of `chat`, and the times between them.

* `lt_nanos_of_timeDiff`, `le_timeDiff_of_nanos`: `TIME_DIFF` is less than a millisecond from the
  time that has passed, and never too small.
* `Timed.Ticked` is what a function does to the clock and the flags, and `Timed.Accounted` what
  holds in every run: the flags are those of the last mark, and every timer has had its reason.
* `paced_of_reach`: heartbeats keep their distance, and `victory_of_reach`, `restart_of_reach` are
  the reasons of the two timers for elections.
-/

namespace Dchat.Chat

open CString Stdio RMP Runs

/-! ## Time -/

/-- A time in nanoseconds. -/
def Timespec.nanos (t : Timespec) : ℤ := 1000000000 * t.tvSec + t.tvNsec

/-- What is guaranteed of `CLOCK_MONOTONIC`. -/
def Monotonic (clock : ℕ → Timespec) : Prop := ∀ ⦃i j⦄, i ≤ j → (clock i).nanos ≤ (clock j).nanos

section Time

variable {x y : Timespec} {m : ℤ}

/-- What is cut off is less than a millisecond. -/
theorem exists_nanos_eq (x y : Timespec) : ∃ r, -1000000 < r ∧ r < 1000000 ∧
    x.nanos - y.nanos = 1000000 * timeDiff x y + r := by
  have hlow := Int.lt_tmod_of_pos (x.tvNsec - y.tvNsec) (show (0 : ℤ) < 1000000 by decide)
  have hhigh := Int.tmod_lt_of_pos (x.tvNsec - y.tvNsec) (show (0 : ℤ) < 1000000 by decide)
  have hsplit := Int.mul_tdiv_add_tmod (x.tvNsec - y.tvNsec) 1000000
  refine ⟨(x.tvNsec - y.tvNsec).tmod 1000000, hlow, hhigh, ?_⟩
  rw [timeDiff, Timespec.nanos, Timespec.nanos]
  linarith

/-- A difference of `m` milliseconds is almost as much time. -/
theorem lt_nanos_of_timeDiff (h : m ≤ timeDiff x y) : 1000000 * m - 1000000 < x.nanos - y.nanos := by
  obtain ⟨r, hlow, -, heq⟩ := exists_nanos_eq x y
  omega

/-- After `m` milliseconds the difference is not smaller. -/
theorem le_timeDiff_of_nanos (h : 1000000 * m ≤ x.nanos - y.nanos) : m ≤ timeDiff x y := by
  obtain ⟨r, -, hhigh, heq⟩ := exists_nanos_eq x y
  omega

end Time

/-! ## What the functions do to the clock -/

namespace Timed

/-- **What a function does to the clock and the flags**: nothing, or it makes one mark. -/
inductive Ticked (clock : ℕ → Timespec) (t : Timed) : Timed → Prop
  | quiet {s : Node} (hin : s.inElection = t.node.inElection)
    (hstarted : s.startedElection = t.node.startedElection) : Ticked clock t (t.withNode s)
  | started {s : Node} (hin : s.inElection = true) (hstarted : s.startedElection = true) :
    Ticked clock t ((t.withNode s).stamp clock .started)
  | heeded {s : Node} (hin : s.inElection = true) (hstarted : s.startedElection = false) :
    Ticked clock t ((t.withNode s).stamp clock .heeded)
  | stopped {s : Node} (hin : s.inElection = true) (hstarted : s.startedElection = false) :
    Ticked clock t ((t.withNode s).mark .stopped)
  | followed {s : Node} (hin : s.inElection = false) (hstarted : s.startedElection = false) :
    Ticked clock t ((t.withNode s).mark .followed)

section Ticking

variable {clock : ℕ → Timespec} {env : Env} {locals : Locals} {t t' : Timed} {poll : Poll}
  {buf message : Bytes} {recvAddr : RmpAddress}

theorem ticked_refl (clock : ℕ → Timespec) (t : Timed) : Ticked clock t t :=
  Ticked.quiet (s := t.node) rfl rfl

/-- A function that does not read the clock and leaves the flags. -/
theorem ticked_run {result : Except Fault Node}
    (hflags : ∀ s, result = .ok s → s.inElection = t.node.inElection ∧
      s.startedElection = t.node.startedElection) (h : t.run result = .ok t') :
    Ticked clock t t' := by
  obtain ⟨s, hs, h⟩ := Fault.bind_eq_ok.1 h
  obtain ⟨hin, hstarted⟩ := hflags s hs
  exact Except.ok.inj h ▸ .quiet hin hstarted

/-- An election is started, with the time at its end. -/
theorem startElection_eq_ok (h : t.startElection clock env = .ok t') :
    ∃ s, s.inElection = true ∧ s.startedElection = true ∧ s.isLeader = t.node.isLeader ∧
      t' = (t.withNode s).stamp clock .started := by
  obtain ⟨s, hs, h⟩ := Fault.bind_eq_ok.1 h
  obtain ⟨log, rfl, -⟩ := nonleaderLoop_ok hs
  refine ⟨_, ?_, ?_, ?_, (Except.ok.inj h).symm⟩
  · rfl
  · rfl
  · rfl

theorem ticked_respondToLeaderElection
    (h : t.respondToLeaderElection clock env locals recvAddr = .ok t') : Ticked clock t t' := by
  unfold respondToLeaderElection at h
  split at h
  · cases h
  split at h
  · obtain ⟨s, hin, hstarted, -, rfl⟩ := startElection_eq_ok h
    exact .started (s := s) hin hstarted
  · exact Except.ok.inj h ▸ .heeded rfl rfl

theorem ticked_askLeader (h : t.askLeader clock env locals message = .ok t') : Ticked clock t t' := by
  obtain ⟨leaderAddr, -, h⟩ := Fault.bind_eq_ok.1 h
  dsimp only at h
  split at h
  · obtain ⟨s, hin, hstarted, -, rfl⟩ := startElection_eq_ok h
    exact .started (s := s) hin hstarted
  split at h
  · cases h
  · exact Except.ok.inj h ▸ .quiet rfl rfl

theorem ticked_recvStdin (h : t.recvStdin clock env locals buf = .ok t') : Ticked clock t t' := by
  unfold recvStdin at h
  dsimp only at h
  split at h
  · refine ticked_run (fun s hs => ?_) h
    obtain ⟨⟨clock, s₁⟩, hclock, hs⟩ := Fault.bind_eq_ok.1 hs
    obtain ⟨-, -, rfl⟩ := incrClock_ok hclock
    obtain ⟨s₂, hb, hs⟩ := Fault.bind_eq_ok.1 hs
    have hsame := leaderBroadcastMessage_same hb
    exact Except.ok.inj hs ▸ ⟨hsame.inElection, hsame.startedElection⟩
  · exact ticked_askLeader h

theorem ticked_sendHeartbeat (h : t.sendHeartbeat clock env locals = .ok t') : Ticked clock t t' := by
  unfold sendHeartbeat at h
  split at h
  · refine ticked_run (fun s hs => ?_) h
    have hsame := leaderBroadcastMessage_same hs
    exact ⟨hsame.inElection, hsame.startedElection⟩
  · exact ticked_askLeader h

theorem ticked_leaderReceiveMessage
    (h : t.leaderReceiveMessage clock env locals buf recvAddr = .ok t') : Ticked clock t t' := by
  obtain ⟨words, -, h⟩ := Fault.bind_eq_ok.1 h
  dsimp only at h
  split at h
  · refine ticked_run (fun s hs => ?_) h
    obtain ⟨-, rfl⟩ | ⟨-, s₁, update, s₂, hinsert, -, hb, rfl⟩ := leaderReceiveAddMe_eq_ok hs
    · exact ⟨rfl, rfl⟩
    · have hrole := insertParticipant_role hinsert
      have hsame := leaderBroadcastMessage_same hb
      exact ⟨hsame.inElection.trans hrole.inElection,
        hsame.startedElection.trans hrole.startedElection⟩
  split at h
  · refine ticked_run (fun s hs => ?_) h
    obtain ⟨request, -, hs⟩ := Fault.bind_eq_ok.1 hs
    obtain ⟨⟨clock, s₁⟩, hclock, hs⟩ := Fault.bind_eq_ok.1 hs
    obtain ⟨-, -, rfl⟩ := incrClock_ok hclock
    obtain ⟨s₂, hb, hs⟩ := Fault.bind_eq_ok.1 hs
    have hsame := leaderBroadcastMessage_same hb
    exact Except.ok.inj hs ▸ ⟨hsame.inElection, hsame.startedElection⟩
  split at h
  · exact Except.ok.inj h ▸ ticked_refl clock t
  split at h
  · exact ticked_respondToLeaderElection h
  · exact Except.ok.inj h ▸ .quiet rfl rfl

theorem ticked_nonLeaderReceiveMessage
    (h : t.nonLeaderReceiveMessage clock env locals buf recvAddr = .ok t') : Ticked clock t t' := by
  obtain ⟨words, -, h⟩ := Fault.bind_eq_ok.1 h
  dsimp only at h
  split at h
  · refine ticked_run (fun s hs => ?_) h
    obtain ⟨message, -, hs⟩ := Fault.bind_eq_ok.1 hs
    exact Except.ok.inj hs ▸ ⟨rfl, rfl⟩
  split at h
  · refine ticked_run (fun s hs => ?_) h
    have hrole := processParticipantUpdate_role hs
    exact ⟨hrole.inElection, hrole.startedElection⟩
  split at h
  · refine ticked_run (fun s hs => ?_) h
    unfold nonLeaderReceiveAddMe at hs
    split at hs
    · exact Except.ok.inj hs ▸ ⟨rfl, rfl⟩
    split at hs
    · cases hs
    dsimp only at hs
    split at hs
    · cases hs
    · exact Except.ok.inj hs ▸ ⟨rfl, rfl⟩
  split at h
  · exact Except.ok.inj h ▸ ticked_refl clock t
  split at h
  · exact ticked_respondToLeaderElection h
  split at h
  · exact Except.ok.inj h ▸ .stopped rfl rfl
  split at h
  · exact Except.ok.inj h ▸ .followed rfl rfl
  · cases h

/-- The part of an iteration for standard input. -/
theorem ticked_fromStdin (h : t.fromStdin clock poll = .ok (some t')) : Ticked clock t t' := by
  have hnothing : (Except.ok (some t) : Except Fault (Option Timed)) = .ok (some t') →
      Ticked clock t t' := fun heq => Option.some.inj (Except.ok.inj heq) ▸ ticked_refl clock t
  unfold fromStdin at h
  split at h
  · exact hnothing h
  · exact hnothing h
  split at h
  · split at h
    · cases hrecv : t.recvStdin clock poll.env poll.stdinLocals _ with
      | error e =>
        rw [hrecv] at h
        cases h
      | ok t₁ =>
        rw [hrecv] at h
        exact Option.some.inj (Except.ok.inj h) ▸ ticked_recvStdin hrecv
    · exact hnothing h
  split at h
  · cases h
  · exact hnothing h

/-- The part for a message. -/
theorem ticked_receive (h : t.receive clock poll buf recvAddr = .ok t') : Ticked clock t t' := by
  unfold receive at h
  split at h
  · exact ticked_leaderReceiveMessage h
  · exact ticked_nonLeaderReceiveMessage h

end Ticking

end Timed

/-! ## The marks of a run -/

/-- The reading of the clock that a mark stores in `last_election_start`. -/
def Mark.stamp? : Mark → Option ℕ
  | .started k | .heeded k => some k
  | _ => none

/-- The reading of the clock that a mark stores in `last_heartbeat`. -/
def Mark.beat? : Mark → Option ℕ
  | .beat n => some n
  | _ => none

/-- The reading of the clock in a mark. -/
def Mark.reading? : Mark → Option ℕ
  | .started k | .heeded k | .beat k | .won k | .expired k => some k
  | .stopped | .followed => none

/-- `last_election_start`. -/
def lastStamp (clock : ℕ → Timespec) (marks : List Mark) : Timespec :=
  ((marks.filterMap Mark.stamp?).getLast?.map clock).getD ⟨0, 0⟩

/-- The reading of the clock in `last_heartbeat`. -/
def lastBeat (marks : List Mark) : ℕ := (marks.filterMap Mark.beat?).getLast?.getD 0

/-- The flags of a node whose last mark this is. -/
def Mark.Stands (s : Node) : Mark → Prop
  | .started _ => s.inElection = true ∧ s.startedElection = true
  | .heeded _ | .stopped => s.inElection = true ∧ s.startedElection = false
  | .followed | .beat _ | .won _ => s.inElection = false ∧ s.startedElection = false
  | .expired _ => False

/-- The flags of a node are those of its last mark. -/
def Standing (marks : List Mark) (s : Node) : Prop :=
  match marks.getLast? with
  | none => s.inElection = false ∧ s.startedElection = false
  | some m => m.Stands s

/-- **The reason for a mark**: a timer has waited long enough, for what the marks before it say. -/
def Reason (clock : ℕ → Timespec) (before : List Mark) : Mark → Prop
  | .beat n => (∀ m, before.getLast? = some m → m = .followed ∨ (∃ k, m = .beat k) ∨ ∃ k, m = .won k) ∧
      heartbeatInterval ≤ timeDiff (clock n) (clock (lastBeat before))
  | .won n => ∃ k, before.getLast? = some (.started k) ∧ k < n ∧
      victoryWaitMillis ≤ timeDiff (clock n) (clock k)
  | .expired n => ((∃ k, before.getLast? = some (.heeded k)) ∨ before.getLast? = some .stopped) ∧
      restartWaitMillis ≤ timeDiff (clock n) (lastStamp clock before)
  | _ => True

/-- The two times that are stored are those of the marks, and the marks have their reasons. -/
structure Timed.Recorded (clock : ℕ → Timespec) (t : Timed) : Prop where
  stamp : t.lastElectionStart = lastStamp clock t.marks
  beat : t.lastHeartbeat = clock (lastBeat t.marks)
  read : ∀ m ∈ t.marks, ∀ k, m.reading? = some k → k < t.readings
  reasons : Justified (Reason clock) t.marks

/-- **What holds in every run.** -/
structure Timed.Accounted (clock : ℕ → Timespec) (t : Timed) : Prop extends t.Recorded clock where
  flags : Standing t.marks t.node

section Marks

variable {clock : ℕ → Timespec} {marks : List Mark} {m : Mark} {s s' : Node}

theorem standing_concat : Standing (marks ++ [m]) s ↔ m.Stands s := by
  rw [Standing, List.getLast?_append]
  rfl

theorem Standing.congr (h : Standing marks s) (hin : s'.inElection = s.inElection)
    (hstarted : s'.startedElection = s.startedElection) : Standing marks s' := by
  unfold Standing at h ⊢
  split at h
  · exact ⟨hin.trans h.1, hstarted.trans h.2⟩
  · next m _ =>
    cases m with
    | started _ | heeded _ | stopped | followed | beat _ | won _ =>
      exact ⟨hin.trans h.1, hstarted.trans h.2⟩
    | expired _ => exact h

/-- Who has started the election that it is in has made this mark last. -/
theorem Standing.started (h : Standing marks s) (hin : s.inElection = true)
    (hstarted : s.startedElection = true) : ∃ k, marks.getLast? = some (.started k) := by
  unfold Standing at h
  split at h
  · rw [hin] at h
    cases h.1
  · next m hlast =>
    cases m with
    | started k => exact ⟨k, hlast⟩
    | heeded _ | stopped | followed | beat _ | won _ =>
      exact absurd (hstarted.symm.trans h.2) (by decide)
    | expired _ => exact h.elim

/-- Who waits for an election has heeded it, or has been stopped. -/
theorem Standing.waiting (h : Standing marks s) (hin : s.inElection = true)
    (hstarted : s.startedElection = false) :
    (∃ k, marks.getLast? = some (.heeded k)) ∨ marks.getLast? = some .stopped := by
  unfold Standing at h
  split at h
  · rw [hin] at h
    cases h.1
  · next m hlast =>
    cases m with
    | heeded k => exact .inl ⟨k, hlast⟩
    | stopped => exact .inr hlast
    | started _ => exact absurd (hstarted.symm.trans h.2) (by decide)
    | followed | beat _ | won _ => exact absurd (hin.symm.trans h.1) (by decide)
    | expired _ => exact h.elim

/-- Who is in no election. -/
theorem Standing.idle (h : Standing marks s) (hin : s.inElection = false) :
    ∀ m, marks.getLast? = some m → m = .followed ∨ (∃ k, m = .beat k) ∨ ∃ k, m = .won k := by
  intro m hlast
  rw [Standing, hlast] at h
  cases m with
  | followed => exact .inl rfl
  | beat k => exact .inr (.inl ⟨k, rfl⟩)
  | won k => exact .inr (.inr ⟨k, rfl⟩)
  | started _ | heeded _ | stopped => exact absurd (hin.symm.trans h.1) (by decide)
  | expired _ => exact h.elim

theorem lastStamp_concat (clock : ℕ → Timespec) (marks : List Mark) (m : Mark) :
    lastStamp clock (marks ++ [m]) = (m.stamp?.map clock).getD (lastStamp clock marks) := by
  unfold lastStamp
  rw [List.filterMap_append]
  cases hm : m.stamp? with
  | none => simp [hm]
  | some k => simp [hm]

theorem lastBeat_concat (marks : List Mark) (m : Mark) :
    lastBeat (marks ++ [m]) = m.beat?.getD (lastBeat marks) := by
  unfold lastBeat
  rw [List.filterMap_append]
  cases hm : m.beat? with
  | none => simp [hm]
  | some k => simp [hm]

end Marks

namespace Timed

section Records

variable {clock : ℕ → Timespec} {poll : Poll} {t t' : Timed} {s : Node} {n : ℕ}

@[simp] theorem mark_marks (t : Timed) (m : Mark) : (t.mark m).marks = t.marks ++ [m] := rfl

@[simp] theorem stamp_marks (t : Timed) (m : ℕ → Mark) :
    (t.stamp clock m).marks = t.marks ++ [m t.readings] := rfl

/-- A mark that stores no time. -/
theorem Recorded.mark (h : t.Recorded clock) {m : Mark} (hstamp : m.stamp? = none)
    (hbeat : m.beat? = none) (hread : ∀ k, m.reading? = some k → k < t.readings)
    (hreason : Reason clock t.marks m) : (t.mark m).Recorded clock where
  stamp := by
    rw [mark_marks, lastStamp_concat, hstamp]
    exact h.stamp
  beat := by
    rw [mark_marks, lastBeat_concat, hbeat]
    exact h.beat
  read m' hm' k hk := by
    obtain hm' | hm' := List.mem_append.1 hm'
    · exact h.read m' hm' k hk
    · exact hread k (List.mem_singleton.1 hm' ▸ hk)
  reasons := justified_concat.2 ⟨h.reasons, hreason⟩

/-- A mark that stores the time of an election. -/
theorem Recorded.stamped (h : t.Recorded clock) {m : ℕ → Mark}
    (hm : m = .started ∨ m = .heeded) : (t.stamp clock m).Recorded clock := by
  have hfields : ∀ k, (m k).stamp? = some k ∧ (m k).beat? = none ∧ (m k).reading? = some k ∧
      Reason clock t.marks (m k) := by
    obtain rfl | rfl := hm
    · exact fun k => ⟨rfl, rfl, rfl, trivial⟩
    · exact fun k => ⟨rfl, rfl, rfl, trivial⟩
  obtain ⟨hstamp, hbeat, hread, hreason⟩ := hfields t.readings
  refine ⟨?_, ?_, fun m' hm' k hk => ?_, justified_concat.2 ⟨h.reasons, hreason⟩⟩
  · rw [stamp_marks, lastStamp_concat, hstamp]
    rfl
  · rw [stamp_marks, lastBeat_concat, hbeat]
    exact h.beat
  · have hlt : k < t.readings ∨ k = t.readings := by
      obtain hm' | hm' := List.mem_append.1 hm'
      · exact .inl (h.read m' hm' k hk)
      · rw [List.mem_singleton.1 hm', hread] at hk
        exact .inr (Option.some.inj hk).symm
    exact Nat.lt_succ_of_le (hlt.elim Nat.le_of_lt Nat.le_of_eq)

theorem Recorded.withNode (h : t.Recorded clock) (s : Node) : (t.withNode s).Recorded clock :=
  ⟨h.stamp, h.beat, h.read, h.reasons⟩

/-- **What a function does** is accounted for. -/
theorem Accounted.ticked (h : t.Accounted clock) (ht : Ticked clock t t') : t'.Accounted clock := by
  have hrecorded := h.toRecorded
  cases ht with
  | quiet hin hstarted => exact ⟨hrecorded.withNode _, h.flags.congr hin hstarted⟩
  | started hin hstarted =>
    exact ⟨(hrecorded.withNode _).stamped (.inl rfl), standing_concat.2 ⟨hin, hstarted⟩⟩
  | heeded hin hstarted =>
    exact ⟨(hrecorded.withNode _).stamped (.inr rfl), standing_concat.2 ⟨hin, hstarted⟩⟩
  | stopped hin hstarted =>
    refine ⟨(hrecorded.withNode _).mark rfl rfl (fun k hk => ?_) trivial,
      standing_concat.2 ⟨hin, hstarted⟩⟩
    cases hk
  | followed hin hstarted =>
    refine ⟨(hrecorded.withNode _).mark rfl rfl (fun k hk => ?_) trivial,
      standing_concat.2 ⟨hin, hstarted⟩⟩
    cases hk

/-- The clock is read for the timers. -/
theorem Accounted.readClock (h : t.Accounted clock) :
    ({ t with readings := t.readings + 1 } : Timed).Accounted clock :=
  ⟨⟨h.stamp, h.beat, fun m hm k hk => Nat.lt_succ_of_lt (h.read m hm k hk), h.reasons⟩, h.flags⟩

/-- A function with another time of the last heartbeat. -/
theorem Ticked.withBeat (h : Ticked clock t t') (x : Timespec) :
    Ticked clock { t with lastHeartbeat := x } { t' with lastHeartbeat := x } := by
  cases h with
  | quiet hin hstarted => exact .quiet hin hstarted
  | started hin hstarted => exact .started hin hstarted
  | heeded hin hstarted => exact .heeded hin hstarted
  | stopped hin hstarted => exact .stopped hin hstarted
  | followed hin hstarted => exact .followed hin hstarted

/-- **The timer for heartbeats** goes off for its reason. -/
theorem Accounted.heartbeatTimer (h : t.Accounted clock) (hn : n < t.readings)
    (hran : t.heartbeatTimer clock poll n = .ok t') : t'.Accounted clock := by
  unfold Timed.heartbeatTimer at hran
  split at hran
  · next hdue =>
    obtain ⟨t₁, hsend, hran⟩ := Fault.bind_eq_ok.1 hran
    obtain rfl := Except.ok.inj hran
    have hticked := (ticked_sendHeartbeat hsend).withBeat (clock n)
    refine Accounted.ticked ⟨⟨?_, ?_, fun m hm k hk => ?_, ?_⟩, ?_⟩ hticked
    · exact h.stamp.trans (lastStamp_concat clock t.marks (.beat n)).symm
    · rw [mark_marks, lastBeat_concat]
      rfl
    · obtain hm | hm := List.mem_append.1 hm
      · exact h.read m hm k hk
      · rw [List.mem_singleton.1 hm] at hk
        exact Option.some.inj hk ▸ hn
    · refine justified_concat.2 ⟨h.reasons, h.flags.idle hdue.1, ?_⟩
      rw [← h.beat]
      exact hdue.2
    · refine standing_concat.2 ⟨hdue.1, ?_⟩
      have hflags := h.flags
      unfold Standing at hflags
      split at hflags
      · exact hflags.2
      · next m hlast =>
        obtain rfl | ⟨k, rfl⟩ | ⟨k, rfl⟩ := h.flags.idle hdue.1 m hlast
        · exact hflags.2
        · exact hflags.2
        · exact hflags.2
  · exact Except.ok.inj hran ▸ h

/-- **The timers for elections** go off for their reasons. -/
theorem Accounted.electionTimers (hclock : Monotonic clock)
    (h : t.Accounted clock) (hn : n < t.readings)
    (hran : t.electionTimers clock poll n = .ok t') : t'.Accounted clock := by
  unfold Timed.electionTimers at hran
  split at hran
  · split at hran
    · next hdue =>
      obtain ⟨hin, hstarted, hwait⟩ := hdue
      obtain ⟨k, hlast⟩ := h.flags.started hin hstarted
      obtain ⟨s, hs, hran⟩ := Fault.bind_eq_ok.1 hran
      obtain rfl := Except.ok.inj hran
      have hstamp : t.lastElectionStart = clock k := by
        obtain ⟨before, hmarks⟩ := List.getLast?_eq_some_iff.1 hlast
        rw [h.stamp, hmarks, lastStamp_concat]
        rfl
      have hearlier : k < n := by
        by_contra hle
        have hle := hclock (Nat.le_of_not_lt hle)
        have hlt := lt_nanos_of_timeDiff hwait
        rw [hstamp, victoryWaitMillis] at hlt
        omega
      have hreason : Reason clock t.marks (.won n) := ⟨k, hlast, hearlier, hstamp ▸ hwait⟩
      have hread : ∀ i, (Mark.won n).reading? = some i → i < t.readings :=
        fun i hi => Option.some.inj hi ▸ hn
      have hwon := h.toRecorded.mark rfl rfl hread hreason
      obtain ⟨s₁, s₂, notice, update, lines, hvictory, -, hupdate, rfl⟩ := declareVictory_broadcasts hs
      have hsame := (leaderBroadcastMessage_same hvictory).trans (leaderBroadcastMessage_same hupdate)
      exact ⟨hwon.withNode _, standing_concat.2 ⟨hsame.inElection, hsame.startedElection⟩⟩
    split at hran
    · next hdue =>
      obtain ⟨hin, hstarted, hwait⟩ := hdue
      obtain ⟨s, hin', hstarted', -, rfl⟩ := startElection_eq_ok hran
      have hreason : Reason clock t.marks (.expired n) :=
        ⟨h.flags.waiting hin hstarted, h.stamp ▸ hwait⟩
      have hread : ∀ i, (Mark.expired n).reading? = some i → i < t.readings :=
        fun i hi => Option.some.inj hi ▸ hn
      have hexpired := h.toRecorded.mark rfl rfl hread hreason
      exact ⟨(hexpired.withNode s).stamped (.inl rfl), standing_concat.2 ⟨hin', hstarted'⟩⟩
    · exact Except.ok.inj hran ▸ h
  · exact Except.ok.inj hran ▸ h

theorem Ticked.readings_le (h : Ticked clock t t') : t.readings ≤ t'.readings := by
  cases h with
  | quiet _ _ => exact Nat.le_refl _
  | started _ _ => exact Nat.le_succ _
  | heeded _ _ => exact Nat.le_succ _
  | stopped _ _ => exact Nat.le_refl _
  | followed _ _ => exact Nat.le_refl _

theorem readings_heartbeatTimer (h : t.heartbeatTimer clock poll n = .ok t') :
    t.readings ≤ t'.readings := by
  unfold Timed.heartbeatTimer at h
  split at h
  · obtain ⟨t₁, hsend, h⟩ := Fault.bind_eq_ok.1 h
    exact Except.ok.inj h ▸ (ticked_sendHeartbeat hsend).readings_le
  · exact Except.ok.inj h ▸ Nat.le_refl _

/-- **An iteration** is accounted for. -/
theorem Accounted.iteration (hclock : Monotonic clock) (h : t.Accounted clock)
    (hran : chatIteration clock t poll = .ok (some t')) : t'.Accounted clock := by
  obtain ⟨t₁, hread, ⟨_, -, rfl⟩ | ⟨t₂, hreceive, htimers⟩⟩ := chatIteration_eq_ok hran
  · exact h.ticked (ticked_fromStdin hread)
  · have h₁ := h.ticked (ticked_fromStdin hread)
    have h₂ : t₂.Accounted clock := by
      obtain ⟨-, rfl⟩ | ⟨bytes, recvAddr, -, hreceive⟩ := hreceive
      · exact h₁
      · exact h₁.ticked (ticked_receive hreceive)
    obtain ⟨t₃, hbeat, helection⟩ := timers_eq_ok htimers
    have hlt : t₂.readings < t₂.readings + 1 := Nat.lt_succ_self _
    have h₃ := h₂.readClock.heartbeatTimer hlt hbeat
    exact h₃.electionTimers hclock (Nat.lt_of_lt_of_le hlt (readings_heartbeatTimer hbeat)) helection

end Records

end Timed

/-! ## Runs -/

section Runs

variable {ok : Process → Occurrence → Prop} {clock : ℕ → Timespec} {t : Timed} {s : Node}

/-- A process that has not come to `chat` is in no election. -/
theorem idle_of_joining {p : Process} (h : Reach soloStep ok Started p) :
    ∀ j, p = .joining j → j.node.inElection = false ∧ j.node.startedElection = false := by
  refine h.invariant
    (I := fun p => ∀ j, p = .joining j → j.node.inElection = false ∧ j.node.startedElection = false)
    ?_ ?_
  · rintro p hp j rfl
    cases hp with
    | joiner hj =>
      obtain ⟨e, lines, hnode, -⟩ := joinChat_ok hj
      rw [hnode]
      exact ⟨rfl, rfl⟩
  · rintro p o p' hI - hs j rfl
    cases p with
    | joining j₀ =>
      obtain ⟨buf, src, -, hran⟩ := soloStep_joining hs
      obtain ⟨j₁, j', hj', hnode, hsend⟩ | ⟨s', -, hs', -⟩ := joinReceive_ok hran
      · obtain rfl := Process.joining.inj hj'
        obtain ⟨e, rfl, -⟩ := sendAddMe_ok hsend
        have hidle := hI j₀ rfl
        rw [← hnode] at hidle
        exact hidle
      · cases hs'
    | chatting s =>
      obtain ⟨s', -, hs'⟩ := soloStep_chatting hs
      cases hs'

/-- Nobody comes to `chat` in an election. -/
theorem Enters.idle (h : Enters ok s) : s.inElection = false ∧ s.startedElection = false := by
  cases h with
  | founder h =>
    obtain ⟨q, lines, rfl, -⟩ := startChat_ok h
    exact ⟨rfl, rfl⟩
  | @joiner j o _ hj _ h =>
    obtain ⟨hin, hstarted⟩ := idle_of_joining hj j rfl
    obtain ⟨buf, src, -, hran⟩ := soloStep_joining h
    obtain ⟨j₁, j', hj', -, -⟩ | ⟨s', -, hs', hupdate⟩ := joinReceive_ok hran
    · cases hj'
    · obtain rfl := Process.chatting.inj hs'
      have hrole := processParticipantUpdate_role hupdate
      exact ⟨hrole.inElection.trans hin, hrole.startedElection.trans hstarted⟩

/-- **Every run is accounted for.** -/
theorem accounted_of_reach (hclock : Monotonic clock)
    (h : Reach (loopStep clock) (fun _ _ => True) (Entering ok clock) t) : t.Accounted clock := by
  refine h.invariant ?_ fun t poll t' hI _ hs => hI.iteration hclock (loopStep_eq_some.1 hs)
  rintro t ⟨s, hs, rfl⟩
  exact ⟨⟨rfl, rfl, (fun m hm => by cases hm), justified_nil⟩, hs.idle⟩

/-- The time of the last heartbeat, or of the start. -/
theorem lastTime_beat (clock : ℕ → Timespec) (marks : List Mark) :
    lastTime (fun m => m.beat?.map fun n => (clock n).nanos) (clock 0).nanos marks =
      (clock (lastBeat marks)).nanos := by
  have hmap : (marks.filterMap fun m => m.beat?.map fun n => (clock n).nanos) =
      (marks.filterMap Mark.beat?).map fun n => (clock n).nanos := List.map_filterMap.symm
  rw [lastTime, hmap, lastBeat, List.getLast?_map]
  cases (marks.filterMap Mark.beat?).getLast? <;> rfl

theorem Timed.Recorded.lastBeat_le (h : t.Recorded clock) : lastBeat t.marks ≤ t.readings := by
  rw [lastBeat]
  cases hlast : (t.marks.filterMap Mark.beat?).getLast? with
  | none => exact Nat.zero_le _
  | some n =>
    obtain ⟨m, hm, hbeat⟩ := List.mem_filterMap.1 (List.mem_of_getLast? hlast)
    have hread : m.reading? = some n := by
      cases m with
      | beat k => exact hbeat
      | started _ | heeded _ | stopped | followed | won _ | expired _ => cases hbeat
    exact Nat.le_of_lt (h.read m hm n hread)

/-- **Heartbeats keep their distance**: however often the loop comes round, the heartbeats so far
have taken almost three seconds each, and there is none during an election. -/
theorem paced_of_reach (hclock : Monotonic clock)
    (h : Reach (loopStep clock) (fun _ _ => True) (Entering ok clock) t) :
    (∀ k, t.readings ≤ k → 2999000001 * ((t.marks.filterMap Mark.beat?).length : ℤ) ≤
      (clock k).nanos - (clock 0).nanos) ∧
    ∀ before n after, t.marks = before ++ .beat n :: after →
      ∀ m, before.getLast? = some m → m = .followed ∨ (∃ k, m = .beat k) ∨ ∃ k, m = .won k := by
  have hacc := accounted_of_reach hclock h
  refine ⟨fun k hk => ?_, fun before n after hmarks => (hacc.reasons before _ after hmarks).1⟩
  have hlast : (clock (lastBeat t.marks)).nanos ≤ (clock k).nanos :=
    hclock (Nat.le_trans hacc.lastBeat_le hk)
  have hpaced := Justified.paced (fun m => m.beat?.map fun n => (clock n).nanos) (clock 0).nanos
    2999000001 (fun before m x hreason hx => ?_) hacc.reasons
  · rw [lastTime_beat] at hpaced
    have hlen : (t.marks.filterMap fun m => m.beat?.map fun n => (clock n).nanos).length =
        (t.marks.filterMap Mark.beat?).length := by
      rw [← List.map_filterMap, List.length_map]
    rw [hlen] at hpaced
    linarith
  · cases m with
    | beat n =>
      have hx : (clock n).nanos = x := Option.some.inj hx
      have hgap := lt_nanos_of_timeDiff hreason.2
      rw [lastTime_beat]
      rw [heartbeatInterval] at hgap
      omega
    | started _ | heeded _ | stopped | followed | won _ | expired _ => cases hx

theorem monotonic_fourSeconds : Monotonic fourSeconds := by
  intro i j hij
  simp only [fourSeconds, Timespec.nanos]
  omega

/-- The run in which `a` stops answering `b`. -/
theorem exists_bereaved : ∃ t : Timed,
    Reach (loopStep fourSeconds) (fun _ _ => True) (Entering (fun _ _ => True) fourSeconds) t ∧
      (t.marks, t.readings) = ([.beat 1, .beat 2, .started 3, .won 4], 5) := by
  have hrun : ((joinChat calmEnv (str "b") (str "127.0.0.1") (str "81")
      (str "127.0.0.1:80")).toOption.bind fun j =>
        (((soloStep (.joining j) admission).bind Process.node?).bind fun s =>
          exec (loopStep fourSeconds) (fun _ _ => True) (Timed.enter fourSeconds s)
            bereavement).map fun t => (t.marks, t.readings)) =
      some ([.beat 1, .beat 2, .started 3, .won 4], 5) := by decide
  obtain ⟨j, hj, hrun⟩ := Option.bind_eq_some_iff.1 hrun
  have hstarted : Started (.joining j) := .joiner (Fault.toOption_eq_some.1 hj)
  exact exists_loop_of_exec (fun _ _ => True) hstarted trivial (fun _ _ => trivial) hrun

/-- Two heartbeats in sixteen seconds. -/
theorem paced_of_reach_bereavement : ∃ t : Timed,
    t.marks = [.beat 1, .beat 2, .started 3, .won 4] ∧
    (∀ k, t.readings ≤ k → 2999000001 * ((t.marks.filterMap Mark.beat?).length : ℤ) ≤
      (fourSeconds k).nanos - (fourSeconds 0).nanos) ∧
    ∀ before n after, t.marks = before ++ .beat n :: after →
      ∀ m, before.getLast? = some m → m = .followed ∨ (∃ k, m = .beat k) ∨ ∃ k, m = .won k := by
  obtain ⟨t, hreach, hmarks⟩ := exists_bereaved
  exact ⟨t, (Prod.mk.inj hmarks).1, paced_of_reach monotonic_fourSeconds hreach⟩

/-- **The timers for elections wait.** A victory is declared only right after an own START_ELECTION,
to which nobody has answered and after which nobody else has started an election or won it for
almost three seconds. An election is started again only by a node that has heeded another one or has
been stopped, almost six seconds after the last time that it has stored. -/
theorem timers_of_reach (hclock : Monotonic clock)
    (h : Reach (loopStep clock) (fun _ _ => True) (Entering ok clock) t) :
    (∀ before n after, t.marks = before ++ .won n :: after →
      ∃ k, before.getLast? = some (.started k) ∧ k < n ∧
        2999000000 < (clock n).nanos - (clock k).nanos) ∧
    ∀ before n after, t.marks = before ++ .expired n :: after →
      ((∃ k, before.getLast? = some (.heeded k)) ∨ before.getLast? = some .stopped) ∧
        5999000000 < (clock n).nanos - (lastStamp clock before).nanos := by
  have hacc := accounted_of_reach hclock h
  refine ⟨fun before n after hmarks => ?_, fun before n after hmarks => ?_⟩
  · obtain ⟨k, hlast, hlt, hwait⟩ := hacc.reasons before _ after hmarks
    exact ⟨k, hlast, hlt, lt_nanos_of_timeDiff hwait⟩
  · obtain ⟨hlast, hwait⟩ := hacc.reasons before _ after hmarks
    exact ⟨hlast, lt_nanos_of_timeDiff hwait⟩

/-- A victory four seconds after the START_ELECTION. -/
theorem timers_of_reach_bereavement : ∃ t : Timed,
    t.marks = [.beat 1, .beat 2, .started 3, .won 4] ∧
    (∀ before n after, t.marks = before ++ .won n :: after →
      ∃ k, before.getLast? = some (.started k) ∧ k < n ∧
        2999000000 < (fourSeconds n).nanos - (fourSeconds k).nanos) ∧
    ∀ before n after, t.marks = before ++ .expired n :: after →
      ((∃ k, before.getLast? = some (.heeded k)) ∨ before.getLast? = some .stopped) ∧
        5999000000 < (fourSeconds n).nanos - (lastStamp fourSeconds before).nanos := by
  obtain ⟨t, hreach, hmarks⟩ := exists_bereaved
  exact ⟨t, (Prod.mk.inj hmarks).1, timers_of_reach monotonic_fourSeconds hreach⟩

end Runs

/-! ## Runs without input -/

/-- No input, and `select` returns. -/
def Poll.Quiet (poll : Poll) : Prop := poll.selected = true ∧ poll.stdin = none ∧ poll.socket = none

section Quiet

variable {clock : ℕ → Timespec} {poll : Poll} {t t' : Timed}

/-- Only the timers are left. -/
theorem timers_of_quiet (hquiet : poll.Quiet) (h : chatIteration clock t poll = .ok (some t')) :
    t.timers clock poll = .ok t' := by
  obtain ⟨-, hstdin, hsocket⟩ := hquiet
  obtain ⟨t₁, hread, hrest⟩ := chatIteration_eq_ok h
  rw [Timed.fromStdin, hstdin] at hread
  obtain rfl := Option.some.inj (Except.ok.inj hread)
  obtain ⟨_, hnone, -⟩ | ⟨t₂, ⟨-, rfl⟩ | ⟨bytes, recvAddr, hnone, -⟩, htimers⟩ := hrest
  · rw [hsocket] at hnone
    cases hnone
  · exact htimers
  · rw [hsocket] at hnone
    cases hnone

/-- A leader keeps leading. -/
theorem leads_of_timers (hl : t.node.isLeader = true) (h : t.timers clock poll = .ok t') :
    t'.node.isLeader = true := by
  obtain ⟨t₁, hbeat, helection⟩ := timers_eq_ok h
  have hl₁ : t₁.node.isLeader = true := by
    unfold Timed.heartbeatTimer at hbeat
    split at hbeat
    · obtain ⟨t₂, hsend, hbeat⟩ := Fault.bind_eq_ok.1 hbeat
      rw [Timed.sendHeartbeat, if_pos (by exact hl)] at hsend
      obtain ⟨s, hs, hsend⟩ := Fault.bind_eq_ok.1 hsend
      obtain rfl := Except.ok.inj hsend
      obtain rfl := Except.ok.inj hbeat
      exact (leaderBroadcastMessage_same hs).isLeader.trans hl
    · exact Except.ok.inj hbeat ▸ hl
  rw [Timed.electionTimers, if_neg (by rw [hl₁]; decide)] at helection
  exact Except.ok.inj helection ▸ hl₁

/-- **The timers in an election**: it is won, or started again, or nothing happens yet. -/
theorem timers_in_election (hin : t.node.inElection = true) (hl : t.node.isLeader = false)
    (h : t.timers clock poll = .ok t') :
    t'.node.isLeader = true ∨
    (t.node.startedElection = false ∧ t'.node.inElection = true ∧ t'.node.startedElection = true ∧
      t'.lastElectionStart = clock (t.readings + 1) ∧ t'.readings = t.readings + 2) ∨
    (t' = { t with readings := t.readings + 1 } ∧
      (t.node.startedElection = true →
        timeDiff (clock t.readings) t.lastElectionStart < victoryWaitMillis) ∧
      (t.node.startedElection = false →
        timeDiff (clock t.readings) t.lastElectionStart < restartWaitMillis)) := by
  obtain ⟨t₁, hbeat, helection⟩ := timers_eq_ok h
  rw [Timed.heartbeatTimer, if_neg (by rintro ⟨hidle, -⟩; exact absurd (hin.symm.trans hidle) (by decide))]
    at hbeat
  obtain rfl := Except.ok.inj hbeat
  rw [Timed.electionTimers, if_pos (by exact hl)] at helection
  split at helection
  · obtain ⟨s, hs, helection⟩ := Fault.bind_eq_ok.1 helection
    obtain rfl := Except.ok.inj helection
    exact .inl (declareVictory_flags hs).1
  next hnot =>
  split at helection
  · next hdue =>
    obtain ⟨s, hin', hstarted', -, rfl⟩ := Timed.startElection_eq_ok helection
    exact .inr (.inl ⟨hdue.2.1, hin', hstarted', rfl, rfl⟩)
  · next hnot' =>
    refine .inr (.inr ⟨(Except.ok.inj helection).symm, fun hstarted => ?_, fun hstarted => ?_⟩)
    · exact not_le.1 fun hle => hnot ⟨hin, hstarted, hle⟩
    · exact not_le.1 fun hle => hnot' ⟨hin, hstarted, hle⟩

theorem readings_timers (h : t.timers clock poll = .ok t') : t.readings ≤ t'.readings := by
  obtain ⟨t₁, hbeat, helection⟩ := timers_eq_ok h
  refine (Nat.le_succ _).trans ((Timed.readings_heartbeatTimer hbeat).trans ?_)
  unfold Timed.electionTimers at helection
  split at helection
  · split at helection
    · obtain ⟨s, -, helection⟩ := Fault.bind_eq_ok.1 helection
      exact Except.ok.inj helection ▸ Nat.le_refl _
    split at helection
    · obtain ⟨s, -, -, -, rfl⟩ := Timed.startElection_eq_ok helection
      exact Nat.le_succ _
    · exact Except.ok.inj helection ▸ Nat.le_refl _
  · exact Except.ok.inj helection ▸ Nat.le_refl _

/-- The node leads, or it is in an election that it has started before the reading number `n`. -/
def Campaigning (clock : ℕ → Timespec) (n : ℕ) (t : Timed) : Prop :=
  t.node.isLeader = true ∨ t.node.isLeader = false ∧ t.node.inElection = true ∧
    t.node.startedElection = true ∧ ∃ k ≤ n, t.lastElectionStart = clock k

theorem Campaigning.mono {m n : ℕ} (h : Campaigning clock m t) (hle : m ≤ n) :
    Campaigning clock n t := by
  obtain hl | ⟨hl, hin, hstarted, k, hk, hlast⟩ := h
  · exact .inl hl
  · exact .inr ⟨hl, hin, hstarted, k, hk.trans hle, hlast⟩

/-- It goes on like this, and leads once it has waited long enough. -/
theorem Campaigning.timers {n : ℕ} (h : Campaigning clock n t) (hran : t.timers clock poll = .ok t') :
    Campaigning clock n t' ∧ (t'.node.isLeader = true ∨ ∃ k ≤ n,
      timeDiff (clock t.readings) (clock k) < victoryWaitMillis) := by
  obtain hl | ⟨hl, hin, hstarted, k, hk, hlast⟩ := h
  · have hl' := leads_of_timers hl hran
    exact ⟨.inl hl', .inl hl'⟩
  obtain hl' | ⟨hnot, -⟩ | ⟨rfl, hwait, -⟩ := timers_in_election hin hl hran
  · exact ⟨.inl hl', .inl hl'⟩
  · exact absurd (hstarted.symm.trans hnot) (by decide)
  · exact ⟨.inr ⟨hl, hin, hstarted, k, hk, hlast⟩, .inr ⟨k, hk, hlast ▸ hwait hstarted⟩⟩

/-- Iterations without input, up to a number. -/
def QuietRun (clock : ℕ → Timespec) (states : ℕ → Timed) (last : ℕ) : Prop :=
  ∀ i ≤ last, ∃ poll : Poll, poll.Quiet ∧
    chatIteration clock (states i) poll = .ok (some (states (i + 1)))

section QuietRuns

variable {states : ℕ → Timed} {i j : ℕ}

theorem QuietRun.timers (h : QuietRun clock states j) (hi : i ≤ j) :
    ∃ poll, (states i).timers clock poll = .ok (states (i + 1)) := by
  obtain ⟨poll, hquiet, hran⟩ := h i hi
  exact ⟨poll, timers_of_quiet hquiet hran⟩

/-- The election goes on as it was, or the node campaigns. -/
theorem QuietRun.campaigning (h : QuietRun clock states j) (hin : (states 0).node.inElection = true)
    (hi : i ≤ j + 1) : Campaigning clock (states i).readings (states i) ∨
      (states i).node.isLeader = false ∧ (states i).node.inElection = true ∧
        (states i).lastElectionStart = (states 0).lastElectionStart := by
  induction i with
  | zero =>
    cases hl : (states 0).node.isLeader with
    | true => exact .inl (.inl hl)
    | false => exact .inr ⟨rfl, hin, rfl⟩
  | succ i ih =>
    obtain ⟨poll, hran⟩ := h.timers (Nat.le_of_succ_le_succ hi)
    obtain hcampaigning | ⟨hl, hin', hlast⟩ := ih (Nat.le_of_succ_le hi)
    · exact .inl ((hcampaigning.timers hran).1.mono (readings_timers hran))
    obtain hl' | ⟨-, hin₁, hstarted₁, hlast₁, hreadings⟩ | ⟨hsame, -⟩ := timers_in_election hin' hl hran
    · exact .inl (.inl hl')
    · cases hl₁ : (states (i + 1)).node.isLeader with
      | true => exact .inl (.inl hl₁)
      | false => exact .inl (.inr ⟨hl₁, hin₁, hstarted₁, _, by omega, hlast₁⟩)
    · rw [hsame]
      exact .inr ⟨hl, hin', hlast⟩

/-- **A node that hears nothing wins its election.** Once an iteration reads a time six seconds
after `last_election_start`, and a later one a time three seconds after the one that followed, the
node leads, whether it had started the election or heeded it. -/
theorem leads_of_quiet (hclock : Monotonic clock) (h : QuietRun clock states j)
    (hin : (states 0).node.inElection = true) (hij : i < j)
    (hi : (states 0).lastElectionStart.nanos + 6000000000 ≤ (clock (states i).readings).nanos)
    (hj : (clock (states (i + 1)).readings).nanos + 3000000000 ≤ (clock (states j).readings).nanos) :
    (states (j + 1)).node.isLeader = true := by
  -- the election that was going on at the start is over
  have hnext : Campaigning clock (states (i + 1)).readings (states (i + 1)) := by
    obtain ⟨poll, hran⟩ := h.timers (Nat.le_of_lt hij)
    obtain hcampaigning | ⟨hl, hin', hlast⟩ := h.campaigning hin (Nat.le_succ_of_le (Nat.le_of_lt hij))
    · exact (hcampaigning.timers hran).1.mono (readings_timers hran)
    obtain hl' | ⟨-, hin₁, hstarted₁, hlast₁, hreadings⟩ | ⟨-, hvictory, hrestart⟩ :=
      timers_in_election hin' hl hran
    · exact .inl hl'
    · cases hl₁ : (states (i + 1)).node.isLeader with
      | true => exact .inl hl₁
      | false => exact .inr ⟨hl₁, hin₁, hstarted₁, _, by omega, hlast₁⟩
    · have hlong : restartWaitMillis ≤
          timeDiff (clock (states i).readings) (states i).lastElectionStart := by
        refine le_timeDiff_of_nanos ?_
        rw [hlast, restartWaitMillis]
        linarith
      cases hstarted : (states i).node.startedElection with
      | true =>
        have hshort := hvictory hstarted
        rw [restartWaitMillis] at hlong
        rw [victoryWaitMillis] at hshort
        omega
      | false => exact absurd hlong (not_le.2 (hrestart hstarted))
  -- from here on the node campaigns with the same election
  have hlater : ∀ d, i + 1 + d ≤ j →
      Campaigning clock (states (i + 1)).readings (states (i + 1 + d)) := by
    intro d
    induction d with
    | zero => exact fun _ => hnext
    | succ d ih =>
      intro hd
      obtain ⟨poll, hran⟩ := h.timers (i := i + 1 + d) (Nat.le_of_succ_le hd)
      exact ((ih (Nat.le_of_succ_le hd)).timers hran).1
  obtain ⟨d, rfl⟩ := Nat.exists_eq_add_of_lt hij
  have hd : i + 1 + d = i + d + 1 := by omega
  obtain ⟨poll, hran⟩ := h.timers (Nat.le_refl _)
  obtain ⟨-, hl | ⟨k, hk, hshort⟩⟩ := (hd ▸ hlater d (by omega)).timers hran
  · exact hl
  · have hle := hclock hk
    have hlong : victoryWaitMillis ≤ timeDiff (clock (states (i + d + 1)).readings) (clock k) := by
      refine le_timeDiff_of_nanos ?_
      rw [victoryWaitMillis]
      linarith
    exact absurd hlong (not_le.2 hshort)

end QuietRuns

/-- `b` has heeded an election at the start, and nobody answers. -/
def vigil : ℕ → Timed
  | 0 => {
      node := { Node.modelInit (str "b") false with
        leader := some ⟨0, str "a", str "127.0.0.1", str "80"⟩
        participants := [⟨⟨0, str "a", str "127.0.0.1", str "80"⟩, true⟩,
          ⟨⟨1, str "b", str "127.0.0.1", str "81"⟩, false⟩]
        numParticipants := 2
        nextPtr := 2
        inElection := true }
      lastElectionStart := fourSeconds 0
      lastHeartbeat := fourSeconds 0
      readings := 1
      marks := [.heeded 0] }
  | i + 1 => (loopStep fourSeconds (vigil i) (quietPoll silentEnv)).getD (vigil i)

/-- It restarts the election after eight seconds, and leads after sixteen. -/
theorem leads_of_quiet_vigil : (vigil 1).node.isLeader = false ∧ (vigil 4).node.isLeader = true := by
  have hrun : ∀ i ≤ 3, loopStep fourSeconds (vigil i) (quietPoll silentEnv) = some (vigil (i + 1)) := by
    decide
  refine ⟨by decide, ?_⟩
  refine leads_of_quiet (i := 1) monotonic_fourSeconds (fun i hi => ?_) (by decide) (by decide)
    (by decide) (by decide)
  exact ⟨quietPoll silentEnv, ⟨rfl, rfl, rfl⟩, loopStep_eq_some.1 (hrun i hi)⟩

end Quiet

end Dchat.Chat
