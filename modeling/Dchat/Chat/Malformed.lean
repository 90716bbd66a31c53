import Dchat.Chat.Bookkeeping

/-!
# A malformed PARTICIPANT_UPDATE

`process_participant_update` empties the list before it reads the command, so that a command it
cannot read must end the process. It does so for an entry that is not one, and for a list without an
end. Three kinds of commands are not caught: one without an `@`, one whose list is empty, and one
with a field that is longer than its array.

* `scanParticipants_total`: the loop returns or exits, except on a field that is too long.
* `recovers_iff`: the process ends, or has a leader again, exactly for all other commands.
-/

namespace Dchat.Chat

open CString Stdio

/-- The condition on which the loop over the entries ends. -/
def AtEnd (currPos : Bytes) : Prop := currPos = [] ∨ currPos.head? = some 61

instance (currPos : Bytes) : Decidable (AtEnd currPos) := inferInstanceAs (Decidable (_ ∨ _))

/-- The entry at `currPos` is complete: the scan assigns its three fields. -/
def Complete (currPos : Bytes) : Prop := ∃ r, sscanf participantFormat currPos = .ok r ∧ 3 ≤ r.ret

/-- The step of the loop over an entry. -/
def advance (currPos : Bytes) : Bytes := skipSpaces (currPos.drop (strcspn currPos (str " =")))

/-- The loop that begins at a position comes to another one. -/
inductive Visits : Bytes → Bytes → Prop
  | here (currPos : Bytes) : Visits currPos currPos
  | next {currPos pos : Bytes} (hend : ¬ AtEnd currPos) (hcomplete : Complete currPos)
      (h : Visits (advance currPos) pos) : Visits currPos pos

/-- The first participant is the only one flagged, and `get_leader` returns it. -/
def LedByFirst (s : Node) : Prop :=
  ∃ q qs, s.participants = q :: qs ∧ q.isLeader = true ∧ (∀ p ∈ qs, p.isLeader = false) ∧
    s.leader = some q.toPeer

/-- What is asked of `process_participant_update`. -/
structure Recovers (s : Node) (command : Bytes) (joining : Bool) : Prop where
  /-- It reads from positions within the command only. -/
  inside : ∃ found, strchr command 64 = some found ∧
    ∀ pos, Visits (skipSpaces found.tail) pos → pos <:+ command
  /-- It ends the process, or returns with the first participant as the leader. -/
  outcome : processParticipantUpdate s command joining = .error .exit ∨
    ∃ s', processParticipantUpdate s command joining = .ok s' ∧ LedByFirst s'

/-- Every field that the loop reads from `currPos` on fits its array. -/
def EntriesFit (currPos : Bytes) : Prop :=
  ∀ pos, Visits currPos pos → ¬ AtEnd pos → FieldsFit participantFormat pos

/-! ## The loop -/

theorem Visits.suffix {currPos pos : Bytes} (h : Visits currPos pos) : pos <:+ currPos := by
  induction h with
  | here currPos => exact List.suffix_rfl
  | next hend hcomplete h ih =>
    exact ih.trans ((List.dropWhile_suffix _).trans (List.drop_suffix _ _))

theorem entriesFit_of_atEnd {currPos : Bytes} (h : AtEnd currPos) : EntriesFit currPos := by
  intro pos hpos hend
  cases hpos with
  | here => exact absurd h hend
  | next hnot => exact absurd h hnot

/-- The fields of the entries are those of the first one and those of the others. -/
theorem entriesFit_iff {currPos : Bytes} (h : ¬ AtEnd currPos) :
    EntriesFit currPos ↔ FieldsFit participantFormat currPos ∧
      (Complete currPos → EntriesFit (advance currPos)) := by
  constructor
  · intro hall
    exact ⟨hall _ (.here _) h, fun hcomplete pos hpos => hall pos (.next h hcomplete hpos)⟩
  · rintro ⟨hfirst, hrest⟩ pos hpos hend
    cases hpos with
    | here => exact hfirst
    | next _ hcomplete hpos => exact hrest hcomplete pos hpos hend

/-- **The loop ends**: it returns or exits if every field fits its array, and writes behind an array
otherwise. -/
theorem scanParticipants_total (joining : Bool) {fuel : ℕ} (s : Node) {currPos : Bytes}
    (isFirst : Bool) (hfuel : currPos.length < fuel) :
    (EntriesFit currPos → scanParticipants joining fuel s currPos isFirst = .error .exit ∨
      ∃ s' rest, scanParticipants joining fuel s currPos isFirst = .ok (s', rest)) ∧
    (¬ EntriesFit currPos →
      scanParticipants joining fuel s currPos isFirst = .error .bufferOverflow) := by
  induction fuel generalizing s currPos isFirst with
  | zero => omega
  | succ fuel ih =>
    by_cases hend : AtEnd currPos
    · refine ⟨fun _ => .inr ⟨s, currPos, ?_⟩, fun hnot => absurd (entriesFit_of_atEnd hend) hnot⟩
      rw [scanParticipants, if_pos (show currPos = [] ∨ currPos.head? = some 61 from hend)]
    rw [entriesFit_iff hend]
    have hgo : ¬ (currPos = [] ∨ currPos.head? = some 61) := hend
    by_cases hfit : FieldsFit participantFormat currPos
    · obtain ⟨r, hr⟩ := exists_sscanf_of_fieldsFit (by simp [participantFormat]) hfit
      by_cases h3 : 3 ≤ r.ret
      · -- a complete entry is inserted, and the loop goes on behind it
        obtain ⟨s₁, h₁⟩ := insertParticipant_of_scannable
          ((sscanf_participantFormat_eq_ok hr h3).2 0) s isFirst
        obtain ⟨s₂, q, hround, -⟩ := scanParticipants_succ joining fuel hend hr h3 h₁
        have hlt := length_advance_lt hend hr h3
        have hrest := ih s₂ false (Nat.lt_of_lt_of_le hlt (Nat.le_of_lt_succ hfuel))
        rw [hround]
        exact ⟨fun h => hrest.1 (h.2 ⟨r, hr, h3⟩),
          fun hnot => hrest.2 fun h => hnot ⟨hfit, fun _ => h⟩⟩
      · -- anything else ends the process
        have hincomplete : ¬ Complete currPos := by
          rintro ⟨r', hr', h3'⟩
          obtain rfl := Except.ok.inj (hr.symm.trans hr')
          exact h3 h3'
        refine ⟨fun _ => .inl ?_, fun hnot => absurd ⟨hfit, fun h => absurd h hincomplete⟩ hnot⟩
        rw [scanParticipants, if_neg hgo, hr, Fault.ok_bind]
        split
        · rfl
        · rw [if_pos (by omega)]
    · refine ⟨fun h => absurd h.1 hfit, fun _ => ?_⟩
      rw [scanParticipants, if_neg hgo, sscanf_eq_overflow.2 hfit]
      rfl

/-! ## The whole command -/

/-- An insertion makes the first participant the leader, and leaves the leader to the first. -/
theorem ledByFirst_insertParticipant {s s' : Node} {nickname ipAddress portNum : Bytes}
    {isFirst : Bool} (hs : if isFirst then s.participants = [] else LedByFirst s)
    (h : s.insertParticipant nickname ipAddress portNum isFirst = .ok s') : LedByFirst s' := by
  unfold Node.insertParticipant at h
  dsimp only at h
  split at h
  · cases h
  obtain rfl := Except.ok.inj h
  cases isFirst with
  | true =>
    have hnil : s.participants = [] := hs
    refine ⟨⟨⟨s.nextPtr, nickname, ipAddress, portNum⟩, true⟩, [], ?_, rfl, by simp, rfl⟩
    dsimp only
    rw [hnil, List.nil_append]
  | false =>
    obtain ⟨q, qs, hps, hq, hqs, hleader⟩ : LedByFirst s := hs
    refine ⟨q, qs ++ [⟨⟨s.nextPtr, nickname, ipAddress, portNum⟩, false⟩], ?_, hq, ?_, hleader⟩
    · dsimp only
      rw [hps, List.cons_append]
    · intro p hp
      obtain hp | hp := List.mem_append.1 hp
      · exact hqs p hp
      · rw [List.mem_singleton.1 hp]

/-- The list that is read is led by its first entry, if it has one. -/
theorem ledByFirst_processParticipantUpdate {s s' : Node} {command : Bytes} {joining : Bool}
    (h : processParticipantUpdate s command joining = .ok s') :
    LedByFirst s' ↔ HasEntry command := by
  obtain ⟨hentry, hnone⟩ := processParticipantUpdate_rule
    (P := fun isFirst s => if isFirst then s.participants = [] else LedByFirst s)
    (fun isFirst s line hs => by cases isFirst <;> exact hs)
    (fun _ _ _ _ _ _ hs hinsert => ledByFirst_insertParticipant hs hinsert) h rfl
  refine ⟨fun hled => ?_, hentry⟩
  by_contra hnot
  obtain ⟨q, qs, hps, -⟩ := hled
  exact List.cons_ne_nil q qs (hps.symm.trans (hnone hnot).2)

/-- **A PARTICIPANT_UPDATE that the node does not read ends the process**, exactly if it has an `@`,
its list is not empty, and no field is longer than its array. -/
theorem recovers_iff (s : Node) (command : Bytes) (joining : Bool) :
    Recovers s command joining ↔ ∃ found, strchr command 64 = some found ∧
      (skipSpaces found.tail).head? ≠ some 61 ∧ EntriesFit (skipSpaces found.tail) := by
  constructor
  · rintro ⟨⟨found, hfound, -⟩, houtcome⟩
    refine ⟨found, hfound, ?_⟩
    obtain ⟨hreturns, hoverflows⟩ := scanParticipants_total joining s.emptyList true
      (Nat.lt_succ_self (skipSpaces found.tail).length)
    have hfit : EntriesFit (skipSpaces found.tail) := by
      by_contra hnot
      have hrun : processParticipantUpdate s command joining = .error .bufferOverflow := by
        rw [processParticipantUpdate_of_strchr hfound, hoverflows hnot, Fault.error_bind]
      obtain h | ⟨s', h, -⟩ := houtcome
      · cases hrun.symm.trans h
      · cases hrun.symm.trans h
    refine ⟨fun hequals => ?_, hfit⟩
    -- without an entry the function returns, with an empty list
    obtain hexit | ⟨s', hs', hled⟩ := houtcome
    · rw [processParticipantUpdate_of_strchr hfound, scanParticipants, if_pos (.inr hequals),
        Fault.ok_bind] at hexit
      dsimp only at hexit
      rw [if_pos hequals] at hexit
      cases hexit
    · obtain ⟨found', hfound', hne⟩ := (ledByFirst_processParticipantUpdate hs').1 hled
      rw [hfound] at hfound'
      obtain rfl := Option.some.inj hfound'
      exact hne hequals
  · rintro ⟨found, hfound, hne, hfit⟩
    have hsuffix : skipSpaces found.tail <:+ command :=
      (List.dropWhile_suffix _).trans ((List.tail_suffix _).trans (strchr_suffix hfound))
    refine ⟨⟨found, hfound, fun pos hpos => hpos.suffix.trans hsuffix⟩, ?_⟩
    obtain ⟨hreturns, -⟩ := scanParticipants_total joining s.emptyList true
      (Nat.lt_succ_self (skipSpaces found.tail).length)
    cases hrun : processParticipantUpdate s command joining with
    | ok s' =>
      exact .inr ⟨s', rfl, (ledByFirst_processParticipantUpdate hrun).2 ⟨found, hfound, hne⟩⟩
    | error e =>
      refine .inl ?_
      rw [processParticipantUpdate_of_strchr hfound] at hrun
      obtain hexit | ⟨s', rest, hok⟩ := hreturns hfit
      · rw [hexit] at hrun
        exact hrun.symm
      · rw [hok, Fault.ok_bind] at hrun
        dsimp only at hrun
        split at hrun
        · cases hrun
        · exact hrun.symm

/-- Not every malformed update is recovered from: after one with an empty list there
is no leader. -/
theorem not_recovers :
    ¬ ∀ s command joining, messageParticipantUpdate <+: command → Recovers s command joining := by
  intro h
  have hrun : (processParticipantUpdate (Node.modelInit [] false) (str "PARTICIPANT_UPDATE @= x")
      false).toOption.map (fun s => (s.participants, s.leader)) = some ([], none) := by decide
  obtain hexit | ⟨s', hs', q, qs, hps, -⟩ :=
    (h (Node.modelInit [] false) (str "PARTICIPANT_UPDATE @= x") false (by decide)).outcome
  · rw [hexit] at hrun
    cases hrun
  · rw [hs'] at hrun
    have hnil := (Prod.mk.inj (Option.some.inj hrun)).1
    exact List.cons_ne_nil q qs (hps.symm.trans hnil)

end Dchat.Chat
