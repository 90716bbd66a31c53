import Dchat.Chat.Malformed

/-!
# The scan loop always ends

The loop of `process_participant_update` with `currPos` as an index into the bytes that follow the
first `@`, and with arrays that have room for whatever is scanned into them.

* `scanRound_progresses`: a round exits, or inserts one participant and moves `currPos` forward
  within the text.
* `scanLoop_ends`: the loop ends on every text.
* `scanParticipants_eq_scanLoop`: it is the loop of the program if the fields fit their arrays.
-/

namespace Dchat.Chat

open CString Stdio

/-! ## The loop -/

/-- The variables of the loop: the state, the index `currPos`, and `is_first`. -/
structure ScanState where
  node : Node
  currPos : ℕ
  isFirst : Bool

/-- The steps of `while (currPos[0] == ' ') currPos++`. -/
def leadingSpaces (s : Bytes) : ℕ := (s.takeWhile (· == 32)).length

/-- `insert_participant` with arrays that hold texts of any length. -/
def Node.appendParticipant (s : Node) (nickname ipAddress portNum : Bytes) (isLeader : Bool) : Node :=
  let p : Participant := { ptr := s.nextPtr, nickname, ipAddress, portNum, isLeader }
  { s with
    leader := if isLeader then some p.toPeer else s.leader
    participants := s.participants ++ [p]
    numParticipants := s.numParticipants + 1
    nextPtr := s.nextPtr + 1 }

/-- The condition of the loop. -/
def Continues (text : Bytes) (currPos : ℕ) : Prop := ¬ AtEnd (text.drop currPos)

instance (text : Bytes) (currPos : ℕ) : Decidable (Continues text currPos) :=
  inferInstanceAs (Decidable (¬ _))

/-- The body of the loop. -/
def scanRound (joining : Bool) (text : Bytes) (l : ScanState) : Except Fault ScanState := do
  let r ← sscanf (participantFormat.map (Directive.withRoom (text.length + 1)))
    (text.drop l.currPos)
  if r.ret = eof then .error .exit
  else if r.ret < 3 then .error .exit
  else
    let node := l.node.appendParticipant (r.text 0 []) (r.text 1 []) (r.text 2 []) l.isFirst
    let line := r.text 0 [] ++ str " " ++ r.text 1 [] ++ str ":" ++ r.text 2 [] ++
      if l.isFirst then str " (Leader)" else []
    let node := if joining then node.print line else node
    let currPos := l.currPos + strcspn (text.drop l.currPos) (str " =")
    let currPos := currPos + leadingSpaces (text.drop currPos)
    .ok ⟨node, currPos, false⟩

/-- The loop, for at most as many rounds as the first argument says. -/
def scanLoop (joining : Bool) (text : Bytes) : ℕ → ScanState → Except Fault ScanState
  | 0, _ => .error .diverges
  | fuel + 1, l =>
    if Continues text l.currPos then do
      let l ← scanRound joining text l
      scanLoop joining text fuel l
    else .ok l

/-- What a round does that does not exit. -/
structure Progresses (text : Bytes) (l l' : ScanState) : Prop where
  forward : l.currPos < l'.currPos
  inside : l'.currPos ≤ text.length
  inserted : ∃ q, Inserted l.node l'.node q ∧ q.isLeader = l.isFirst ∧ q.nickname ≠ [] ∧
    64 ∉ q.nickname ∧ 58 ∉ q.nickname ∧ 32 ∉ q.nickname
  isFirst : l'.isFirst = false

/-! ## One round -/

theorem length_drop_lt (text : Bytes) (i : ℕ) : (text.drop i).length < text.length + 1 := by
  rw [List.length_drop]
  omega

theorem leadingSpaces_le (s : Bytes) : leadingSpaces s ≤ s.length :=
  (List.takeWhile_prefix _).length_le

/-- The index behind the spaces. -/
theorem drop_leadingSpaces (s : Bytes) : s.drop (leadingSpaces s) = skipSpaces s := by
  have hsplit : s.takeWhile (· == 32) ++ skipSpaces s = s := List.takeWhile_append_dropWhile
  calc s.drop (leadingSpaces s)
      = (s.takeWhile (· == 32) ++ skipSpaces s).drop (s.takeWhile (· == 32)).length := by
        rw [hsplit, leadingSpaces]
    _ = skipSpaces s := List.drop_left

/-- The index that a round sets is where `advance` ends. -/
theorem drop_currPos (text : Bytes) (i : ℕ) :
    text.drop (i + strcspn (text.drop i) (str " =") +
      leadingSpaces (text.drop (i + strcspn (text.drop i) (str " =")))) =
      advance (text.drop i) := by
  rw [← List.drop_drop, drop_leadingSpaces, advance, List.drop_drop]

/-- A participant is inserted, with or without a line printed. -/
theorem inserted_appendParticipant (s : Node) (nickname ipAddress portNum : Bytes) (isLeader : Bool)
    (joining : Bool) (line : Bytes) :
    Inserted s (if joining then (s.appendParticipant nickname ipAddress portNum isLeader).print line
      else s.appendParticipant nickname ipAddress portNum isLeader)
      ⟨⟨s.nextPtr, nickname, ipAddress, portNum⟩, isLeader⟩ := by
  cases joining with
  | true => exact ⟨rfl, rfl, rfl, ⟨rfl, rfl, rfl, rfl, rfl, rfl⟩⟩
  | false => exact ⟨rfl, rfl, rfl, ⟨rfl, rfl, rfl, rfl, rfl, rfl⟩⟩

/-- The scan of an entry stores every field. -/
theorem exists_scan (text : Bytes) (i : ℕ) :
    ∃ r, sscanf (participantFormat.map (Directive.withRoom (text.length + 1))) (text.drop i) = .ok r :=
  exists_sscanf_of_fieldsFit (by simp [participantFormat, Directive.withRoom])
    (fieldsFit_withRoom participantFormat (length_drop_lt text i))

/-- The nickname scanned is the part before the first `@`, `:` or space. -/
theorem scanned_nickname {text : Bytes} {i : ℕ} {r : Scan}
    (h : sscanf (participantFormat.map (Directive.withRoom (text.length + 1))) (text.drop i) = .ok r)
    (h3 : 3 ≤ r.ret) : (text.drop i).takeWhile isNicknameByte ≠ [] ∧
      r.text 0 [] = (text.drop i).takeWhile isNicknameByte := by
  have hlen := three_le_ret h3
  have hne : r.assigned ≠ [] := by
    intro hnil
    rw [hnil, List.length_nil] at hlen
    omega
  obtain ⟨hword, -, r', -, rfl⟩ := sscanf_set_eq_ok h hne
  exact ⟨hword, rfl⟩

/-- **A round exits or makes progress.** -/
theorem scanRound_progresses (joining : Bool) {text : Bytes} {l : ScanState}
    (hgo : Continues text l.currPos) :
    scanRound joining text l = .error .exit ∨
      ∃ l', scanRound joining text l = .ok l' ∧ Progresses text l l' := by
  obtain ⟨r, hr⟩ := exists_scan text l.currPos
  unfold scanRound
  rw [hr, Fault.ok_bind]
  dsimp only
  split
  · exact .inl rfl
  split
  · exact .inl rfl
  next hlt =>
  obtain ⟨hword, hnick⟩ := scanned_nickname hr (Int.not_lt.1 hlt)
  refine .inr ⟨_, rfl, ?_, ?_, ⟨_, inserted_appendParticipant .., rfl, ?_⟩, rfl⟩
  · have hpos := strcspn_pos hgo hword
    dsimp only
    omega
  · have hspn : strcspn (text.drop l.currPos) (str " =") ≤ (text.drop l.currPos).length :=
      (List.takeWhile_prefix _).length_le
    have hspaces := leadingSpaces_le
      (text.drop (l.currPos + strcspn (text.drop l.currPos) (str " =")))
    have hpos : (text.drop l.currPos).length ≠ 0 := fun h =>
      (not_or.1 hgo).1 (List.eq_nil_of_length_eq_zero h)
    rw [List.length_drop] at hspn hspaces hpos
    dsimp only
    omega
  · have hbyte : ∀ c, isNicknameByte c = false → c ∉ r.text 0 [] := by
      intro c hc hmem
      rw [hnick] at hmem
      rw [List.mem_takeWhile_imp hmem] at hc
      cases hc
    exact ⟨hnick ▸ hword, hbyte 64 (by decide), hbyte 58 (by decide), hbyte 32 (by decide)⟩

/-! ## All rounds -/

/-- **The loop ends** within as many rounds as there are bytes left. -/
theorem scanLoop_total (joining : Bool) {text : Bytes} {fuel : ℕ} {l : ScanState}
    (hinside : l.currPos ≤ text.length) (hfuel : text.length < l.currPos + fuel) :
    scanLoop joining text fuel l = .error .exit ∨
      ∃ l', scanLoop joining text fuel l = .ok l' ∧ l'.currPos ≤ text.length ∧
        ¬ Continues text l'.currPos := by
  induction fuel generalizing l with
  | zero => omega
  | succ fuel ih =>
    rw [scanLoop]
    by_cases hgo : Continues text l.currPos
    · rw [if_pos hgo]
      obtain hexit | ⟨l', hround, hprogress⟩ := scanRound_progresses joining hgo
      · rw [hexit, Fault.error_bind]
        exact .inl rfl
      · rw [hround, Fault.ok_bind]
        have hforward := hprogress.forward
        exact ih hprogress.inside (by omega)
    · rw [if_neg hgo]
      exact .inr ⟨l, rfl, hinside, hgo⟩

/-- What fits is inserted as it is. -/
theorem insertParticipant_of_fits (s : Node) {nickname ipAddress portNum : Bytes} (isLeader : Bool)
    (h : ∀ ptr, Peer.Scannable ⟨ptr, nickname, ipAddress, portNum⟩) :
    s.insertParticipant nickname ipAddress portNum isLeader =
      .ok (s.appendParticipant nickname ipAddress portNum isLeader) := by
  have hnick := (h 0).nickname_length
  have hip := (h 0).ip.length_le
  have hport := (h 0).port.length_le
  rw [Node.insertParticipant, if_neg (by rintro (h | h | h) <;> dsimp only at * <;> omega)]
  rfl

/-- **The loop of the program**: it is this one if every field fits its array. -/
theorem scanParticipants_eq_scanLoop (joining : Bool) {text : Bytes} {fuel : ℕ} {l : ScanState}
    (h : EntriesFit (text.drop l.currPos)) :
    scanParticipants joining fuel l.node (text.drop l.currPos) l.isFirst =
      (scanLoop joining text fuel l).map fun l => (l.node, text.drop l.currPos) := by
  induction fuel generalizing l with
  | zero => rfl
  | succ fuel ih =>
    by_cases hend : AtEnd (text.drop l.currPos)
    · have hstop : ¬ Continues text l.currPos := not_not.2 hend
      rw [scanParticipants, scanLoop, if_pos (show _ ∨ _ from hend), if_neg hstop]
      rfl
    obtain ⟨hfit, hrest⟩ := (entriesFit_iff hend).1 h
    have hsame := sscanf_withRoom (length_drop_lt text l.currPos) hfit
    obtain ⟨r, hr⟩ := exists_scan text l.currPos
    have hgo : Continues text l.currPos := hend
    rw [scanParticipants, scanLoop, if_neg (show ¬ (_ ∨ _) from hend), if_pos hgo, scanRound, hr,
      ← hsame, hr, Fault.ok_bind, Fault.ok_bind]
    split
    · rfl
    split
    · rfl
    next hlt =>
    have h3 := Int.not_lt.1 hlt
    rw [insertParticipant_of_fits _ _ (sscanf_participantFormat_eq_ok (hsame ▸ hr) h3).2,
      Fault.ok_bind, Fault.ok_bind]
    have hadvance := hrest ⟨r, hsame ▸ hr, h3⟩
    rw [← drop_currPos] at hadvance
    have hloop := fun node => ih (l := ⟨node, _, false⟩) hadvance
    simp only [drop_currPos] at hloop
    exact hloop _

/-- **The scan loop always ends.** Every round exits, or moves `currPos` forward within the text and
inserts exactly one participant with a nickname; and the loop exits or comes to its end. -/
theorem scanLoop_ends (joining : Bool) (text : Bytes) (s : Node) :
    (∀ l, Continues text l.currPos → scanRound joining text l = .error .exit ∨
      ∃ l', scanRound joining text l = .ok l' ∧ Progresses text l l') ∧
    ∀ fuel, text.length < fuel →
      scanLoop joining text fuel ⟨s, leadingSpaces text, true⟩ = .error .exit ∨
      ∃ l', scanLoop joining text fuel ⟨s, leadingSpaces text, true⟩ = .ok l' ∧
        l'.currPos ≤ text.length ∧ ¬ Continues text l'.currPos := by
  refine ⟨fun l hgo => scanRound_progresses joining hgo, fun fuel hfuel => ?_⟩
  exact scanLoop_total joining (leadingSpaces_le text) (by dsimp only; omega)

/-- Two rounds, which leave the index at the `=`. -/
example : (scanLoop false (str " a:1:80  b:2:81 = x") 20 ⟨Node.modelInit [] false, 1, true⟩).toOption.map
    (fun l => (l.node.participants.map fun p => (p.nickname, p.isLeader), l.currPos)) =
      some ([(str "a", true), (str "b", false)], 16) := by
  decide

end Dchat.Chat
