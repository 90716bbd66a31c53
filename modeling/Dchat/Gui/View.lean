import Dchat.Foundations.CString
import Mathlib.Data.Finset.Basic
import Mathlib.Data.List.Sort

/-!
# The state of the GUI

`ParticipantListModel` and the methods of `ChatRunner` that a `ChatSource` calls. A string is the
list of its characters, one for each byte that the chat process printed; the listeners of the list
model and the locks are left out.

* `ParticipantListModel.Shows` says which list a model shows, with which leader.
* `Shows.addParticipant`, `Shows.removeParticipant`, `Shows.setLeader` are the list after each
  method.
-/

namespace Dchat.Gui

open CString

/-- What a method throws. -/
inductive Thrown
  | illegalArgument
  | indexOutOfBounds
  deriving DecidableEq

/-! ## `ParticipantListModel` -/

/-- `ParticipantListModel`. -/
structure ParticipantListModel where
  participants : Finset Bytes
  sortedParticipants : List Bytes
  leader : Option Bytes
  ownNickname : Bytes
  deriving DecidableEq

namespace ParticipantListModel

/-- `a.compareTo(b) <= 0`. -/
def Before (a b : Bytes) : Prop := rank a ≤ rank b

instance : DecidableRel Before := fun a b => inferInstanceAs (Decidable (rank a ≤ rank b))

instance : Std.Total Before := ⟨fun a b => le_total (rank a) (rank b)⟩

instance : IsTrans Bytes Before := ⟨fun _ b _ => le_trans (b := rank b)⟩

/-- `Collections.sort`. -/
def sort (names : List Bytes) : List Bytes := names.insertionSort Before

/-- `getElementAt`. -/
def getElementAt (m : ParticipantListModel) (index : ℕ) : Option Bytes :=
  m.sortedParticipants[index]?.map fun participant =>
    participant ++ (if m.leader = some participant then str " (leader)" else []) ++
      if m.ownNickname = participant then str " (me)" else []

/-- `setParticipants`. -/
def setParticipants (m : ParticipantListModel) (participantsList : List Bytes)
    (leader : Option Bytes) : Except Thrown ParticipantListModel :=
  let participants := participantsList.toFinset
  if leader.any (· ∈ participants) then
    .ok { m with participants, leader, sortedParticipants := sort participantsList.dedup }
  else .error .illegalArgument

/-- `addParticipant`. -/
def addParticipant (m : ParticipantListModel) (participant : Bytes) : ParticipantListModel :=
  if participant ∈ m.participants then m
  else { m with
    participants := insert participant m.participants
    sortedParticipants := sort (m.sortedParticipants ++ [participant]) }

/-- `removeParticipant`. -/
def removeParticipant (m : ParticipantListModel) (participant : Bytes) : ParticipantListModel :=
  if participant ∈ m.participants then
    { m with
      leader := if m.leader = some participant then none else m.leader
      participants := m.participants.erase participant
      sortedParticipants := m.sortedParticipants.erase participant }
  else m

/-- `setLeader`. -/
def setLeader (m : ParticipantListModel) (newLeader : Bytes) :
    Except Thrown ParticipantListModel :=
  if newLeader ∈ m.participants then .ok { m with leader := some newLeader }
  else .error .illegalArgument

end ParticipantListModel

/-! ## `ChatRunner` -/

/-- The styles of the document. -/
inductive Style
  | plain
  | notice
  | nickname
  | own
  deriving DecidableEq

/-- A string inserted at the end of the document. -/
structure Piece where
  text : Bytes
  style : Style
  deriving DecidableEq

/-- The fields of `ChatRunner` that change, and the nickname of the user. -/
structure View where
  participantsModel : ParticipantListModel
  chatDoc : List Piece
  chatEntryEnabled : Bool
  nickname : Bytes
  deriving DecidableEq

namespace View

/-- `displayMessage`. -/
def displayMessage (v : View) (sender message : Bytes) : View :=
  { v with chatDoc := v.chatDoc ++
      [⟨sender ++ str ": ", if sender = v.nickname then .own else .nickname⟩,
        ⟨message ++ [10], .plain⟩] }

/-- `displayNotice`. -/
def displayNotice (v : View) (notice : Bytes) : View :=
  { v with chatDoc := v.chatDoc ++ [⟨notice ++ [10], .notice⟩] }

/-- `addParticipant`. -/
def addParticipant (v : View) (name : Bytes) : View :=
  { v with participantsModel := v.participantsModel.addParticipant name }

/-- `removeParticipant`. -/
def removeParticipant (v : View) (name : Bytes) : View :=
  { v with participantsModel := v.participantsModel.removeParticipant name }

/-- `setParticipants`. -/
def setParticipants (v : View) (names : List Bytes) (leader : Option Bytes) :
    Except Thrown View := do
  let participantsModel ← v.participantsModel.setParticipants names leader
  .ok { v with participantsModel }

/-- `setLeader`. -/
def setLeader (v : View) (newLeader : Bytes) : Except Thrown View := do
  let participantsModel ← v.participantsModel.setLeader newLeader
  .ok { v with participantsModel }

/-- A leader is set among the names listed. -/
theorem setLeader_ok {v v' : View} {newLeader : Bytes} (h : v.setLeader newLeader = .ok v') :
    v' = { v with participantsModel :=
      { v.participantsModel with leader := some newLeader } } := by
  unfold setLeader ParticipantListModel.setLeader at h
  split at h
  · exact (Except.ok.inj h).symm
  · cases h

/-- `initAsLeader`. -/
def initAsLeader (v : View) (nickname : Bytes) : Except Thrown View :=
  (v.addParticipant nickname).setLeader nickname

/-- `makeInactive`. -/
def makeInactive (v : View) : View := { v with chatEntryEnabled := false }

end View

/-! ## The list shown -/

namespace ParticipantListModel

/-- The model shows these names and marks this one as the leader: its set and its list hold the
same names, and the list is sorted and without repetitions. -/
structure Shows (m : ParticipantListModel) (names : Finset Bytes) (leader : Option Bytes) :
    Prop where
  participants : m.participants = names
  sorted : m.sortedParticipants.Pairwise Before
  nodup : m.sortedParticipants.Nodup
  mem_sorted : ∀ n, n ∈ m.sortedParticipants ↔ n ∈ names
  leader : m.leader = leader

theorem addParticipant_ownNickname (m : ParticipantListModel) (n : Bytes) :
    (m.addParticipant n).ownNickname = m.ownNickname := by
  unfold addParticipant
  split
  · rfl
  · rfl

theorem removeParticipant_ownNickname (m : ParticipantListModel) (n : Bytes) :
    (m.removeParticipant n).ownNickname = m.ownNickname := by
  unfold removeParticipant
  split
  · rfl
  · rfl

section Shows

variable {m : ParticipantListModel} {names : Finset Bytes} {leader : Option Bytes}

theorem mem_sort {l : List Bytes} {n : Bytes} : n ∈ sort l ↔ n ∈ l := List.mem_insertionSort Before

theorem nodup_sort {l : List Bytes} (h : l.Nodup) : (sort l).Nodup :=
  (List.perm_insertionSort Before l).nodup_iff.2 h

theorem Shows.addParticipant (h : m.Shows names leader) (n : Bytes) :
    (m.addParticipant n).Shows (insert n names) leader := by
  unfold ParticipantListModel.addParticipant
  rw [h.participants]
  split
  · next hn =>
    rw [Finset.insert_eq_of_mem hn]
    exact h
  · next hn =>
    refine ⟨rfl, List.pairwise_insertionSort Before _, nodup_sort ?_, fun a => ?_, h.leader⟩
    · rw [List.nodup_append]
      refine ⟨h.nodup, List.nodup_singleton n, fun a ha b hb => ?_⟩
      rw [List.mem_singleton.1 hb]
      rintro rfl
      exact hn ((h.mem_sorted a).1 ha)
    · simp only [mem_sort, List.mem_append, h.mem_sorted, List.mem_singleton, Finset.mem_insert]
      exact or_comm

theorem Shows.removeParticipant (h : m.Shows names leader) {n : Bytes} (hn : n ∈ names)
    (hl : leader ≠ some n) : (m.removeParticipant n).Shows (names.erase n) leader := by
  unfold ParticipantListModel.removeParticipant
  rw [h.participants, if_pos hn, h.leader, if_neg hl]
  refine ⟨rfl, h.sorted.sublist List.erase_sublist, h.nodup.erase n, fun a => ?_, rfl⟩
  rw [h.nodup.mem_erase_iff, h.mem_sorted, Finset.mem_erase]

theorem Shows.setLeader (h : m.Shows names leader) {n : Bytes} (hn : n ∈ names) :
    m.setLeader n = .ok { m with leader := some n } ∧
      ({ m with leader := some n } : ParticipantListModel).Shows names (some n) := by
  refine ⟨?_, h.participants, h.sorted, h.nodup, h.mem_sorted, rfl⟩
  rw [ParticipantListModel.setLeader, h.participants, if_pos hn]

end Shows

end ParticipantListModel

end Dchat.Gui
