import Dchat.Foundations.Runs
import Dchat.Gui.ChatSource

/-!
# The list model under any calls

`ModelCall` lists the calls that change a `ParticipantListModel`, and `call` keeps the model that a
call leaves behind when it throws: `setParticipants` replaces the set of the participants before it
looks for the leader in it, and the list and the leader only afterwards.

* `Consistent` is the invariant of the model; `call_accepted` and `call_rejected` say what one call
  does to it.
* `correct_iff_accepted`: a sequence of calls keeps the invariant, and leaves the model as it was
  whenever it throws, exactly if each `setParticipants` names its leader or names the participants
  already there.
* `not_correct`: an empty list of participants is enough to break it.
-/

namespace Dchat.Gui

open CString Java Runs

/-- The calls that change a `ParticipantListModel`. `none` is `null`; the names that are added are
parts of a line or the nickname of the user. -/
inductive ModelCall
  | setParticipants (participantsList : List Bytes) (leader : Option Bytes)
  | addParticipant (participant : Bytes)
  | removeParticipant (participant : Option Bytes)
  | setLeader (newLeader : Option Bytes)
  deriving DecidableEq

namespace ParticipantListModel

/-- `new ParticipantListModel(initialParticipants, leader)`, followed by `setOwnNickname`. -/
def construct (initialParticipants : List Bytes) (leader : Option Bytes) (ownNickname : Bytes) :
    Except Thrown ParticipantListModel :=
  let participants := initialParticipants.toFinset
  if leader.any (· ∉ participants) then .error .illegalArgument
  else .ok { participants, leader, sortedParticipants := sort initialParticipants, ownNickname }

/-- A call: the model afterwards, also where the call throws, and what it throws. -/
def call (m : ParticipantListModel) : ModelCall → ParticipantListModel × Option Thrown
  | .setParticipants participantsList leader =>
    match m.setParticipants participantsList leader with
    | .ok m' => (m', none)
    | .error thrown => ({ m with participants := participantsList.toFinset }, some thrown)
  | .addParticipant participant => (m.addParticipant participant, none)
  | .removeParticipant none => (m, none)
  | .removeParticipant (some participant) => (m.removeParticipant participant, none)
  | .setLeader none => (m, some .illegalArgument)
  | .setLeader (some newLeader) =>
    match m.setLeader newLeader with
    | .ok m' => (m', none)
    | .error thrown => (m, some thrown)

/-- The model after a sequence of calls, each made whatever the ones before it have thrown. -/
def after (m : ParticipantListModel) (calls : List ModelCall) : ParticipantListModel :=
  calls.foldl (fun m c => (m.call c).1) m

/-! ## The invariant -/

/-- The list is the sorted listing of the set, and the leader is one of the participants. -/
structure Consistent (m : ParticipantListModel) : Prop where
  listing : m.Shows m.participants m.leader
  leader_mem : ∀ l, m.leader = some l → l ∈ m.participants

/-- A call keeps the invariant, and leaves the participants, the list and the leader as they were if
it throws. -/
structure Correct (m : ParticipantListModel) (c : ModelCall) : Prop where
  consistent : (m.call c).1.Consistent
  unchanged : (m.call c).2 ≠ none → (m.call c).1.participants = m.participants ∧
    (m.call c).1.sortedParticipants = m.sortedParticipants ∧ (m.call c).1.leader = m.leader

/-- `setParticipants` names its leader, or else names the participants that are there already. -/
def Accepted (m : ParticipantListModel) : ModelCall → Prop
  | .setParticipants participantsList leader =>
    leader.any (· ∈ participantsList) ∨ participantsList.toFinset = m.participants
  | _ => True

/-! ## One call -/

section OneCall

variable {m : ParticipantListModel}

theorem Consistent.addParticipant (h : m.Consistent) (n : Bytes) :
    (m.addParticipant n).Consistent := by
  have hshows := h.listing.addParticipant n
  refine ⟨?_, fun l hl => ?_⟩
  · rw [hshows.participants, hshows.leader]
    exact hshows
  · rw [hshows.leader] at hl
    rw [hshows.participants]
    exact Finset.mem_insert_of_mem (h.leader_mem l hl)

/-- The leader is forgotten with its name. -/
theorem Consistent.removeParticipant (h : m.Consistent) (n : Bytes) :
    (m.removeParticipant n).Consistent := by
  by_cases hn : n ∈ m.participants
  · rw [ParticipantListModel.removeParticipant, if_pos hn]
    refine ⟨⟨rfl, h.listing.sorted.sublist List.erase_sublist, h.listing.nodup.erase n,
      fun a => ?_, rfl⟩, fun l hl => ?_⟩
    · rw [h.listing.nodup.mem_erase_iff, h.listing.mem_sorted, Finset.mem_erase]
    · dsimp only at hl ⊢
      split at hl
      · cases hl
      · next hne =>
        refine Finset.mem_erase.2 ⟨?_, h.leader_mem l hl⟩
        rintro rfl
        exact hne hl
  · rwa [ParticipantListModel.removeParticipant, if_neg hn]

theorem Consistent.setLeader (h : m.Consistent) {n : Bytes} (hn : n ∈ m.participants) :
    ({ m with leader := some n } : ParticipantListModel).Consistent :=
  ⟨(h.listing.setLeader hn).2, fun _ hl => Option.some.inj hl ▸ hn⟩

/-- The set, the list and the leader are all new. -/
theorem consistent_setParticipants (m : ParticipantListModel) {names : List Bytes}
    {leader : Option Bytes} (h : leader.any (· ∈ names)) :
    ({ m with
      participants := names.toFinset
      leader := leader
      sortedParticipants := sort names.dedup } : ParticipantListModel).Consistent := by
  refine ⟨⟨rfl, List.pairwise_insertionSort Before _, nodup_sort (List.nodup_dedup names),
    fun a => ?_, rfl⟩, ?_⟩
  · rw [mem_sort, List.mem_dedup, List.mem_toFinset]
  · rintro l rfl
    exact List.mem_toFinset.2 (of_decide_eq_true h)

/-- What `setParticipants` leaves behind. -/
theorem call_setParticipants (m : ParticipantListModel) (names : List Bytes)
    (leader : Option Bytes) : m.call (.setParticipants names leader) =
      if leader.any (· ∈ names) then
        ({ m with
          participants := names.toFinset
          leader := leader
          sortedParticipants := sort names.dedup }, none)
      else ({ m with participants := names.toFinset }, some .illegalArgument) := by
  by_cases h : leader.any (· ∈ names)
  · simp only [call, ParticipantListModel.setParticipants, List.mem_toFinset, if_pos h]
  · simp only [call, ParticipantListModel.setParticipants, List.mem_toFinset, if_neg h]

theorem call_accepted (h : m.Consistent) {c : ModelCall} (hc : m.Accepted c) : m.Correct c := by
  cases c with
  | setParticipants names leader =>
    by_cases hany : leader.any (· ∈ names)
    · have hcall := call_setParticipants m names leader
      rw [if_pos hany] at hcall
      refine ⟨?_, ?_⟩
      · rw [hcall]
        exact consistent_setParticipants m hany
      · rw [hcall]
        exact fun hne => absurd rfl hne
    · -- the set is replaced by itself
      have hsame : names.toFinset = m.participants := hc.resolve_left hany
      have hcall : m.call (.setParticipants names leader) = (m, some .illegalArgument) := by
        rw [call_setParticipants, if_neg hany, hsame]
      refine ⟨?_, ?_⟩
      · rw [hcall]
        exact h
      · rw [hcall]
        exact fun _ => ⟨rfl, rfl, rfl⟩
  | addParticipant n => exact ⟨h.addParticipant n, fun hne => absurd rfl hne⟩
  | removeParticipant n =>
    cases n with
    | none => exact ⟨h, fun hne => absurd rfl hne⟩
    | some n => exact ⟨h.removeParticipant n, fun hne => absurd rfl hne⟩
  | setLeader n =>
    cases n with
    | none => exact ⟨h, fun _ => ⟨rfl, rfl, rfl⟩⟩
    | some n =>
      by_cases hn : n ∈ m.participants
      · have hcall : m.call (.setLeader (some n)) = ({ m with leader := some n }, none) := by
          rw [call, (h.listing.setLeader hn).1]
        refine ⟨?_, ?_⟩
        · rw [hcall]
          exact h.setLeader hn
        · rw [hcall]
          exact fun hne => absurd rfl hne
      · have hcall : m.call (.setLeader (some n)) = (m, some .illegalArgument) := by
          rw [call, ParticipantListModel.setLeader, if_neg hn]
        refine ⟨?_, ?_⟩
        · rw [hcall]
          exact h
        · rw [hcall]
          exact fun _ => ⟨rfl, rfl, rfl⟩

/-- A rejected list has replaced the participants. -/
theorem call_rejected {c : ModelCall} (hc : ¬ m.Accepted c) : ¬ m.Correct c := by
  cases c with
  | setParticipants names leader =>
    obtain ⟨hany, hne⟩ := not_or.1 hc
    have hcall := call_setParticipants m names leader
    rw [if_neg hany] at hcall
    intro h
    have hthrows : (m.call (.setParticipants names leader)).2 ≠ none := by
      rw [hcall]
      exact Option.some_ne_none _
    have hsame := (h.unchanged hthrows).1
    rw [hcall] at hsame
    exact hne hsame
  | addParticipant n => exact absurd trivial hc
  | removeParticipant n => exact absurd trivial hc
  | setLeader n => exact absurd trivial hc

end OneCall

/-! ## Every sequence of calls -/

section Calls

variable {m : ParticipantListModel} {own : Bytes} {ok : ParticipantListModel → ModelCall → Prop}

theorem after_concat (m : ParticipantListModel) (calls : List ModelCall) (c : ModelCall) :
    m.after (calls ++ [c]) = ((m.after calls).call c).1 := by
  rw [after, after, List.foldl_append, List.foldl_cons, List.foldl_nil]

/-- A sequence of calls is a run. -/
theorem reach_after {calls : List ModelCall}
    (h : ∀ pre c, pre ++ [c] <+: calls → ok (m.after pre) c) :
    Reach (fun m c => some (call m c).1) ok (· = m) (m.after calls) := by
  induction calls using List.reverseRecOn with
  | nil => exact .start rfl
  | append_singleton calls c ih =>
    rw [after_concat]
    exact (ih fun pre c' hpre => h pre c' (hpre.trans (List.prefix_append ..))).next
      (h calls c List.prefix_rfl) rfl

/-- A model built from an empty list. -/
theorem consistent_construct {leader : Option Bytes} (h : construct [] leader own = .ok m) :
    m.Consistent := by
  unfold construct at h
  dsimp only at h
  split at h
  · cases h
  · next hleader =>
    obtain rfl := Except.ok.inj h
    refine ⟨⟨rfl, List.Pairwise.nil, List.nodup_nil, fun a => ?_, rfl⟩, ?_⟩
    · exact iff_of_false List.not_mem_nil (Finset.notMem_empty a)
    · rintro l hl
      dsimp only at hl
      subst hl
      simp at hleader

/-- The invariant holds along a run of calls that keep it. -/
theorem consistent_after {leader : Option Bytes} (hm : construct [] leader own = .ok m)
    (hok : ∀ m c, Consistent m → ok m c → (call m c).1.Consistent) {calls : List ModelCall}
    (h : ∀ pre c, pre ++ [c] <+: calls → ok (m.after pre) c) : (m.after calls).Consistent := by
  refine (reach_after h).invariant (fun m' hm' => ?_) (fun s c s' hs hc hstep => ?_)
  · obtain rfl := hm'
    exact consistent_construct hm
  · obtain rfl := Option.some.inj hstep
    exact hok s c hs hc

/-- **The invariant of the list model**: every call of a sequence is correct exactly if every
call is accepted. -/
theorem correct_iff_accepted {leader : Option Bytes} (hm : construct [] leader own = .ok m)
    (calls : List ModelCall) :
    (∀ pre c, pre ++ [c] <+: calls → (m.after pre).Correct c) ↔
      ∀ pre c, pre ++ [c] <+: calls → (m.after pre).Accepted c := by
  constructor
  · intro h pre c hpre
    by_contra hc
    exact call_rejected hc (h pre c hpre)
  · intro h pre c hpre
    refine call_accepted (consistent_after hm (fun m c hm hc => (call_accepted hm hc).consistent)
      fun pre' c' hpre' => ?_) (h pre c hpre)
    exact h pre' c' (hpre'.trans ((List.prefix_append pre [c]).trans hpre))

end Calls

/-- Two names, one of which becomes the leader, and a new list. -/
theorem correct_iff_accepted_newList :
    (∀ pre c, pre ++ [c] <+: [.addParticipant (str "ann"), .addParticipant (str "bob"),
      .setLeader (some (str "bob")), .setParticipants [str "cy", str "ann"] (some (str "cy"))] →
      (after ⟨∅, [], none, str "me"⟩ pre).Correct c) ↔
    ∀ pre c, pre ++ [c] <+: [.addParticipant (str "ann"), .addParticipant (str "bob"),
      .setLeader (some (str "bob")), .setParticipants [str "cy", str "ann"] (some (str "cy"))] →
      (after ⟨∅, [], none, str "me"⟩ pre).Accepted c :=
  have hm : construct [] none (str "me") = .ok ⟨∅, [], none, str "me"⟩ := by decide
  correct_iff_accepted hm _

/-- **An empty list breaks the model**: one participant, and a list without a leader. The set is
empty afterwards, and the list still shows the participant. -/
theorem not_correct : ¬ ∀ (leader : Option Bytes) (own : Bytes) (m : ParticipantListModel)
    (calls : List ModelCall), construct [] leader own = .ok m →
      ∀ pre c, pre ++ [c] <+: calls → (m.after pre).Correct c := by
  intro h
  have hm : construct [] none (str "me") = .ok ⟨∅, [], none, str "me"⟩ := by decide
  refine call_rejected (m := after ⟨∅, [], none, str "me"⟩ [.addParticipant (str "ann")])
    (c := .setParticipants [] none) ?_ (h none (str "me") _ _ hm _ _ List.prefix_rfl)
  rintro (hany | hsame)
  · cases hany
  · exact absurd hsame (by decide)

end ParticipantListModel

/-- `ChatSource` makes this call when no participant follows the line that announces them. -/
theorem interpretInput_noParticipants (v : View) :
    interpretInput v (str "Succeeded, current users:\n\n") = .error .illegalArgument := by
  have hline : readLine (str "Succeeded, current users:\n\n") =
      some (str "Succeeded, current users:", [10]) := by decide
  have hlist : readParticipants (([10] : Bytes).length + 1) [10] [] none
      (str "Succeeded, current users:" ++ [10]) =
      some ([], none, str "Succeeded, current users:" ++ [10], []) := by decide
  rw [interpretInput, hline]
  dsimp only
  rw [if_pos rfl, hlist]
  rfl

end Dchat.Gui
