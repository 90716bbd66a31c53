import Dchat.Chat.Session

/-!
# What of a broadcast arrives

`broadcasts` reads off a log of calls of `RMP_sendTo` which messages were sent to a whole list, one
pass after the other. If the messages whose sending succeeds arrive (`Weather.Honest`), then each
address is reached by a first part of these messages, and by all of them if it is in the list that
is left (`Broadcast.arrivals`). The last of the messages is then a PARTICIPANT_UPDATE of that list,
or the list is the same as before (`Broadcast.latest`).
-/

namespace Dchat.Chat

open CString Stdio RMP Links

/-! ## Broadcasts in a log -/

/-- The messages of a log of calls of `RMP_sendTo`, by passes: a call belongs to the pass before it
if it sends its message to another destination. -/
def broadcasts : Option (Bytes × List RmpAddress) → List Sent → List Bytes
  | _, [] => []
  | none, e :: es => e.message :: broadcasts (some (e.message, [e.dst])) es
  | some (message, dsts), e :: es =>
    if e.message = message ∧ e.dst ∉ dsts then broadcasts (some (message, e.dst :: dsts)) es
    else e.message :: broadcasts (some (e.message, [e.dst])) es

/-- A call to a destination of the pass starts the next one. -/
theorem broadcasts_next {message : Bytes} {dsts : List RmpAddress} {es : List Sent}
    (h : ∀ e ∈ es.head?, e.dst ∈ dsts) :
    broadcasts (some (message, dsts)) es = broadcasts none es := by
  cases es with
  | nil => rfl
  | cons e es => rw [broadcasts, broadcasts, if_neg fun hnew => hnew.2 (h e rfl)]

theorem broadcasts_same {message : Bytes} {dsts : List RmpAddress} {es es' : List Sent}
    (hmessage : ∀ e ∈ es, e.message = message) (hnd : (es.map Sent.dst).Nodup)
    (hnew : ∀ e ∈ es, e.dst ∉ dsts) :
    broadcasts (some (message, dsts)) (es ++ es') =
      broadcasts (some (message, (es.map Sent.dst).reverse ++ dsts)) es' := by
  induction es generalizing dsts with
  | nil => rfl
  | cons e es ih =>
    obtain ⟨hfresh, hnd⟩ := List.nodup_cons.1 hnd
    rw [List.cons_append, broadcasts, if_pos ⟨hmessage e (by simp), hnew e (by simp)⟩,
      ih (fun x hx => hmessage x (.tail _ hx)) hnd]
    · simp
    · intro x hx hmem
      obtain heq | hmem := List.mem_cons.1 hmem
      · exact hfresh (heq ▸ List.mem_map_of_mem hx)
      · exact hnew x (.tail _ hx) hmem

/-- **A pass and what follows it**, to some of the same destinations. -/
theorem broadcasts_pass {message : Bytes} {es es' : List Sent} (hne : es ≠ [])
    (hmessage : ∀ e ∈ es, e.message = message) (hnd : (es.map Sent.dst).Nodup)
    (hnext : ∀ e ∈ es', e.dst ∈ es.map Sent.dst) :
    broadcasts none (es ++ es') = message :: broadcasts none es' := by
  cases es with
  | nil => exact absurd rfl hne
  | cons e es =>
    have hfirst : e.message = message := hmessage e (by simp)
    obtain ⟨hfresh, hnd⟩ := List.nodup_cons.1 hnd
    rw [List.cons_append, broadcasts, hfirst,
      broadcasts_same (fun x hx => hmessage x (.tail _ hx)) hnd, broadcasts_next]
    · intro x hx
      have hmem := hnext x (List.mem_of_mem_head? hx)
      simp only [List.map_cons, List.mem_cons, List.mem_append, List.mem_reverse] at hmem ⊢
      tauto
    · intro x hx hmem
      exact hfresh (List.mem_singleton.1 hmem ▸ List.mem_map_of_mem hx)

/-! ## Arrivals -/

/-- What is sent without an error arrives. -/
def Weather.Honest (weather : Weather) : Prop :=
  ∀ k dst message, 0 ≤ weather.sendTo k dst message → weather.arrives k dst = true

/-- The calls of a log that starts at the `n`-th call have the results of the weather. -/
def Answered (weather : Weather) (n : ℕ) (es : List Sent) : Prop :=
  ∀ x ∈ es.zipIdx n, x.1.result = weather.sendTo x.2 x.1.dst x.1.message

/-- The messages of a log that starts at the `n`-th call that arrive at `a`. -/
def arrived (weather : Weather) (a : RmpAddress) (n : ℕ) (es : List Sent) : List Bytes :=
  ((es.zipIdx n).filter fun x => x.1.dst = a ∧ weather.arrives x.2 x.1.dst).map fun x => x.1.message

section Calls

variable {weather : Weather} {a : RmpAddress} {n : ℕ} {e : Sent} {es es' : List Sent}

theorem answered_append : Answered weather n (es ++ es') ↔
    Answered weather n es ∧ Answered weather (n + es.length) es' := by
  simp only [Answered, List.zipIdx_append, List.forall_mem_append]

theorem answered_cons : Answered weather n (e :: es) ↔
    e.result = weather.sendTo n e.dst e.message ∧ Answered weather (n + 1) es := by
  simp only [Answered, List.zipIdx_cons, List.forall_mem_cons]

theorem arrived_append : arrived weather a n (es ++ es') =
    arrived weather a n es ++ arrived weather a (n + es.length) es' := by
  simp only [arrived, List.zipIdx_append, List.filter_append, List.map_append]

theorem arrived_cons : arrived weather a n (e :: es) =
    if e.dst = a ∧ weather.arrives n e.dst then e.message :: arrived weather a (n + 1) es
    else arrived weather a (n + 1) es := by
  unfold arrived
  rw [List.zipIdx_cons, List.filter_cons]
  by_cases h : e.dst = a ∧ weather.arrives n e.dst
  · rw [if_pos h, if_pos (decide_eq_true h), List.map_cons]
  · rw [if_neg h, if_neg (by simpa using h)]

/-- Nothing arrives where nothing is sent. -/
theorem arrived_eq_nil (h : a ∉ es.map Sent.dst) : arrived weather a n es = [] := by
  induction es generalizing n with
  | nil => rfl
  | cons e es ih =>
    obtain ⟨hne, hmem⟩ := not_or.1 (mt List.mem_cons.2 h)
    rw [arrived_cons, if_neg fun heq => hne heq.1.symm, ih hmem]

/-- **A pass** brings its message to an address at most once, and once if the call returned without
an error. -/
theorem arrived_pass {message : Bytes} (hhonest : weather.Honest)
    (hmessage : ∀ e ∈ es, e.message = message) (hnd : (es.map Sent.dst).Nodup)
    (hanswered : Answered weather n es) : arrived weather a n es <+: [message] ∧
      ((∃ e ∈ es, e.dst = a ∧ 0 ≤ e.result) → arrived weather a n es = [message]) := by
  induction es generalizing n with
  | nil => exact ⟨List.nil_prefix, fun ⟨e, he, _⟩ => by cases he⟩
  | cons e es ih =>
    obtain ⟨hfresh, hnd⟩ := List.nodup_cons.1 hnd
    obtain ⟨hresult, hanswered⟩ := answered_cons.1 hanswered
    obtain ⟨hfirst, hrest⟩ := List.forall_mem_cons.1 hmessage
    rw [arrived_cons]
    by_cases ha : e.dst = a
    · have hnone : arrived weather a (n + 1) es = [] := arrived_eq_nil (ha ▸ hfresh)
      rw [hnone, hfirst]
      refine ⟨by split <;> simp, ?_⟩
      rintro ⟨x, hx, hxa, hok⟩
      obtain rfl | hx := List.mem_cons.1 hx
      · rw [if_pos ⟨ha, hhonest _ _ _ (hresult ▸ hok)⟩]
      · exact absurd (List.mem_map_of_mem hx) (hxa.trans ha.symm ▸ hfresh)
    · rw [if_neg fun h => ha h.1]
      obtain ⟨hbegins, hwhole⟩ := ih hrest hnd hanswered
      refine ⟨hbegins, ?_⟩
      rintro ⟨x, hx, hxa, hok⟩
      obtain rfl | hx := List.mem_cons.1 hx
      · exact absurd hxa ha
      · exact hwhole ⟨x, hx, hxa, hok⟩

end Calls

/-! ## The calls of a broadcast -/

section Results

variable {resolve : Bytes → Bytes → Option RmpAddress} {weather : Weather} {s s' : Node}

theorem answered_rmpSendTo (h : Answered weather 0 s.sent) (dst : RmpAddress) (message : Bytes) :
    Answered weather 0 (s.rmpSendTo (Session.env resolve weather) dst message).2.sent := by
  refine answered_append.2 ⟨h, answered_cons.2 ⟨?_, fun x hx => by cases hx⟩⟩
  rw [Nat.zero_add]
  rfl

theorem answered_broadcastLoop {message : Bytes} {ps : List Participant} {d d' : Departures}
    (h : Answered weather 0 s.sent)
    (hloop : broadcastLoop (Session.env resolve weather) message ps d s = .ok (d', s')) :
    Answered weather 0 s'.sent := by
  induction ps generalizing d s with
  | nil =>
    obtain ⟨rfl, rfl⟩ := Prod.mk.inj (Except.ok.inj hloop)
    exact h
  | cons p ps ih =>
    rw [broadcastLoop] at hloop
    split at hloop
    · exact ih h hloop
    split at hloop
    · cases hloop
    next addr _ =>
    dsimp only at hloop
    split at hloop
    · obtain ⟨c, -, hloop⟩ := Fault.bind_eq_ok.1 hloop
      have hremoved : Answered weather 0
          ((s.rmpSendTo (Session.env resolve weather) addr message).2.tailqRemove
            p.ptr).decrNumParticipants.sent := answered_rmpSendTo h addr message
      exact ih hremoved hloop
    · exact ih (answered_rmpSendTo h addr message) hloop

/-- The results of the calls of a broadcast are those of the weather. -/
theorem answered_of_fuel {fuel : ℕ} {message : Bytes} (h : Answered weather 0 s.sent)
    (hrun : leaderBroadcastMessageFuel (Session.env resolve weather) fuel s message = .ok s') :
    Answered weather 0 s'.sent := by
  induction fuel generalizing s s' message with
  | zero => cases hrun
  | succ fuel ih =>
    rw [leaderBroadcastMessageFuel] at hrun
    obtain ⟨⟨d, s₁⟩, hloop, hrun⟩ := Fault.bind_eq_ok.1 hrun
    have h₁ := answered_broadcastLoop h hloop
    dsimp only at hrun
    split at hrun
    · split at hrun
      · cases hrun
      obtain ⟨update, -, hrun⟩ := Fault.bind_eq_ok.1 hrun
      obtain ⟨s₂, hrec, hrun⟩ := Fault.bind_eq_ok.1 hrun
      obtain rfl := Except.ok.inj hrun
      have h₂ : Answered weather 0 s₂.sent := ih h₁ hrec
      exact h₂
    · obtain rfl := Except.ok.inj hrun
      exact h₁

end Results

/-- The addresses that a leader sends to. -/
def audience (resolve : Bytes → Bytes → Option RmpAddress) (s : Node) : List RmpAddress :=
  (others s.participants).filterMap fun p => resolve p.ipAddress p.portNum

section Passes

variable {resolve : Bytes → Bytes → Option RmpAddress} {weather : Weather} {s s' : Node}
  {message : Bytes} {t : List Attempt} {n : ℕ}

theorem audience_sublist (h : s'.participants.Sublist s.participants) :
    (audience resolve s').Sublist (audience resolve s) := (h.filter _).filterMap _

theorem Passed.audience
    (h : Passed (Session.env resolve weather) message s.participants s t s') :
    (t.map Attempt.sent).map Sent.dst = audience resolve s := by
  rw [Chat.audience, ← h.recipients, List.filterMap_map, List.map_map]
  symm
  have hdst : ∀ x ∈ t, ((fun p : Participant => resolve p.ipAddress p.portNum) ∘ Attempt.recipient) x =
      some ((Sent.dst ∘ Attempt.sent) x) := fun x hx => (h.addressed x hx).2
  rw [List.filterMap_congr hdst, List.filterMap_eq_map']

theorem Passed.messages (h : Passed (Session.env resolve weather) message s.participants s t s') :
    ∀ e ∈ t.map Attempt.sent, e.message = message := by
  intro e he
  obtain ⟨x, hx, rfl⟩ := List.mem_map.1 he
  exact (h.addressed x hx).1

/-- The attempt for an address that is left in the list was successful. -/
theorem Passed.succeeded {a : RmpAddress}
    (h : Passed (Session.env resolve weather) message s.participants s t s')
    (ha : a ∈ Chat.audience resolve s') :
    ∃ e ∈ t.map Attempt.sent, e.dst = a ∧ 0 ≤ e.result := by
  obtain ⟨p, hp, haddr⟩ := List.mem_filterMap.1 ha
  obtain ⟨hp, hflag⟩ := mem_others.1 hp
  rw [h.participants] at hp
  obtain ⟨hp, hkept⟩ := List.mem_filter.1 hp
  have hrec : p ∈ t.map Attempt.recipient := h.recipients ▸ mem_others.2 ⟨hp, hflag⟩
  obtain ⟨x, hx, rfl⟩ := List.mem_map.1 hrec
  refine ⟨x.sent, List.mem_map_of_mem hx, ?_, ?_⟩
  · exact Option.some.inj ((h.addressed x hx).2.symm.trans haddr)
  · by_contra hfail
    refine of_decide_eq_true hkept (List.mem_map_of_mem (List.mem_map_of_mem ?_))
    exact List.mem_filter.2 ⟨hx, by simpa using hfail⟩

/-- What arrives of a pass. -/
theorem Passed.arrivals (h : Passed (Session.env resolve weather) message s.participants s t s')
    (hhonest : weather.Honest) (hnd : (Chat.audience resolve s).Nodup)
    (hanswered : Answered weather n (t.map Attempt.sent)) (a : RmpAddress) :
    arrived weather a n (t.map Attempt.sent) <+: [message] ∧
      (a ∈ Chat.audience resolve s' → arrived weather a n (t.map Attempt.sent) = [message]) ∧
      (a ∉ Chat.audience resolve s → arrived weather a n (t.map Attempt.sent) = []) := by
  obtain ⟨hfirst, hwhole⟩ := arrived_pass (a := a) hhonest h.messages (h.audience ▸ hnd) hanswered
  exact ⟨hfirst, fun ha => hwhole (h.succeeded ha), fun ha => arrived_eq_nil (h.audience ▸ ha)⟩

/-- A pass to somebody, and what follows it. -/
theorem Passed.broadcasts_append
    (h : Passed (Session.env resolve weather) message s.participants s t s')
    (hnd : (Chat.audience resolve s).Nodup) (hne : t ≠ []) {es : List Sent}
    (hnext : ∀ e ∈ es, e.dst ∈ Chat.audience resolve s) :
    broadcasts none (t.map Attempt.sent ++ es) = message :: broadcasts none es := by
  refine broadcasts_pass (by simpa using hne) h.messages (h.audience ▸ hnd) fun e he => ?_
  rw [h.audience]
  exact hnext e he

theorem Passed.broadcasts_eq (h : Passed (Session.env resolve weather) message s.participants s t s')
    (hnd : (Chat.audience resolve s).Nodup) (hne : t ≠ []) :
    broadcasts none (t.map Attempt.sent) = [message] := by
  have hms := h.broadcasts_append hnd hne (List.forall_mem_nil _)
  rw [List.append_nil] at hms
  exact hms

theorem Broadcast.destinations (h : Broadcast (Session.env resolve weather) s message t s') :
    ∀ e ∈ t.map Attempt.sent, e.dst ∈ audience resolve s := by
  intro e he
  obtain ⟨x, hx, rfl⟩ := List.mem_map.1 he
  obtain ⟨hrec, haddr⟩ := h.addressed x hx
  exact List.mem_filterMap.2 ⟨x.recipient, hrec, haddr⟩

/-- **What arrives of a broadcast** at an address is a first part of the messages of its passes, all
of them if the address is left in the list, and none if it was not in it. -/
theorem Broadcast.arrivals (h : Broadcast (Session.env resolve weather) s message t s')
    (hhonest : weather.Honest) (hnd : (audience resolve s).Nodup)
    (hanswered : Answered weather n (t.map Attempt.sent)) (a : RmpAddress) :
    arrived weather a n (t.map Attempt.sent) <+: broadcasts none (t.map Attempt.sent) ∧
      (a ∈ audience resolve s' →
        arrived weather a n (t.map Attempt.sent) = broadcasts none (t.map Attempt.sent)) ∧
      (a ∉ audience resolve s → arrived weather a n (t.map Attempt.sent) = []) := by
  induction h generalizing n with
  | @done s s' message t hpass hlost =>
    by_cases hne : t = []
    · rw [hne]
      exact ⟨List.prefix_rfl, fun _ => rfl, fun _ => rfl⟩
    · rw [hpass.broadcasts_eq hnd hne]
      exact hpass.arrivals hhonest hnd hanswered a
  | @again s s₁ s₂ message leave update t t' hpass hlost hgen hrec ih =>
    have hne : t ≠ [] := by
      rintro rfl
      exact hlost rfl
    have hsub : (audience resolve s₁).Sublist (audience resolve s) := audience_sublist hpass.sublist
    have hnext : ∀ e ∈ t'.map Attempt.sent, e.dst ∈ audience resolve s :=
      fun e he => hsub.subset (hrec.destinations e he)
    rw [List.map_append] at hanswered ⊢
    obtain ⟨hanswered₁, hanswered₂⟩ := answered_append.1 hanswered
    obtain ⟨hfirst, hwhole, hnone⟩ := hpass.arrivals hhonest hnd hanswered₁ a
    obtain ⟨hfirst', hwhole', hnone'⟩ := ih (hsub.nodup hnd) hanswered₂
    rw [arrived_append, hpass.broadcasts_append hnd hne hnext]
    by_cases ha : a ∈ audience resolve s₁
    · rw [hwhole ha, List.singleton_append]
      refine ⟨List.cons_prefix_cons.2 ⟨rfl, hfirst'⟩, fun hleft => ?_, fun hout => ?_⟩
      · rw [hwhole' hleft]
      · exact absurd (hsub.subset ha) hout
    · rw [hnone' ha, List.append_nil]
      refine ⟨hfirst.trans (List.prefix_append [message] _), fun hleft => ?_, hnone⟩
      exact absurd ((audience_sublist hrec.sublist).subset hleft) ha

/-- **The messages of a broadcast** that leaves somebody in the list: the message, and then
PARTICIPANT_UPDATEs, the last of the list that is left. -/
theorem Broadcast.latest (h : Broadcast (Session.env resolve weather) s message t s')
    (hnd : (audience resolve s).Nodup) (hleft : audience resolve s' ≠ []) :
    ∃ updates, broadcasts none (t.map Attempt.sent) = message :: updates ∧
      (∀ m ∈ updates, ∃ leader ps notice, m = updateText leader ps notice) ∧
      (updates = [] ∧ s'.participants = s.participants ∨
        ∃ leader notice, s.leader = some leader ∧
          updates.getLast? = some (updateText leader s'.participants notice)) := by
  induction h with
  | @done s s' message t hpass hlost =>
    have hparticipants : s'.participants = s.participants := by
      rw [hpass.participants, hlost]
      simp
    have hne : t ≠ [] := by
      rintro rfl
      have hdst := hpass.audience
      rw [Chat.audience, ← hparticipants] at hdst
      exact hleft hdst.symm
    exact ⟨[], hpass.broadcasts_eq hnd hne, by simp, .inl ⟨rfl, hparticipants⟩⟩
  | @again s s₁ s₂ message leave update t t' hpass hlost hgen hrec ih =>
    have hne : t ≠ [] := by
      rintro rfl
      exact hlost rfl
    have hsub : (audience resolve s₁).Sublist (audience resolve s) := audience_sublist hpass.sublist
    obtain ⟨updates, hms, hupdates, hlast⟩ := ih (hsub.nodup hnd) hleft
    obtain ⟨leader, hleader, rfl⟩ := leader_of_generate hgen (by decide)
    have hleader₀ : s.leader = some leader := hpass.same.leader ▸ hleader
    refine ⟨_, by rw [List.map_append, hpass.broadcasts_append hnd hne fun e he =>
      hsub.subset (hrec.destinations e he)], ?_, .inr ?_⟩
    · rw [hms]
      exact List.forall_mem_cons.2 ⟨⟨leader, _, _, rfl⟩, hupdates⟩
    · rw [hms]
      obtain ⟨rfl, hps⟩ | ⟨leader', notice, hleader', hlast⟩ := hlast
      · refine ⟨leader, leave, hleader₀, ?_⟩
        rw [List.getLast?_singleton, ← hps]
        rfl
      · refine ⟨leader', notice, ?_, ?_⟩
        · rw [← hpass.same.leader]
          exact hleader'
        · rw [List.getLast?_cons, hlast]
          rfl

end Passes

end Dchat.Chat
