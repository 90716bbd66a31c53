import Dchat.RMP.Integrity
import Dchat.Foundations.Sublists

/-!
# In-order delivery over in-order links

`returned_in_order`: over links that may lose datagrams but neither reorder nor duplicate them,
whatever the timers do, what `RMP_listen` returns at `R` with source `S` is a subsequence of what
`S` passed to `RMP_sendTo` for `R`.

The invariant `Ordered S R` is about one ordered pair. With `C` the ids of the calls of `S` for `R`
and `ret` the ids returned so far, whatever may still be returned comes after `ret` in `C`: the
message held for `S`, every DATA under way, the message `S` is waiting for. On the link itself no
DATA is behind a SYN_ACK of its own or of a later call (`Follows`): a SYN_ACK is only sent for a
message that `S` does not wait for any more, and DATA is only sent for the one it waits for.
-/

namespace Dchat.RMP.Network

open Links Runs Sublists

/-- What an earlier datagram `p` of the link from `S` to `R` tells about a later DATA `q`: its call
does not come before that of `p`, and comes after it if `p` is a SYN_ACK. -/
def Follows (S R : RmpAddress) (C : List MessageId) (p q : Flight) : Prop :=
  p.On S R → q.On S R → q.body.type = .data →
    (p.body.type = .data → p.body.id = q.body.id ∨ [p.body.id, q.body.id].Sublist C) ∧
      (p.body.type = .synAck → p.body.id ∈ C → [p.body.id, q.body.id].Sublist C)

/-- The ids of the calls of `S` for `R`. -/
def callIds (s : Network) (S R : RmpAddress) : List MessageId :=
  (called S R s.history).map Outgoing.id

/-- The ids of the messages returned at `R` with source `S`. -/
def returnIds (s : Network) (S R : RmpAddress) : List MessageId :=
  (returned S R s.history).map Prod.fst

/-- What is ahead of the messages returned at `R` with source `S`, in the order of the calls. -/
structure Ordered (S R : RmpAddress) (s : Network) : Prop where
  returned : (s.returnIds S R).Sublist (s.callIds S R)
  slot : ∀ id bytes, (s.view R).slot (rmpAddressHash S) = some (id, bytes) →
    (s.returnIds S R ++ [id]).Sublist (s.callIds S R)
  slotData : ∀ id bytes, (s.view R).slot (rmpAddressHash S) = some (id, bytes) →
    ∀ q ∈ s.inFlight, q.On S R → q.body.type = .data →
      id = q.body.id ∨ [id, q.body.id].Sublist (s.callIds S R)
  data : ∀ q ∈ s.inFlight, q.On S R → q.body.type = .data →
    (s.returnIds S R ++ [q.body.id]).Sublist (s.callIds S R)
  waiting : ∀ m, (s.view S).mode = .waiting m → m.dest = R →
    (s.returnIds S R ++ [m.id]).Sublist (s.callIds S R) ∧ ∃ C, s.callIds S R = C ++ [m.id]
  synAck : ∀ p ∈ s.inFlight, p.On S R → p.body.type = .synAck →
    ∀ m, (s.view S).mode = .waiting m → m.dest = R → p.body.id ≠ m.id
  order : s.inFlight.Pairwise (Follows S R (s.callIds S R))

theorem ordered_initial {S R : RmpAddress} {s : Network} (h : s.Initial) : Ordered S R s := by
  obtain ⟨hproc, hin, hhist⟩ := h
  have hview : ∀ n, (s.view n).mode = .idle ∧ ∀ k, (s.view n).slot k = none := by
    intro n
    obtain ⟨garbage, hg⟩ := hproc n
    rw [view, hg]
    exact ⟨rfl, fun _ => rfl⟩
  refine ⟨by simp [returnIds, hhist, Network.returned], ?_, ?_, by simp [hin], ?_, by simp [hin],
    by simp [hin]⟩
  · intro id bytes hs
    simp [(hview R).2] at hs
  · intro id bytes hs
    simp [(hview R).2] at hs
  · intro m hw
    simp [(hview S).1] at hw

/-- An id of a call that is not the last one comes before the last one. -/
theorem before_last {C C₀ : List MessageId} {i m : MessageId} (hC : C = C₀ ++ [m]) (hi : i ∈ C)
    (hne : i ≠ m) : [i, m].Sublist C := by
  subst hC
  rcases List.mem_append.1 hi with hi | hi
  · exact pair_sublist_append hi
  · exact absurd (List.mem_singleton.1 hi) hne

theorem callIds_nodup {nodes : Finset RmpAddress} {s : Network} (h : Authentic nodes s)
    (S R : RmpAddress) : (s.callIds S R).Nodup :=
  h.ids.sublist (called_sublist S R s.history)

theorem mem_callIds_of_data {nodes : Finset RmpAddress} {s : Network} (h : Authentic nodes s)
    {S R : RmpAddress} {p : Flight} (hp : p ∈ s.inFlight) (hon : p.On S R)
    (ht : p.body.type = .data) : p.body.id ∈ s.callIds S R := by
  obtain ⟨m, hm, hb⟩ := h.data p hp ht
  rw [hb]
  obtain ⟨rfl, rfl⟩ := hon
  exact List.mem_map_of_mem hm

/-! ## What a step does to a pair -/

section Step

variable {nodes : Finset RmpAddress} {s s' : Network} {n : RmpAddress} {i : Input}
  {rest : List Flight} {out : Output} {es : List LocalEvent}

/-- A step calls `RMP_sendTo` for no message, or for one, whose id is fresh, when its process is
idle. -/
theorem Moved.callIds_cases (hm : s.Moved s' n i rest out es)
    (hfresh : ∀ id ∈ i.newId, id ∉ calledIds s.history) :
    ((∀ m, .call m ∉ es) ∧ ∀ S R, s'.callIds S R = s.callIds S R) ∨
      ∃ m, (∀ x, .call x ∈ es ↔ x = m) ∧ i.read = none ∧ (s.view n).mode = .idle ∧
        m.id ∉ calledIds s.history ∧
        ∀ S R, s'.callIds S R = s.callIds S R ++ if n = S ∧ m.dest = R then [m.id] else [] := by
  have hids : ∀ S R, s'.callIds S R =
      s.callIds S R ++ (called S R (es.map fun e => (n, e))).map Outgoing.id := by
    intro S R
    rw [callIds, hm.history, called_append, List.map_append]
    rfl
  rcases called_of_move hm.move with ⟨m, hidle, hr, -, hcall, hes⟩ | ⟨hcall, hes⟩
  · refine Or.inr ⟨m, hcall, hr, hidle, ?_, fun S R => ?_⟩
    · have hid : m.id ∈ calledIds (es.map fun e => (n, e)) := by
        refine (called_sublist n m.dest _).subset (List.mem_map_of_mem ?_)
        simp [hes]
      rw [hm.ids] at hid
      exact hfresh _ (Option.mem_toList.1 hid)
    · rw [hids, hes]
      split <;> rfl
  · refine Or.inl ⟨hcall, fun S R => ?_⟩
    rw [hids, hes, List.map_nil, List.append_nil]

theorem Moved.callIds_sublist (hm : s.Moved s' n i rest out es) (S R : RmpAddress) :
    (s.callIds S R).Sublist (s'.callIds S R) := by
  rw [callIds, callIds, hm.history, called_append, List.map_append]
  exact List.sublist_append_left _ _

/-- What is returned at `R` with source `S` stays, or the message held for `S` is returned. -/
theorem Moved.returnIds_cases (hm : s.Moved s' n i rest out es) (S R : RmpAddress) :
    s'.returnIds S R = s.returnIds S R ∨
      ∃ d bytes, n = R ∧ i.read = some (S, d) ∧ d.type = .synAck ∧
        (s.view R).slot (rmpAddressHash S) = some (d.id, bytes) ∧ (s'.view R).mode = .idle ∧
        (s'.view R).slot (rmpAddressHash S) = none ∧ out = [] ∧
        s'.returnIds S R = s.returnIds S R ++ [d.id] := by
  rcases returned_of_move hm.move with ⟨src, d, bytes, len, hr, ht, hslot, -, hv', ho, rfl⟩ | hnone
  · have hret : s'.returnIds S R = s.returnIds S R ++
        (if n = R ∧ src = S then [(d.id, bytes.take len)] else []).map Prod.fst := by
      rw [returnIds, hm.history, returned_append, List.map_singleton, returned_singleton,
        List.map_append]
      rfl
    by_cases hSR : n = R ∧ src = S
    · rw [if_pos hSR] at hret
      obtain ⟨rfl, rfl⟩ := hSR
      refine Or.inr ⟨d, bytes, rfl, hr, ht, hslot, by rw [hv'], ?_, ho, hret⟩
      rw [hv']
      exact Function.update_self ..
    · rw [if_neg hSR] at hret
      exact Or.inl (hret.trans (List.append_nil _))
  · left
    rw [returnIds, hm.history, returned_append, hnone, List.append_nil]
    rfl

/-- A message held for `S` after a step was held before, or its DATA has just been read; and nothing
is returned with source `S`. -/
theorem Moved.slot_cases (hm : s.Moved s' n i rest out es) (hinv : Authentic nodes s)
    (hnodes : Set.InjOn RmpAddress.sinAddr nodes)
    (hread : ∀ src d, i.read = some (src, d) → ⟨src, n, d⟩ ∈ s.inFlight) {S R : RmpAddress}
    (hS : S ∈ nodes) {id : MessageId} {bytes : Bytes}
    (h : (s'.view R).slot (rmpAddressHash S) = some (id, bytes)) :
    s'.returnIds S R = s.returnIds S R ∧
      ((s.view R).slot (rmpAddressHash S) = some (id, bytes) ∨
        ∃ d, n = R ∧ i.read = some (S, d) ∧ d.type = .data ∧ d.id = id) := by
  refine ⟨(hm.returnIds_cases S R).resolve_right ?_, ?_⟩
  · rintro ⟨d, b, -, -, -, -, -, hnone, -⟩
    simp [hnone] at h
  · by_cases hR : R = n
    · subst hR
      rcases hm.move.slot_cases with ⟨src, d, hr, ht, hslot⟩ | ⟨-, hsub⟩
      · rw [hslot] at h
        by_cases hk : rmpAddressHash S = rmpAddressHash src
        · obtain rfl : S = src := hnodes hS (hinv.src _ (hread _ _ hr)) (rmpAddressHash_inj.1 hk)
          rw [Function.update_self] at h
          exact Or.inr ⟨d, rfl, hr, ht, (Prod.mk.inj (Option.some.inj h)).1⟩
        · rw [Function.update_of_ne hk] at h
          exact Or.inl h
      · exact Or.inl (hsub _ _ h)
    · rw [hm.view_ne R hR] at h
      exact Or.inl h

/-- A message `S` waits for after a step was waited for before, or has just been passed to
`RMP_sendTo`. -/
theorem Moved.waiting_cases (hm : s.Moved s' n i rest out es)
    (hfresh : ∀ id ∈ i.newId, id ∉ calledIds s.history) {S : RmpAddress} {m : Outgoing}
    (hw : (s'.view S).mode = .waiting m) :
    (n = S ∧ i.read = none ∧ m.id ∉ calledIds s.history ∧
        s'.callIds S m.dest = s.callIds S m.dest ++ [m.id]) ∨
      ((s.view S).mode = .waiting m ∧ s'.callIds S m.dest = s.callIds S m.dest ∧
        (n = S → ∀ src d, i.read = some (src, d) → d.type = .ack →
          ¬ (m.dest = src ∧ m.id = d.id))) := by
  by_cases hS : S = n
  · subst hS
    rcases hm.move.waiting_cases hw with ⟨-, hr, hes, -⟩ | ⟨hwait, hnot⟩
    · left
      have hmem : .call m ∈ es := by simp [hes]
      rcases hm.callIds_cases hfresh with ⟨hno, -⟩ | ⟨m₀, hcall, -, -, hid, hC⟩
      · exact absurd hmem (hno m)
      · obtain rfl := (hcall m).1 hmem
        exact ⟨rfl, hr, hid, by rw [hC, if_pos ⟨rfl, rfl⟩]⟩
    · right
      rcases hm.callIds_cases hfresh with ⟨-, hC⟩ | ⟨_, -, -, hidle, -⟩
      · exact ⟨hwait, hC _ _, fun _ => hnot⟩
      · simp [hwait] at hidle
  · right
    rw [hm.view_ne S hS] at hw
    refine ⟨hw, ?_, fun h => absurd h.symm hS⟩
    rcases hm.callIds_cases hfresh with ⟨-, hC⟩ | ⟨m₀, -, -, -, -, hC⟩
    · exact hC _ _
    · rw [hC, if_neg fun h => hS h.1.symm, List.append_nil]

/-- A DATA sent to `R` by `S` is that of the last call of `S` for `R`. -/
theorem Moved.data_sent (hm : s.Moved s' n i rest out es)
    (hfresh : ∀ id ∈ i.newId, id ∉ calledIds s.history) {S R : RmpAddress} {q : Flight}
    (hq : q ∈ packets n out) (hon : q.On S R) (ht : q.body.type = .data) :
    n = S ∧ i.read = none ∧ s'.returnIds S R = s.returnIds S R ∧
      ((q.body.id ∉ calledIds s.history ∧
          s'.callIds S R = s.callIds S R ++ [q.body.id]) ∨
        ∃ m, (s.view S).mode = .waiting m ∧ m.dest = R ∧ q.body.id = m.id) := by
  obtain ⟨⟨dst, d⟩, hout, rfl⟩ := List.mem_map.1 hq
  obtain ⟨rfl, rfl⟩ := hon
  rcases hm.move.sends hout with ⟨m, heq, hr, hcall⟩ | ⟨k, id, bytes, -, hack⟩ |
    ⟨src, d', -, ⟨-, heq⟩ | ⟨-, heq⟩⟩
  · obtain ⟨rfl, rfl⟩ := Prod.mk.inj heq
    refine ⟨rfl, hr, (hm.returnIds_cases n m.dest).resolve_right ?_, ?_⟩
    · rintro ⟨_, _, -, hr', -⟩
      simp [hr] at hr'
    · rcases hcall with ⟨-, hmem⟩ | hwait
      · left
        rcases hm.callIds_cases hfresh with ⟨hno, -⟩ | ⟨m₀, hcall, -, -, hid, hC⟩
        · exact absurd hmem (hno m)
        · obtain rfl := (hcall m).1 hmem
          exact ⟨hid, by rw [hC, if_pos ⟨rfl, rfl⟩]; rfl⟩
      · exact Or.inr ⟨m, hwait, rfl, rfl⟩
  · simp only at hack ht
    simp [hack] at ht
  · simp [(Prod.mk.inj heq).2] at ht
  · simp [(Prod.mk.inj heq).2] at ht

/-- A SYN_ACK sent to `R` by `S` answers an ACK from `R`. -/
theorem Moved.synAck_sent (hm : s.Moved s' n i rest out es) {S R : RmpAddress} {q : Flight}
    (hq : q ∈ packets n out) (hon : q.On S R) (ht : q.body.type = .synAck) :
    n = S ∧ ∃ d, i.read = some (R, d) ∧ d.type = .ack ∧ d.id = q.body.id := by
  obtain ⟨⟨dst, d⟩, hout, rfl⟩ := List.mem_map.1 hq
  obtain ⟨rfl, rfl⟩ := hon
  rcases hm.move.sends hout with ⟨m, heq, -, -⟩ | ⟨k, id, bytes, -, hack⟩ |
    ⟨src, d', hr, ⟨-, heq⟩ | ⟨hd, heq⟩⟩
  · simp [(Prod.mk.inj heq).2, Outgoing.datagram] at ht
  · simp only at hack ht
    simp [hack] at ht
  · simp [(Prod.mk.inj heq).2] at ht
  · obtain ⟨rfl, rfl⟩ := Prod.mk.inj heq
    exact ⟨rfl, d', hr, hd, rfl⟩

/-! ## The invariant is kept -/

variable {S R : RmpAddress}

/-- What the links deliver: what the step reads was under way, ahead of the rest of its link. -/
structure Taken (s : Network) (n : RmpAddress) (i : Input) (rest : List Flight) : Prop where
  sublist : rest.Sublist s.inFlight
  mem : ∀ src d, i.read = some (src, d) → ⟨src, n, d⟩ ∈ s.inFlight
  ahead : ∀ src d, i.read = some (src, d) → ∀ (P : Flight → Flight → Prop),
    s.inFlight.Pairwise P → ∀ p ∈ rest, p.On src n → P ⟨src, n, d⟩ p

/-- An id held, or read, comes before or is that of the last message `S` waits for. -/
theorem Ordered.eq_or_before_last (ho : Ordered S R s) {m : Outgoing}
    (hw : (s.view S).mode = .waiting m) (hd : m.dest = R) {id : MessageId}
    (hid : id ∈ s.callIds S R) : id = m.id ∨ [id, m.id].Sublist (s.callIds S R) := by
  obtain ⟨-, C, hC⟩ := ho.waiting m hw hd
  by_cases h : id = m.id
  · exact Or.inl h
  · exact Or.inr (before_last hC hid h)

section

variable (hm : s.Moved s' n i rest out es) (hinv : Authentic nodes s) (ho : Ordered S R s)
  (htaken : Taken s n i rest) (hfresh : ∀ id ∈ i.newId, id ∉ calledIds s.history)
include hm hinv ho htaken hfresh

/-- If a message is returned in the step, a DATA left on the link is of a later call. -/
theorem ordered_data (q : Flight) (hq : q ∈ s'.inFlight) (hon : q.On S R)
    (ht : q.body.type = .data) : (s'.returnIds S R ++ [q.body.id]).Sublist (s'.callIds S R) := by
  rw [hm.inFlight] at hq
  rcases List.mem_append.1 hq with hq | hq
  · have hold := ho.data q (htaken.sublist.subset hq) hon ht
    rcases hm.returnIds_cases S R with hret | ⟨d, bytes, rfl, hr, hd, hslot, -, -, -, hret⟩
    · rw [hret]
      exact hold.trans (hm.callIds_sublist S R)
    · have hla := ho.slot _ _ hslot
      have hfollows := htaken.ahead _ _ hr _ ho.order q hq hon
      have hab := (hfollows ⟨rfl, rfl⟩ hon ht).2 hd (hla.subset (by simp))
      rw [hret]
      exact (sublist_glue (callIds_nodup hinv S _) hla hab).trans (hm.callIds_sublist S _)
  · obtain ⟨rfl, -, hret, ⟨-, hC⟩ | ⟨m, hw, hd, hid⟩⟩ := hm.data_sent hfresh hq hon ht
    · rw [hret, hC]
      exact ho.returned.append (List.Sublist.refl _)
    · rw [hret, hid]
      exact (ho.waiting m hw hd).1.trans (hm.callIds_sublist n R)

theorem ordered_slotData (hnodes : Set.InjOn RmpAddress.sinAddr nodes) (hS : S ∈ nodes)
    (id : MessageId) (bytes : Bytes)
    (hs : (s'.view R).slot (rmpAddressHash S) = some (id, bytes)) (q : Flight)
    (hq : q ∈ s'.inFlight) (hon : q.On S R) (ht : q.body.type = .data) :
    id = q.body.id ∨ [id, q.body.id].Sublist (s'.callIds S R) := by
  have hmono := hm.callIds_sublist S R
  rw [hm.inFlight] at hq
  obtain ⟨-, hold | ⟨d, rfl, hr, hd, rfl⟩⟩ := hm.slot_cases hinv hnodes htaken.mem hS hs
  · have hid : id ∈ s.callIds S R := (ho.slot id bytes hold).subset (by simp)
    rcases List.mem_append.1 hq with hq | hq
    · exact (ho.slotData id bytes hold q (htaken.sublist.subset hq) hon ht).imp_right
        fun h => h.trans hmono
    · obtain ⟨rfl, -, -, ⟨-, hC⟩ | ⟨m, hw, hdest, hqid⟩⟩ := hm.data_sent hfresh hq hon ht
      · rw [hC]
        exact Or.inr (pair_sublist_append hid)
      · rw [hqid]
        exact (ho.eq_or_before_last hw hdest hid).imp_right fun h => h.trans hmono
  · -- the DATA held has just been read, ahead of `q`
    rcases List.mem_append.1 hq with hq | hq
    · have hfollows := htaken.ahead _ _ hr _ ho.order q hq hon
      exact ((hfollows ⟨rfl, rfl⟩ hon ht).1 hd).imp_right fun h => h.trans hmono
    · obtain ⟨-, hnone, -⟩ := hm.data_sent hfresh hq hon ht
      simp [hr] at hnone

theorem ordered_waiting (m : Outgoing) (hw : (s'.view S).mode = .waiting m) (hd : m.dest = R) :
    (s'.returnIds S R ++ [m.id]).Sublist (s'.callIds S R) ∧ ∃ C, s'.callIds S R = C ++ [m.id] := by
  subst hd
  rcases hm.waiting_cases hfresh hw with ⟨rfl, hr, -, hC⟩ | ⟨hwait, hC, -⟩
  · refine ⟨?_, _, hC⟩
    have hret := (hm.returnIds_cases n m.dest).resolve_right (by simp [hr])
    rw [hret, hC]
    exact ho.returned.append (List.Sublist.refl _)
  · obtain ⟨hold, C, hlast⟩ := ho.waiting m hwait rfl
    rw [hC]
    refine ⟨?_, C, hlast⟩
    rcases hm.returnIds_cases S m.dest with hret | ⟨d, bytes, hn, hr, ht, hslot, -, -, -, hret⟩
    · rw [hret]
      exact hold
    · -- the message returned is an earlier one: its SYN_ACK has been sent
      have hla := ho.slot _ _ hslot
      have hne := ho.synAck _ (htaken.mem _ _ hr) ⟨rfl, hn⟩ ht m hwait rfl
      have hab := before_last hlast (hla.subset (by simp)) hne
      rw [hret]
      exact sublist_glue (callIds_nodup hinv S _) hla hab

theorem ordered_synAck (p : Flight) (hp : p ∈ s'.inFlight) (hon : p.On S R)
    (ht : p.body.type = .synAck) (m : Outgoing) (hw : (s'.view S).mode = .waiting m)
    (hd : m.dest = R) : p.body.id ≠ m.id := by
  subst hd
  rw [hm.inFlight] at hp
  rcases List.mem_append.1 hp with hp | hp
  · have hp' := htaken.sublist.subset hp
    rcases hm.waiting_cases hfresh hw with ⟨-, -, hid, -⟩ | ⟨hwait, -, -⟩
    · exact fun he => hid (he ▸ hinv.id p hp')
    · exact ho.synAck p hp' hon ht m hwait rfl
  · -- an ACK that does not end the wait has another id
    obtain ⟨hn, d, hr, hd, hid⟩ := hm.synAck_sent hp hon ht
    rcases hm.waiting_cases hfresh hw with ⟨-, hnone, -, -⟩ | ⟨-, -, hnot⟩
    · simp [hr] at hnone
    · exact fun he => hnot hn _ _ hr hd ⟨rfl, (hid.trans he).symm⟩

theorem ordered_order : s'.inFlight.Pairwise (Follows S R (s'.callIds S R)) := by
  have hmono := hm.callIds_sublist S R
  -- a SYN_ACK under way is not of a call made in this step
  have hcalled : ∀ p ∈ s.inFlight, p.body.id ∈ s'.callIds S R → p.body.id ∈ s.callIds S R := by
    intro p hp hid
    rcases hm.callIds_cases hfresh with ⟨-, hC⟩ | ⟨m, -, -, -, hnew, hC⟩
    · rwa [hC] at hid
    · rw [hC] at hid
      rcases List.mem_append.1 hid with hid | hid
      · exact hid
      · split at hid
        · exact absurd (List.mem_singleton.1 hid ▸ hinv.id p hp) hnew
        · cases hid
  rw [hm.inFlight]
  refine List.pairwise_append.2 ⟨?_, ?_, ?_⟩
  · refine (ho.order.sublist htaken.sublist).imp_of_mem fun {p q} hp _ hpq hpon hqon ht => ?_
    obtain ⟨hdata, hsyn⟩ := hpq hpon hqon ht
    exact ⟨fun h => (hdata h).imp_right fun h => h.trans hmono,
      fun h hid => (hsyn h (hcalled p (htaken.sublist.subset hp) hid)).trans hmono⟩
  · refine List.pairwise_map.2 (hm.move.sends_pairwise.imp fun {p q} hack _ _ ht => ?_)
    simp [hack] at ht
  · intro p hp q hq hpon hqon ht
    have hp := htaken.sublist.subset hp
    obtain ⟨rfl, -, -, ⟨-, hC⟩ | ⟨m, hw, hd, hid⟩⟩ := hm.data_sent hfresh hq hqon ht
    · refine ⟨fun hpd => Or.inr ?_, fun _ hpid => ?_⟩
      · rw [hC]
        exact pair_sublist_append (mem_callIds_of_data hinv hp hpon hpd)
      · have := hcalled p hp hpid
        rw [hC]
        exact pair_sublist_append this
    · rw [hid]
      refine ⟨fun hpd => ?_, fun hps hpid => ?_⟩
      · exact (ho.eq_or_before_last hw hd (mem_callIds_of_data hinv hp hpon hpd)).imp_right
          fun h => h.trans hmono
      · have hne := ho.synAck p hp hpon hps m hw hd
        exact ((ho.eq_or_before_last hw hd (hcalled p hp hpid)).resolve_left hne).trans hmono

theorem ordered_moved (hnodes : Set.InjOn RmpAddress.sinAddr nodes) (hS : S ∈ nodes) :
    Ordered S R s' := by
  have hmono := hm.callIds_sublist S R
  refine ⟨?_, ?_, ordered_slotData hm hinv ho htaken hfresh hnodes hS,
    ordered_data hm hinv ho htaken hfresh, ordered_waiting hm hinv ho htaken hfresh,
    ordered_synAck hm hinv ho htaken hfresh, ordered_order hm hinv ho htaken hfresh⟩
  · rcases hm.returnIds_cases S R with hret | ⟨d, bytes, -, -, -, hslot, -, -, -, hret⟩
    · rw [hret]
      exact ho.returned.trans hmono
    · rw [hret]
      exact (ho.slot _ _ hslot).trans hmono
  · intro id bytes hs
    obtain ⟨hret, hold | ⟨d, rfl, hr, ht, rfl⟩⟩ := hm.slot_cases hinv hnodes htaken.mem hS hs
    · rw [hret]
      exact (ho.slot id bytes hold).trans hmono
    · rw [hret]
      exact (ho.data _ (htaken.mem _ _ hr) ⟨rfl, rfl⟩ ht).trans hmono

end

end Step

theorem ordered_step {nodes : Finset RmpAddress} (hnodes : Set.InjOn RmpAddress.sinAddr nodes)
    {S R : RmpAddress} (hS : S ∈ nodes) {s s' : Network} {a : Action} (hinv : Authentic nodes s)
    (ho : Ordered S R s) (hd : Distinct nodes s a) (h : fifoStep s a = some s') :
    Ordered S R s' := by
  cases a with
  | copy k => cases h
  | lose k =>
    obtain rfl := Option.some.inj h
    have hsub : (s.inFlight.eraseIdx k).Sublist s.inFlight := List.eraseIdx_sublist ..
    exact ⟨ho.returned, ho.slot, fun id b hs q hq => ho.slotData id b hs q (hsub.subset hq),
      fun q hq => ho.data q (hsub.subset hq), ho.waiting,
      fun p hp => ho.synAck p (hsub.subset hp), ho.order.sublist hsub⟩
  | step n i =>
    obtain ⟨rest, out, es, hm, -, hread⟩ := fifoStep_moved hinv.valid h
    refine ordered_moved hm hinv ho ?_ hd.2 hnodes hS
    rcases hread with ⟨hr, rfl⟩ | ⟨src, d, hr, ht⟩
    · exact ⟨List.Sublist.refl _, by simp [hr], by simp [hr]⟩
    · refine ⟨takeFirst_sublist ht, ?_, ?_⟩
      · rintro src' d' hr'
        obtain ⟨rfl, rfl⟩ := Prod.mk.inj (Option.some.inj (hr.symm.trans hr'))
        exact mem_of_takeFirst ht
      · rintro src' d' hr' P hP
        obtain ⟨rfl, rfl⟩ := Prod.mk.inj (Option.some.inj (hr.symm.trans hr'))
        exact pairwise_takeFirst hP ht

/-- **In-order delivery over in-order links**: the messages returned at `R` with source `S` match,
up to truncation, a subsequence of the messages `S` passed to `RMP_sendTo` for `R`. -/
theorem returned_in_order {nodes : Finset RmpAddress}
    (hnodes : Set.InjOn RmpAddress.sinAddr nodes) {s : Network}
    (h : Reach fifoStep (Distinct nodes) Initial s) {S : RmpAddress} (hS : S ∈ nodes)
    (R : RmpAddress) :
    (results S R s.history).Sublist (returned S R s.history) ∧
      ∃ l, l.Sublist (called S R s.history) ∧
        List.Forall₂ (fun m x => x.1 = m.id ∧ x.2 <+: m.message) l (returned S R s.history) := by
  have hudp : ∀ t, Reach fifoStep (Distinct nodes) Initial t →
      Reach udpStep (Distinct nodes) Initial t :=
    fun _ ht => ht.mono fun _ _ _ hok hs => ⟨hok, udpStep_of_fifoStep hs⟩
  have hauth : ∀ t, Reach fifoStep (Distinct nodes) Initial t → Authentic nodes t :=
    fun t ht => authentic_of_reach hnodes (hudp t ht)
  have ho : Ordered S R s := h.invariant_of hauth (fun _ => ordered_initial)
    fun _ _ _ hJ hI hok hs => ordered_step hnodes hS hJ hI hok hs
  refine ⟨results_sublist (hudp s h) S R,
    exists_forall₂_of_map_sublist ho.returned (callIds_nodup (hauth s h) S R) ?_⟩
  intro x hx
  obtain ⟨m, hm, hid, hpre⟩ := (hauth s h).returned S R x hx
  exact ⟨m, hm, hid, hid.symm, hpre⟩

/-- Three messages for another host. The DATA of the second one is lost, and so are the copies that
the wait loop sends until it gives up. -/
def lossy : List Action :=
  exchange ++
    [.step ⟨1, 1⟩ (.sendTo ⟨2, 1⟩ [105] 8), .lose 0, expired 1, .lose 0, expired 2, .lose 0, expired 3,
      .step ⟨1, 1⟩ (.sendTo ⟨2, 1⟩ [106, 107] 9),
      .step ⟨2, 1⟩ (.listen 8), .step ⟨2, 1⟩ (.receive ⟨1, 1⟩ .data 9 [106, 107]),
      .step ⟨1, 1⟩ .wait, .step ⟨1, 1⟩ (.receive ⟨2, 1⟩ .ack 9 []),
      .step ⟨2, 1⟩ (.listen 8), .step ⟨2, 1⟩ (.receive ⟨1, 1⟩ .synAck 9 [])]
where
  expired (now : ℤ) : Action :=
    .step ⟨1, 1⟩ (.loop (some ⟨now, 0⟩) .still { SendInput.still with timestamp := some ⟨now, 0⟩ })

theorem returned_in_order_lossy :
    ∃ s : Network, (called ⟨1, 1⟩ ⟨2, 1⟩ s.history).map Outgoing.id = [7, 8, 9] ∧
      results ⟨1, 1⟩ ⟨2, 1⟩ s.history = [(7, [104, 105]), (9, [106, 107])] ∧
      (results ⟨1, 1⟩ ⟨2, 1⟩ s.history).Sublist (returned ⟨1, 1⟩ ⟨2, 1⟩ s.history) ∧
      ∃ l, l.Sublist (called ⟨1, 1⟩ ⟨2, 1⟩ s.history) ∧
        List.Forall₂ (fun m x => x.1 = m.id ∧ x.2 <+: m.message) l
          (returned ⟨1, 1⟩ ⟨2, 1⟩ s.history) := by
  obtain ⟨s, hs, hres⟩ := Option.map_eq_some_iff.1
    (show (exec fifoStep (Distinct twoHosts) start lossy).map
        (fun s => ((called ⟨1, 1⟩ ⟨2, 1⟩ s.history).map Outgoing.id,
          results ⟨1, 1⟩ ⟨2, 1⟩ s.history)) =
      some ([7, 8, 9], [(7, [104, 105]), (9, [106, 107])]) by decide)
  obtain ⟨hcall, hresults⟩ := Prod.mk.inj hres
  exact ⟨s, hcall, hresults, returned_in_order twoHosts_injOn (reach_exec _ (.start initial_start) hs)
    (by decide) ⟨2, 1⟩⟩

end Dchat.RMP.Network
