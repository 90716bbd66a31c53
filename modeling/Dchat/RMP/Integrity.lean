import Dchat.RMP.Network
import Mathlib.Data.List.Infix

/-!
# Messages come from calls

Between processes with distinct IP addresses that draw distinct message ids, over a network of any
behaviour, every DATA under way, every message held for a peer and every message returned by
`RMP_listen` is (a prefix of) a message that its source passed to `RMP_sendTo` for its recipient.
This is the invariant `Authentic`, which the results on the order of delivery build on.
-/

namespace Dchat.RMP.Network

open Runs

/-- The message with an id that `S` passed to `RMP_sendTo` for `R` starts with the given bytes. -/
def CalledWith (h : List (RmpAddress × LocalEvent)) (S R : RmpAddress) (id : MessageId)
    (bytes : Bytes) : Prop :=
  ∃ m ∈ called S R h, m.id = id ∧ bytes <+: m.message

theorem CalledWith.append {h : List (RmpAddress × LocalEvent)} {S R : RmpAddress} {id : MessageId}
    {bytes : Bytes} (hc : CalledWith h S R id bytes) (h' : List (RmpAddress × LocalEvent)) :
    CalledWith (h ++ h') S R id bytes := by
  obtain ⟨m, hm, hmatch⟩ := hc
  exact ⟨m, called_append S R h h' ▸ List.mem_append_left _ hm, hmatch⟩

theorem CalledWith.take {h : List (RmpAddress × LocalEvent)} {S R : RmpAddress} {id : MessageId}
    {bytes : Bytes} (hc : CalledWith h S R id bytes) (n : ℕ) :
    CalledWith h S R id (bytes.take n) := by
  obtain ⟨m, hm, hid, hpre⟩ := hc
  exact ⟨m, hm, hid, (List.take_prefix _ _).trans hpre⟩

theorem CalledWith.mem_calledIds {h : List (RmpAddress × LocalEvent)} {S R : RmpAddress}
    {id : MessageId} {bytes : Bytes} (hc : CalledWith h S R id bytes) : id ∈ calledIds h := by
  obtain ⟨m, hm, rfl, -⟩ := hc
  exact (called_sublist S R h).subset (List.mem_map_of_mem hm)

/-- Everything stems from a call. -/
structure Authentic (nodes : Finset RmpAddress) (s : Network) : Prop where
  valid : s.Valid
  src : ∀ p ∈ s.inFlight, p.src ∈ nodes
  ids : (calledIds s.history).Nodup
  id : ∀ p ∈ s.inFlight, p.body.id ∈ calledIds s.history
  data : ∀ p ∈ s.inFlight, p.body.type = .data →
    ∃ m ∈ called p.src p.dst s.history, p.body = m.datagram
  waiting : ∀ n m, (s.view n).mode = .waiting m → m ∈ called n m.dest s.history
  slot : ∀ R k id bytes, (s.view R).slot k = some (id, bytes) →
    ∃ S ∈ nodes, rmpAddressHash S = k ∧ CalledWith s.history S R id bytes
  returned : ∀ S R, ∀ x ∈ returned S R s.history, CalledWith s.history S R x.1 x.2

theorem authentic_initial {nodes : Finset RmpAddress} {s : Network} (h : s.Initial) :
    Authentic nodes s := by
  obtain ⟨hproc, hin, hhist⟩ := h
  have hview : ∀ n, (s.view n).mode = .idle ∧ ∀ k, (s.view n).slot k = none := by
    intro n
    obtain ⟨garbage, hg⟩ := hproc n
    rw [view, hg]
    exact ⟨rfl, fun _ => rfl⟩
  refine ⟨valid_initial s ⟨hproc, hin, hhist⟩, by simp [hin], by simp [hhist, calledIds],
    by simp [hin], by simp [hin], ?_, ?_, by simp [hhist, Network.returned]⟩
  · intro n m hw
    simp [(hview n).1] at hw
  · intro R k id bytes hs
    simp [(hview R).2] at hs

section Step

variable {nodes : Finset RmpAddress} {s s' : Network} {n : RmpAddress} {i : Input}
  {rest : List Flight} {out : Output} {es : List LocalEvent}

/-- A message called in a step, or before it. -/
theorem Moved.called_of_call (hm : s.Moved s' n i rest out es) {m : Outgoing}
    (h : .call m ∈ es ∨ m ∈ called n m.dest s.history) : m ∈ called n m.dest s'.history := by
  rw [hm.history, called_append]
  rcases h with h | h
  · exact List.mem_append_right _ (Network.mem_called.2 ⟨List.mem_map.2 ⟨_, h, rfl⟩, rfl⟩)
  · exact List.mem_append_left _ h

theorem Moved.calledIds_subset (hm : s.Moved s' n i rest out es) :
    ∀ id ∈ calledIds s.history, id ∈ calledIds s'.history := by
  intro id hid
  rw [hm.history, calledIds_append]
  exact List.mem_append_left _ hid

theorem Moved.authentic_sent (hm : s.Moved s' n i rest out es) (hinv : Authentic nodes s)
    (hread : ∀ src d, i.read = some (src, d) → ⟨src, n, d⟩ ∈ s.inFlight) {p : Flight}
    (hp : p ∈ packets n out) :
    p.src = n ∧ p.body.id ∈ calledIds s'.history ∧
      (p.body.type = .data → ∃ m ∈ called p.src p.dst s'.history, p.body = m.datagram) := by
  obtain ⟨q, hq, rfl⟩ := List.mem_map.1 hp
  refine ⟨rfl, ?_⟩
  rcases hm.move.sends hq with ⟨m, rfl, -, hcall⟩ | ⟨k, id, bytes, hslot, hq⟩ |
    ⟨src, d, hr, ⟨-, rfl⟩ | ⟨-, rfl⟩⟩
  · have hmem : m ∈ called n m.dest s'.history :=
      hm.called_of_call (hcall.imp (fun h => h.2) fun h => hinv.waiting n m h)
    exact ⟨(called_sublist _ _ _).subset (List.mem_map_of_mem hmem), fun _ => ⟨m, hmem, rfl⟩⟩
  · obtain ⟨S, -, -, hc⟩ := hinv.slot n k id bytes hslot
    refine ⟨?_, by simp [hq]⟩
    simp only [hq]
    exact hm.calledIds_subset _ hc.mem_calledIds
  · have hid := hinv.id _ (hread _ _ hr)
    exact ⟨hm.calledIds_subset _ hid, by simp⟩
  · have hid := hinv.id _ (hread _ _ hr)
    exact ⟨hm.calledIds_subset _ hid, by simp⟩

theorem Moved.authentic_slot (hm : s.Moved s' n i rest out es) (hinv : Authentic nodes s)
    (hread : ∀ src d, i.read = some (src, d) → ⟨src, n, d⟩ ∈ s.inFlight) (R : RmpAddress) (k : ℤ)
    (id : MessageId) (bytes : Bytes) (hs : (s'.view R).slot k = some (id, bytes)) :
    ∃ S ∈ nodes, rmpAddressHash S = k ∧ CalledWith s'.history S R id bytes := by
  have hold : (s.view R).slot k = some (id, bytes) →
      ∃ S ∈ nodes, rmpAddressHash S = k ∧ CalledWith s'.history S R id bytes := by
    intro h
    obtain ⟨S, hS, hk, hc⟩ := hinv.slot R k id bytes h
    exact ⟨S, hS, hk, hm.history ▸ hc.append _⟩
  by_cases hR : R = n
  · subst hR
    rcases hm.move.slot_cases with ⟨src, d, hr, ht, hslot⟩ | ⟨-, hsub⟩
    · rw [hslot] at hs
      by_cases hk : k = rmpAddressHash src
      · subst hk
        rw [Function.update_self] at hs
        obtain ⟨rfl, rfl⟩ := Prod.mk.inj (Option.some.inj hs)
        obtain ⟨m, hmem, hd⟩ := hinv.data _ (hread _ _ hr) ht
        have hc : CalledWith s.history src R m.id m.message := ⟨m, hmem, rfl, List.prefix_rfl⟩
        simp only at hd
        rw [hd]
        exact ⟨src, hinv.src _ (hread _ _ hr), rfl, hm.history ▸ (hc.take _).append _⟩
      · rw [Function.update_of_ne hk] at hs
        exact hold hs
    · exact hold (hsub _ _ hs)
  · rw [hm.view_ne R hR] at hs
    exact hold hs

theorem Moved.authentic_returned (hm : s.Moved s' n i rest out es) (hinv : Authentic nodes s)
    (hnodes : Set.InjOn RmpAddress.sinAddr nodes)
    (hread : ∀ src d, i.read = some (src, d) → ⟨src, n, d⟩ ∈ s.inFlight) (S R : RmpAddress)
    (x : MessageId × Bytes) (hx : x ∈ Network.returned S R s'.history) :
    CalledWith s'.history S R x.1 x.2 := by
  rw [hm.history] at hx ⊢
  rw [returned_append] at hx
  rcases List.mem_append.1 hx with hold | hnew
  · exact (hinv.returned S R x hold).append _
  · rcases returned_of_move hm.move with ⟨src, d, bytes, len, hr, -, hslot, -, -, -, rfl⟩ | hnone
    · rw [List.map_singleton, returned_singleton] at hnew
      split at hnew
      · next hSR =>
        obtain ⟨rfl, rfl⟩ := hSR
        obtain rfl := List.mem_singleton.1 hnew
        obtain ⟨T, hT, hk, hc⟩ := hinv.slot n _ _ _ hslot
        obtain rfl : T = src := hnodes hT (hinv.src _ (hread _ _ hr)) (rmpAddressHash_inj.1 hk)
        exact (hc.take len).append _
      · cases hnew
    · simp [hnone] at hnew

end Step

theorem authentic_step {nodes : Finset RmpAddress} (hnodes : Set.InjOn RmpAddress.sinAddr nodes)
    {s s' : Network} {a : Action} (hinv : Authentic nodes s) (hd : Distinct nodes s a)
    (h : udpStep s a = some s') : Authentic nodes s' := by
  obtain ⟨hvalid, ⟨n, i, rest, out, es, rfl, hm, hrest, hread⟩ | ⟨hview, hhist, hin⟩⟩ :=
    udpStep_cases hinv.valid h
  · obtain ⟨hn, hfresh⟩ := hd
    have hflight : ∀ p ∈ s'.inFlight, p ∈ s.inFlight ∨ p ∈ packets n out := by
      rw [hm.inFlight]
      exact fun p hp => (List.mem_append.1 hp).imp (hrest p) id
    refine ⟨hvalid, ?_, ?_, ?_, ?_, ?_, hm.authentic_slot hinv hread,
      hm.authentic_returned hinv hnodes hread⟩
    · intro p hp
      rcases hflight p hp with hp | hp
      · exact hinv.src p hp
      · rw [(hm.authentic_sent hinv hread hp).1]
        exact hn
    · rw [hm.history, calledIds_append, hm.ids]
      refine List.Nodup.append hinv.ids (by cases i.newId <;> simp) ?_
      intro id hid hnew
      exact hfresh id (Option.mem_toList.1 hnew) hid
    · intro p hp
      rcases hflight p hp with hp | hp
      · exact hm.calledIds_subset _ (hinv.id p hp)
      · exact (hm.authentic_sent hinv hread hp).2.1
    · intro p hp ht
      rcases hflight p hp with hp | hp
      · obtain ⟨m, hmem, hb⟩ := hinv.data p hp ht
        exact ⟨m, hm.history ▸ called_append _ _ _ _ ▸ List.mem_append_left _ hmem, hb⟩
      · exact (hm.authentic_sent hinv hread hp).2.2 ht
    · intro b m hw
      by_cases hb : b = n
      · subst hb
        rcases hm.move.waiting_cases hw with ⟨-, -, rfl, -⟩ | ⟨hwait, -⟩
        · exact hm.called_of_call (Or.inl (by simp))
        · exact hm.called_of_call (Or.inr (hinv.waiting b m hwait))
      · rw [hm.view_ne b hb] at hw
        rw [hm.history, called_append]
        exact List.mem_append_left _ (hinv.waiting b m hw)
  · exact ⟨hvalid, fun p hp => hinv.src p (hin p hp), hhist ▸ hinv.ids,
      hhist ▸ fun p hp => hinv.id p (hin p hp), hhist ▸ fun p hp => hinv.data p (hin p hp),
      hhist ▸ hview ▸ hinv.waiting, hhist ▸ hview ▸ hinv.slot, hhist ▸ hinv.returned⟩

/-- **Messages come from calls**, over a network of any behaviour. -/
theorem authentic_of_reach {nodes : Finset RmpAddress}
    (hnodes : Set.InjOn RmpAddress.sinAddr nodes) {s : Network}
    (h : Reach udpStep (Distinct nodes) Initial s) : Authentic nodes s :=
  h.invariant (fun _ => authentic_initial) fun _ _ _ hI hok hs => authentic_step hnodes hI hok hs

end Dchat.RMP.Network
